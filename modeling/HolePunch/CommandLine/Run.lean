import HolePunch.CommandLine.Arguments
import HolePunch.Exchange
import HolePunch.LogFilter
import HolePunch.Settings.Load

/-!
# Runs

What a call prints and how it ends. The settings are loaded before any command, and they must name a
log filter; what a command printed before it gave up stays printed. Files and the network are
parameters: `Network.ofExchange` is the one that listens and sends as `Exchange` says.
-/

namespace HolePunch.CommandLine

inductive Trouble where
  | settings (cause : SettingsError)
  | logFilter (text : String)
  | command (cause : Failure)
  /-- The program breaks down and has nothing to say about it. -/
  | crash
  deriving DecidableEq, Repr

namespace Trouble

/-- The error that is printed, if the program gets to print one. -/
def message? : Trouble → Option String
  | .settings cause => some cause.message
  | .logFilter text => some s!"Invalid log filter '{text}'"
  | .command cause => some cause.message
  | .crash => none

/-- What went wrong while it was being done, the nearest cause first. -/
def causes : Trouble → List String
  | .settings _ | .logFilter _ | .crash => []
  | .command cause => cause.causes

def status : Trouble → UInt8
  | .settings _ | .logFilter _ | .command _ => 1
  | .crash => 101

end Trouble

/-- What a call prints, and why it came to nothing, if it did. -/
structure Outcome where
  output : List Char
  trouble : Option Trouble

namespace Outcome

def done (output : List Char) : Outcome := ⟨output, none⟩

/-- A call that comes to nothing after it printed something. -/
def failed (output : List Char) (trouble : Trouble) : Outcome := ⟨output, some trouble⟩

def ofResult {α : Type} (print : α → List Char) : Except Failure α → Outcome
  | .ok a => done (print a)
  | .error cause => failed [] (.command cause)

def ofEnding {α : Type} (print : α → List Char) : Exchange.Ending α → Outcome
  | .done a => done (print a)
  | .failed cause => failed [] (.command cause)
  | .crashed => failed [] .crash

def status (outcome : Outcome) : UInt8 := outcome.trouble.elim 0 Trouble.status

end Outcome

def Stop.status : Stop → UInt8
  | .help | .version => 0
  | .misuse => 2

def versionLine : String := "puncher-dump 0.1.0"

structure Files where
  /-- The text of a file with settings, if there is one. -/
  text : String → Option (List Char)
  /-- What reading a capture delivers, or why it cannot be opened. -/
  capture : String → Except String Source

/-- The file with settings that a path stands for: the file itself, or the one with the extension
`toml` added. -/
def Files.choose (files : Files) : Option String → Settings.FileChoice
  | none => .absent
  | some path =>
    let exactly (path : String) : Option Settings.File := (files.text path).map fun s => ⟨path, s⟩
    match (exactly path).or (exactly (path ++ ".toml")) with
    | some file => .found file
    | none => .missing

/-- Ways to listen and to send, with whatever effects. -/
structure Network (m : Type → Type) where
  listen : Settings → Option SocketAddr → m (Exchange.Ending Nat)
  send : Settings → SocketAddr → Bool → Message → m (Exchange.Ending (Option Message))

/-- A network on which this is met; listening may go on for ever. -/
def Network.ofExchange (inlet : SocketAddr → Exchange.Inlet) (link : Exchange.Link) :
    Network Option where
  listen settings bind :=
    (Exchange.listen settings bind (inlet (Exchange.bindAddress settings bind))).ending
  send settings target wait message :=
    some (Exchange.send settings target message wait link).ending

/-- The variable with a log filter, which is used if it is one. -/
def filterVariable : String := "RUST_LOG"

/-- True if there is a log filter, in the environment or in the settings. -/
def hasLogFilter (env : Settings.Environment) (settings : Settings) : Bool :=
  (env.lookup filterVariable).any (fun s => LogFilter.isFilter s.toList) ||
    LogFilter.isFilter settings.level.toList

def Invocation.settings (call : Invocation) (files : Files) (env : Settings.Environment) :
    Except Trouble Settings := do
  let settings ← (Settings.load (files.choose call.config) env).mapError .settings
  if hasLogFilter env settings then return settings else throw (.logFilter settings.level)

def line (text : List Char) : List Char := text ++ ['\n']

/-- A count of things, as a line. -/
def countLine (count : Nat) (things : String) : List Char :=
  line (Text.decimal count ++ ' ' :: things.toList)

def dumpOutcome (path : String) : Except String Source → Outcome
  | .error cause => .failed [] (.command (.unopened path cause))
  | .ok source =>
    let dump := Inspect.dump source
    match dump.result with
    | .ok count => .done (dump.output ++ countLine count "message(s)")
    | .error cause => .failed dump.output (.command cause)

/-- The outcome of listening, which ends with how many datagrams came. -/
def listenOutcome : Exchange.Ending Nat → Outcome :=
  .ofEnding (countLine · "datagram(s) received")

/-- The outcome of sending, which ends with the reply that was waited for. -/
def sendOutcome : Exchange.Ending (Option Message) → Outcome :=
  .ofEnding fun reply => reply.elim [] fun m => line m.text

section

variable {m : Type → Type} [Monad m]

def Command.run (settings : Settings) (files : Files) (network : Network m) :
    Command → m Outcome
  | .encode version request => return .ofResult line (Inspect.encodeHex request version)
  | .decode text => return .ofResult (fun m => line m.text) (Inspect.decodeHex text.toList)
  | .dump path => return dumpOutcome path (files.capture path)
  | .types => return .done Inspect.table
  | .config =>
    match settings.toToml with
    | .ok text => return .done text
    | .error cause => return .failed [] (.settings cause)
  | .listen bind => return listenOutcome (← network.listen settings bind)
  | .send target wait request =>
    return sendOutcome (← network.send settings target wait (request.message .newest))

def Invocation.run (call : Invocation) (files : Files) (env : Settings.Environment)
    (network : Network m) : m Outcome :=
  match call.settings files env with
  | .ok settings => call.command.run settings files network
  | .error trouble => return .failed [] trouble

end

end HolePunch.CommandLine
