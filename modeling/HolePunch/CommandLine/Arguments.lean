import HolePunch.Address.Parser
import HolePunch.Inspect.Commands

/-!
# Arguments

The arguments of a call have up to three levels: the program, a command, and for two of the commands
the message that they are about. Each level has options, operands and commands of its own. `scan`
reads one level, and `Invocation.ofArguments` the whole call.
-/

namespace HolePunch.CommandLine

inductive Stop where
  | help
  | version
  | misuse
  deriving DecidableEq, Repr

structure Level where
  /-- Options that take a value, without their hyphens, and which values they take. -/
  valued : List (String × (String → Bool))
  /-- Options that take none. -/
  flags : List String
  /-- Which operands there may be, place by place. -/
  operands : List (String → Bool)
  commands : List String
  /-- True if the level knows the version of the program. -/
  tellsVersion : Bool

structure Found where
  values : List (String × String)
  flags : List String
  operands : List String

/-- The name and the value of a long option, without its hyphens. -/
def splitOption (s : List Char) : String × Option String :=
  match s.span (· != '=') with
  | (name, '=' :: value) => (String.ofList name, some (String.ofList value))
  | (name, _) => (String.ofList name, none)

/-- True of an argument that can be the value of the option before it. -/
def isValue (arg : String) : Bool :=
  match arg.toList with
  | ['-'] => true
  | '-' :: _ => false
  | _ => true

/-- Adds the value of an option, which may be given once. -/
def Found.addValue (found : Found) (name value : String) (accepts : String → Bool) :
    Except Stop Found :=
  if accepts value && (found.values.lookup name).isNone then
    .ok { found with values := found.values ++ [(name, value)] }
  else .error .misuse

/-- Adds an option without a value, which may be given once. -/
def Found.addFlag (found : Found) (name : String) : Except Stop Found :=
  if found.flags.contains name then .error .misuse
  else .ok { found with flags := found.flags ++ [name] }

/-- Adds an operand, if there is a place for it that takes it. -/
def Found.addOperand (found : Found) (level : Level) (value : String) : Except Stop Found :=
  if level.operands[found.operands.length]?.any (· value) then
    .ok { found with operands := found.operands ++ [value] }
  else .error .misuse

/-- What a short option asks for; several may stand behind one hyphen, and the first counts. -/
def shortOption (level : Level) : List Char → Stop
  | 'h' :: _ => .help
  | 'V' :: _ => if level.tellsVersion then .version else .misuse
  | _ => .misuse

def longOption (level : Level) (name : String) : Stop :=
  if name = "help" then .help
  else if name = "version" && level.tellsVersion then .version
  else .misuse

/-- Reads the arguments of one level, up to the command that ends it. After `--` there are only
operands. -/
def scan (level : Level) (found : Found) (onlyOperands : Bool) :
    List String → Except Stop (Found × Option (String × List String))
  | [] => .ok (found, none)
  | arg :: rest =>
    if onlyOperands then do
      scan level (← found.addOperand level arg) true rest
    else if level.commands.contains arg then .ok (found, some (arg, rest))
    else
      match arg.toList with
      | ['-', '-'] => scan level found true rest
      | '-' :: '-' :: option =>
        let (name, attached) := splitOption option
        match level.valued.lookup name with
        | some accepts =>
          match attached, rest with
          | some value, rest => do scan level (← found.addValue name value accepts) false rest
          | none, value :: rest =>
            if isValue value then do scan level (← found.addValue name value accepts) false rest
            else .error .misuse
          | none, [] => .error .misuse
        | none =>
          if attached.isSome then .error .misuse
          else if level.flags.contains name then do
            scan level (← found.addFlag name) false rest
          else .error (longOption level name)
      | '-' :: c :: cs => .error (shortOption level (c :: cs))
      | _ => do scan level (← found.addOperand level arg) false rest

def Level.read (level : Level) (args : List String) :
    Except Stop (Found × Option (String × List String)) :=
  scan level ⟨[], [], []⟩ false args

/-! ### Values -/

/-- A value that must be there and be understood. -/
def required {α : Type} : Option α → Except Stop α
  | some a => .ok a
  | none => .error .misuse

/-- A number in decimal, at most so large. -/
def number? (most : Nat) (s : String) : Option Nat := do
  let i ← Text.signed64? s.toList
  if 0 ≤ i ∧ i ≤ most then some i.toNat else none

/-- The path of a file, which has at least one character. -/
def path? (s : String) : Option String := if s.isEmpty then none else some s

def address? (s : String) : Option SocketAddr := SocketAddr.ofText? s.toList

def readable {α : Type} (read : String → Option α) (s : String) : Bool := (read s).isSome

/-- The value of an option, if it is given and understood. -/
def Found.option? {α : Type} (found : Found) (name : String) (read : String → Option α) :
    Option α :=
  (found.values.lookup name).bind read

/-- An operand by its place; it must be there and be understood. -/
def Found.operand {α : Type} (found : Found) (place : Nat) (read : String → Option α) :
    Except Stop α :=
  required (found.operands[place]?.bind read)

/-! ### The whole call -/

inductive Command where
  | encode (version : Version) (request : Request)
  | decode (text : String)
  | dump (path : String)
  | types
  | config
  | listen (bind : Option SocketAddr)
  | send (target : SocketAddr) (wait : Bool) (request : Request)
  deriving Repr

/-- A call: the file with the settings, if one is named, and what to do. -/
structure Invocation where
  config : Option String
  command : Command
  deriving Repr

def configOption : String := "config"

/-- The option that names the file with the settings, and which values it takes. -/
def configValue : String × (String → Bool) := (configOption, readable path?)

/-- A level inside the program, with these options, operands and commands. -/
def innerLevel (valued : List (String × (String → Bool))) (flags : List String)
    (operands : List (String → Bool)) (commands : List String) : Level :=
  ⟨configValue :: valued, flags, operands, commands, false⟩

def commandNames : List String := ["encode", "decode", "dump", "types", "config", "listen", "send"]

/-- The kind of message that the name of a request stands for; there is a long and a short one. -/
def requestKind? : String → Option Kind
  | "id-req" | "idreq" => some .idReq
  | "ass-id" | "assid" => some .assId
  | "s-req" | "sreq" => some .sReq
  | "s-req-tcp" | "sreqtcp" => some .sReqTcp
  | "c-req" | "creq" => some .cReq
  | "c-req-tcp" | "creqtcp" => some .cReqTcp
  | _ => none

def requestNames : List String :=
  ["id-req", "ass-id", "s-req", "s-req-tcp", "c-req", "c-req-tcp"]

def requestAliases : List String := ["idreq", "assid", "sreq", "sreqtcp", "creq", "creqtcp"]

def allRequestNames : List String := requestNames ++ requestAliases

def namesInside : String → List String
  | "encode" | "send" => allRequestNames
  | _ => []

/-- Answers a call for help about commands, each inside the one before; the first is among given
names. -/
def helpAbout {α : Type} (names : List String) : List String → Except Stop α
  | [] => .error .help
  | name :: inside =>
    if names.contains name || (name = "help" && !names.isEmpty) then
      helpAbout (namesInside name) inside
    else .error .misuse

def session? (s : String) : Option UInt32 := (number? (UInt32.size - 1) s).map UInt32.ofNat

def version? (s : String) : Option Version := (number? 255 s).map fun n => ⟨UInt8.ofNat n⟩

def requestOperands : Kind → List (String → Bool)
  | .idReq => []
  | .assId | .sReq | .sReqTcp => [readable session?]
  | .cReq => [readable address?]
  | .cReqTcp => [readable address?, readable address?]

def requestOf (kind : Kind) (found : Found) : Except Stop Request := do
  match kind with
  | .idReq => return .idReq
  | .assId => return .assId (← found.operand 0 session?)
  | .sReq => return .sReq (← found.operand 0 session?)
  | .sReqTcp => return .sReqTcp (← found.operand 0 session?)
  | .cReq => return .cReq (← found.operand 0 address?)
  | .cReqTcp => return .cReqTcp (← found.operand 0 address?) (← found.operand 1 address?)

def readRequest : Option (String × List String) → Except Stop (Option String × Request)
  | none => .error .misuse
  | some (name, args) =>
    if name = "help" then helpAbout allRequestNames args
    else do
      let kind ← required (requestKind? name)
      let (found, _) ← (innerLevel [] [] (requestOperands kind) []).read args
      return (found.option? configOption path?, ← requestOf kind found)

def requestLevel (valued : List (String × (String → Bool))) (flags : List String)
    (operands : List (String → Bool)) : Level :=
  innerLevel valued flags operands ("help" :: allRequestNames)

def readCommand (name : String) (args : List String) : Except Stop (Option String × Command) := do
  match name with
  | "encode" =>
    let (found, next) ← (requestLevel [("protocol-version", readable version?)] [] []).read args
    let (inner, request) ← readRequest next
    let version := (found.option? "protocol-version" version?).getD .newest
    return (inner.or (found.option? configOption path?), .encode version request)
  | "decode" =>
    let (found, _) ← (innerLevel [] [] [fun _ => true] []).read args
    return (found.option? configOption path?, .decode (← found.operand 0 some))
  | "dump" =>
    let (found, _) ← (innerLevel [] [] [readable path?] []).read args
    return (found.option? configOption path?, .dump (← found.operand 0 path?))
  | "types" =>
    let (found, _) ← (innerLevel [] [] [] []).read args
    return (found.option? configOption path?, .types)
  | "config" =>
    let (found, _) ← (innerLevel [] [] [] []).read args
    return (found.option? configOption path?, .config)
  | "listen" =>
    let (found, _) ← (innerLevel [("bind", readable address?)] [] [] []).read args
    return (found.option? configOption path?, .listen (found.option? "bind" address?))
  | "send" =>
    let (found, next) ← (requestLevel [] ["wait"] [readable address?]).read args
    let (inner, request) ← readRequest next
    let target ← found.operand 0 address?
    return (inner.or (found.option? configOption path?),
      .send target (found.flags.contains "wait") request)
  | _ => .error .misuse

def usage : String :=
  "Usage: puncher-dump [--config FILE] COMMAND\n\n" ++
  "Commands:\n" ++
  "  encode [--protocol-version N] MESSAGE  print a message as hex\n" ++
  "  decode HEX                             decode one message in hex\n" ++
  "  dump FILE                              decode every message in a capture\n" ++
  "  types                                  list the types of messages\n" ++
  "  config                                 print the settings\n" ++
  "  listen [--bind ADDR]                   report every message that is received\n" ++
  "  send ADDR [--wait] MESSAGE             send one message\n\n" ++
  "Messages:\n" ++
  "  id-req, ass-id ID, s-req ID, s-req-tcp ID, c-req ADDR, c-req-tcp ADDR ADDR\n"

def programLevel : Level := ⟨[configValue], [], [], "help" :: commandNames, true⟩

/-- The call that the arguments make. The innermost level that names a file with settings wins. -/
def Invocation.ofArguments (args : List String) : Except Stop Invocation := do
  let (found, next) ← programLevel.read args
  match next with
  | none => .error .misuse
  | some (name, rest) =>
    if name = "help" then helpAbout commandNames rest
    else
      let (inner, command) ← readCommand name rest
      return ⟨inner.or (found.option? configOption path?), command⟩

end HolePunch.CommandLine
