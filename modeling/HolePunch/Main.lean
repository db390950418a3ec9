import HolePunch.CommandLine.Run
import Std.Async.UDP
import Std.Async.Timer
import Std.Internal.UV.System

/-!
# The program

Arguments, environment, files and sockets on one side, a run of the command line on the other.
-/

namespace HolePunch.Program

open HolePunch.CommandLine
open Std.Async
open Std.Net

/-! ### Files -/

/-- What reading a capture delivers, or why it cannot be opened. -/
def readCapture (path : String) : IO (Except String Source) := do
  try
    let bytes ← IO.FS.readBinFile path
    return .ok [.bytes bytes.toList]
  catch e =>
    return .error (toString e)

/-- The text of a file, if it is there and is text. -/
def readText (path : String) : IO (Option (List Char)) := do
  try
    let text ← IO.FS.readFile path
    return some text.toList
  catch _ =>
    return none

def gatherFiles (call : Invocation) : IO Files := do
  let paths := call.config.toList.flatMap fun path => [path, path ++ ".toml"]
  let texts ← paths.mapM fun path => return (path, ← readText path)
  let captures ← match call.command with
    | .dump path => do pure [(path, ← readCapture path)]
    | _ => pure []
  return ⟨fun path => (texts.lookup path).join,
    fun path => (captures.lookup path).getD (.error "not read")⟩

/-! ### Sockets -/

def systemAddress : SocketAddr → SocketAddress
  | .v4 ip port => .v4 ⟨⟨#v[ip.a, ip.b, ip.c, ip.d]⟩, port⟩
  | .v6 ip port _ =>
    match ip.groups with
    | [a, b, c, d, e, f, g, h] => .v6 ⟨.ofParts a b c d e f g h, port⟩
    | _ => .v6 ⟨.ofParts 0 0 0 0 0 0 0 0, port⟩

/-- An address of the system; what is no IPv6 address does not occur. -/
def ofSystemAddress : SocketAddress → SocketAddr
  | .v4 ⟨⟨octets⟩, port⟩ =>
    let octet (place : Nat) : UInt8 := octets.toList.getD place 0
    .v4 ⟨octet 0, octet 1, octet 2, octet 3⟩ port
  | .v6 ⟨⟨segments⟩, port⟩ =>
    .v6 ((Ipv6.ofGroups? segments.toList).getD .unspecified) port 0

/-- Where to send from: any address of the target's kind. -/
def localAddress : SocketAddr → SocketAddress
  | .v4 .. => .v4 ⟨⟨#v[0, 0, 0, 0]⟩, 0⟩
  | .v6 .. => .v6 ⟨.ofParts 0 0 0 0 0 0 0 0, 0⟩

def openSocket (address : SocketAddress) : IO UDP.Socket := do
  let socket ← UDP.Socket.mk
  socket.bind address
  return socket

def largestDatagram : UInt64 := 65536

def arrival : ByteArray × Option SocketAddress → Exchange.Arrival
  | (bytes, some sender) => .datagram ⟨ofSystemAddress sender, bytes.toList⟩
  | (_, none) => .failure "a datagram without a sender"

/-- What arrives next, unless nothing does for so many milliseconds. -/
def receive (socket : UDP.Socket) (waitMs : Option Nat) : IO (Option Exchange.Arrival) := do
  let waiting : Async (Option Exchange.Arrival) :=
    match waitMs with
    | none => return some (arrival (← socket.recv largestDatagram))
    | some ms => do
      Selectable.one #[
        .case (socket.recvSelector largestDatagram) fun given => pure (some (arrival given)),
        .case (← Selector.sleep (.ofNat ms)) fun _ => pure none]
  try
    waiting.block
  catch e =>
    return some (.failure (toString e))

def report (events : List Event) : IO Unit :=
  events.forM fun event => IO.eprintln event.record.line

/-- Turns of a listener, up to its last one. -/
partial def hearAll (settings : Settings) (socket : UDP.Socket) (listener : Exchange.Listener) :
    IO (Except Failure Nat) := do
  let timeout := settings.readTimeoutMs.map UInt64.toNat
  let turned := Exchange.turn listener (← receive socket timeout)
  report turned.events
  match turned.result with
  | some result => return result
  | none => hearAll settings socket turned.listener

def listen (settings : Settings) (bind : Option SocketAddr) : IO (Exchange.Ending Nat) := do
  let address := Exchange.bindAddress settings bind
  match ← (openSocket (systemAddress address)).toBaseIO with
  | .error e => return .failed (.unbound address (toString e))
  | .ok socket =>
    report [.listening (ofSystemAddress (← socket.getSockName))]
    match Exchange.Listener.start? settings with
    | none => return .crashed
    | some listener => return .ofResult (← hearAll settings socket listener)

/-- Delivers a message to a target, and waits for an answer if asked to. -/
def deliver (settings : Settings) (target : SocketAddr) (bytes : Bytes) (wait : Bool) :
    IO Exchange.Link := do
  match ← (openSocket (localAddress target)).toBaseIO with
  | .error e => return .unbound (toString e)
  | .ok socket =>
    let delivery := socket.send ⟨bytes.toArray⟩ (some (systemAddress target))
    match ← delivery.block.toBaseIO with
    | .error e => return .broken (toString e)
    | .ok _ =>
      if wait && (ReceiveBuffer.zeros? settings.recvBufferSize.toNat).isSome then
        return .sent (← receive socket (some (Exchange.waitMs settings))).toList
      else
        return .sent []

def send (settings : Settings) (target : SocketAddr) (wait : Bool) (message : Message) :
    IO (Exchange.Ending (Option Message)) := do
  let link ← match message.encode with
    | .ok bytes => deliver settings target bytes wait
    | .error _ => pure (.sent [])
  let sending := Exchange.send settings target message wait link
  report sending.events
  return sending.ending

/-! ### Calls -/

def run (call : Invocation) : IO Outcome := do
  let files ← gatherFiles call
  let env ← Std.Internal.UV.System.osEnviron
  call.run files env.toList ⟨listen, send⟩

def printTrouble (trouble : Trouble) : IO Unit := do
  match trouble.message? with
  | some message => IO.eprintln s!"Error: {message}"
  | none => IO.eprintln "capacity overflow"
  if !trouble.causes.isEmpty then
    IO.eprintln "\nCaused by:"
    trouble.causes.forM fun cause => IO.eprintln s!"    {cause}"

def answerStop : Stop → IO Unit
  | .help => IO.print usage
  | .version => IO.println versionLine
  | .misuse => IO.eprint usage

end HolePunch.Program

open HolePunch in
/-- Runs the command line, and exits with its status. -/
def main (args : List String) : IO UInt32 := do
  match CommandLine.Invocation.ofArguments args with
  | .error stop =>
    Program.answerStop stop
    return stop.status.toUInt32
  | .ok call =>
    let outcome ← Program.run call
    IO.print (String.ofList outcome.output)
    outcome.trouble.forM Program.printTrouble
    return outcome.status.toUInt32
