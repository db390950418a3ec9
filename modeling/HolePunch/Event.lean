import HolePunch.Message.Basic

/-!
# Events

What the program reports about its own work while it runs, each with a level, a line of text and
named values.
-/

namespace HolePunch

inductive Level where
  | trace
  | debug
  | info
  | warn
  deriving DecidableEq, Repr

def Level.name : Level → String
  | .trace => "TRACE"
  | .debug => "DEBUG"
  | .info => "INFO"
  | .warn => "WARN"

inductive EventValue where
  | count (n : Nat)
  | text (s : String)
  deriving DecidableEq, Repr

inductive Event where
  | frame (kind : Kind) (bytes : Nat)
  | datagram (kind : Kind) (bytes : Nat)
  | message (kind : Kind) (bytes : Nat)
  | listening (address : SocketAddr)
  | arrived (peer : SocketAddr) (bytes : Nat)
  | received (peer : SocketAddr) (bytes : Nat) (message : Message)
  /-- A datagram was none, and this is what it held. -/
  | rejected (peer : SocketAddr) (raw : Bytes) (error : ProtocolError)
  | idle (received : Nat)
  | sent (target : SocketAddr) (bytes : Nat) (message : Message)

structure Event.Record where
  level : Level
  text : String
  values : List (String × EventValue)
  deriving DecidableEq, Repr

namespace Event

def socketValue (addr : SocketAddr) : EventValue := .text (String.ofList addr.text)

/-- A socket address that may be missing, as a recorded value. -/
def addressValue (e : Endpoint) : EventValue :=
  match e.socketAddr? with
  | some addr => .text s!"Some({String.ofList addr.text})"
  | none => .text "None"

def bodyValues : Body → List (String × EventValue)
  | .idReq => []
  | .assId cid | .sReq cid | .sReqTcp cid =>
    [("session", .text s!"Some(SessionId({cid.number.toNat}))")]
  | .cReq addr => [("punch", addressValue addr)]
  | .cReqTcp source destination =>
    [("source", addressValue source), ("destination", addressValue destination)]

def receivedText (m : Message) : String :=
  match m.body with
  | .idReq => String.ofList m.text ++ " (session ID requested)"
  | _ => String.ofList m.text

def decodedRecord (what : String) (kind : Kind) (bytes : Nat) : Record :=
  ⟨.trace, "decoded puncher " ++ what, [("message_type", .text kind.name), ("bytes", .count bytes)]⟩

/-- The level, the line and the values of an event. -/
def record : Event → Record
  | .frame kind bytes => decodedRecord "frame" kind bytes
  | .datagram kind bytes => decodedRecord "datagram" kind bytes
  | .message kind bytes => decodedRecord "message" kind bytes
  | .listening address =>
    ⟨.info, "Listening for puncher messages on " ++ String.ofList address.text, []⟩
  | .arrived peer bytes =>
    ⟨.debug, "datagram received", [("peer", socketValue peer), ("bytes", .count bytes)]⟩
  | .received peer bytes m =>
    ⟨.info, receivedText m,
      ("peer", socketValue peer) :: ("bytes", .count bytes) :: bodyValues m.body⟩
  | .rejected peer raw error =>
    ⟨.warn, error.message,
      [("peer", socketValue peer), ("bytes", .count raw.length),
        ("raw", .text (String.ofList (raw.flatMap Text.hexByte)))]⟩
  | .idle total =>
    ⟨.info, "No datagram within read timeout, stopping", [("received", .count total)]⟩
  | .sent target bytes m =>
    ⟨.info, "sent " ++ String.ofList m.text,
      [("target", socketValue target), ("bytes", .count bytes)]⟩

def valueText : EventValue → String
  | .count n => toString n
  | .text s => s

/-- A record as a line: its level, its text and its values. -/
def Record.line (r : Record) : String :=
  " ".intercalate (r.level.name :: r.text ::
    r.values.map fun (name, value) => name ++ "=" ++ valueText value)

end Event

end HolePunch
