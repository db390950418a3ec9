import HolePunch.Event
import HolePunch.Inspect.Failure
import HolePunch.Message.Codec
import HolePunch.ReceiveBuffer
import HolePunch.Settings.Basic

/-!
# Exchanges over UDP

`listen` reports every datagram until nothing comes for too long; a datagram that is no message is
reported and does no harm. All datagrams go through one receive buffer, which cuts them to its size
and is never cleared in between. `send` sends one message, if it can be encoded, and may wait for one
reply, from whoever it comes. What the network does is a parameter.
-/

namespace HolePunch.Exchange

structure Datagram where
  sender : SocketAddr
  bytes : Bytes
  deriving DecidableEq, Repr

/-- What a socket that waits is given. -/
inductive Arrival where
  | datagram (d : Datagram)
  /-- The socket fails, for a reason in words. -/
  | failure (cause : String)
  deriving DecidableEq, Repr

/-- How a command comes to its end. -/
inductive Ending (α : Type) where
  | done (a : α)
  | failed (cause : Failure)
  /-- No receive buffer can be as large as the settings want it. -/
  | crashed
  deriving DecidableEq, Repr

def Ending.ofResult {α : Type} : Except Failure α → Ending α
  | .ok a => .done a
  | .error cause => .failed cause

/-! ### Listening -/

/-- A listener between two datagrams: its buffer, and how many have come. -/
structure Listener where
  buffer : ReceiveBuffer
  received : Nat

def Listener.start? (settings : Settings) : Option Listener :=
  (ReceiveBuffer.zeros? settings.recvBufferSize.toNat).map fun buffer => ⟨buffer, 0⟩

/-- What a turn reports, the listener after it, and what listening comes to if it ends here. -/
structure Turn where
  events : List Event
  listener : Listener
  result : Option (Except Failure Nat)

def inspect (sender : SocketAddr) (raw : Bytes) : Event :=
  match Message.decode raw with
  | .ok m => .received sender raw.length m
  | .error e => .rejected sender raw e

/-- One turn of a listener. A datagram goes into the buffer, and the part that it filled is
inspected; a listener that is given nothing in time stops. -/
def turn (listener : Listener) : Option Arrival → Turn
  | none => ⟨[.idle listener.received], listener, some (.ok listener.received)⟩
  | some (.failure cause) => ⟨[], listener, some (.error (.unreceived cause))⟩
  | some (.datagram d) =>
    let (count, filled) := listener.buffer.receive d.bytes
    ⟨[.arrived d.sender count, inspect d.sender (filled.front count)],
      ⟨filled, listener.received + 1⟩, none⟩

/-- What was reported, and how listening came to its end; without a timeout it may wait on. -/
structure Listening where
  events : List Event
  ending : Option (Ending Nat)

/-- Turns of a listener while something arrives, and then silence. -/
def listenOn (timeout : Option UInt64) (listener : Listener) : List Arrival → Listening
  | [] =>
    if timeout.isSome then
      let last := turn listener none
      ⟨last.events, last.result.map .ofResult⟩
    else ⟨[], none⟩
  | arrival :: later =>
    let now := turn listener (some arrival)
    match now.result with
    | some result => ⟨now.events, some (.ofResult result)⟩
    | none =>
      let rest := listenOn timeout now.listener later
      ⟨now.events ++ rest.events, rest.ending⟩

def bindAddress (settings : Settings) (bind : Option SocketAddr) : SocketAddr :=
  bind.getD settings.bindAddress

/-- What a listener meets at the address that it asks for. -/
inductive Inlet where
  /-- The address cannot be bound, for a reason in words. -/
  | refused (cause : String)
  /-- A socket is bound there, which has this address, and these arrive. -/
  | bound (address : SocketAddr) (arrivals : List Arrival)

def listen (settings : Settings) (bind : Option SocketAddr) : Inlet → Listening
  | .refused cause => ⟨[], some (.failed (.unbound (bindAddress settings bind) cause))⟩
  | .bound address arrivals =>
    match Listener.start? settings with
    | none => ⟨[.listening address], some .crashed⟩
    | some listener =>
      let run := listenOn settings.readTimeoutMs listener arrivals
      ⟨.listening address :: run.events, run.ending⟩

/-! ### Sending -/

/-- What a request meets on its way. -/
inductive Link where
  /-- There is no socket to send from, for a reason in words. -/
  | unbound (cause : String)
  /-- It cannot be sent, for a reason in words. -/
  | broken (cause : String)
  /-- It is sent, and these arrive in time. -/
  | sent (arrivals : List Arrival)

/-- What went out, what the sender makes of what came back, and what is reported. -/
structure Sending where
  request : Option Bytes
  ending : Ending (Option Message)
  events : List Event

/-- The time to wait for a reply in milliseconds, if the settings give none. -/
def standardWaitMs : Nat := 5000

def waitMs (settings : Settings) : Nat :=
  (settings.readTimeoutMs.map UInt64.toNat).getD standardWaitMs

/-- The message that the first reply is, and what is reported about it. A reply is taken from anyone,
and a bad one is held against its sender. -/
def awaitReply (settings : Settings) (target : SocketAddr) (buffer : ReceiveBuffer) :
    List Arrival → Except Failure (Option Message) × List Event
  | [] => (.error (.noReply target (waitMs settings)), [])
  | .failure cause :: _ => (.error (.unreceived cause), [])
  | .datagram d :: _ =>
    let (count, filled) := buffer.receive d.bytes
    let arrived := Event.arrived d.sender count
    match Message.decode (filled.front count) with
    | .ok m => (.ok (some m), [arrived, .received d.sender count m])
    | .error e => (.error (.badReply d.sender e), [arrived])

/-- Sends a message to a target, and waits for a reply if asked to. -/
def send (settings : Settings) (target : SocketAddr) (m : Message) (wait : Bool) (link : Link) :
    Sending :=
  match m.encode with
  | .error e => ⟨none, .failed (.unencodable m.kind e), []⟩
  | .ok bytes =>
    match link with
    | .unbound cause => ⟨none, .failed (.unboundLocal cause), []⟩
    | .broken cause => ⟨none, .failed (.unsent target cause), []⟩
    | .sent arrivals =>
      let sent := Event.sent target bytes.length m
      if wait then
        match ReceiveBuffer.zeros? settings.recvBufferSize.toNat with
        | none => ⟨some bytes, .crashed, [sent]⟩
        | some buffer =>
          let (result, events) := awaitReply settings target buffer arrivals
          ⟨some bytes, .ofResult result, sent :: events⟩
      else
        ⟨some bytes, .done none, [sent]⟩

end HolePunch.Exchange
