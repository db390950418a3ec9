import HolePunch.Source

/-!
# Sources that a reader waits for

An asynchronous source is polled. While it has nothing ready the reader waits and polls again, and
the first poll that finds something is its read; `readMessage` decodes what that one read gave.
-/

namespace HolePunch

inductive Poll where
  | pending
  | ready (delivery : Delivery)
  deriving DecidableEq, Repr

/-- What each poll will find, in order; after that every read gives no bytes. -/
abbrev AsyncSource := List Poll

namespace AsyncSource

/-- One awaited read of at most `window` bytes. -/
def read (window : Nat) : AsyncSource → Except String Bytes × AsyncSource
  | [] => (.ok [], [])
  | .pending :: later => read window later
  | .ready delivery :: later =>
    let (result, left) := Source.read window [delivery]
    (result, left.map .ready ++ later)

structure Answer where
  result : Except ReadError Message
  source : AsyncSource
  events : List Event

def readMessage (source : AsyncSource) : Answer :=
  match source.read maxPacketSize with
  | (.ok bytes, later) =>
    let decoded := Source.decodeRead bytes []
    ⟨decoded.result, later, decoded.events⟩
  | (.error text, later) => ⟨.error (.failed text), later, []⟩

def readMessages (source : AsyncSource) : (count : Nat) → List Answer
  | 0 => []
  | count + 1 =>
    let answer := source.readMessage
    answer :: answer.source.readMessages count

/-- The deliveries alone, without the waiting. -/
def deliveries (source : AsyncSource) : Source :=
  source.filterMap fun
    | .pending => none
    | .ready delivery => some delivery

/-- The answer of a reader that did not have to wait. -/
def Answer.settled (answer : Answer) : Source.Answer :=
  ⟨answer.result, answer.source.deliveries, answer.events⟩

end AsyncSource

end HolePunch
