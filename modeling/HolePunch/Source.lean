import HolePunch.Event
import HolePunch.Message.Codec

/-!
# Sources of bytes

A source hands out its deliveries one read at a time. `readMessage` makes exactly one read, of the
size of the longest message, and decodes what it gave; a message that does not arrive in one read
is not put together from several.
-/

namespace HolePunch

inductive Delivery where
  /-- Bytes that arrive together. -/
  | bytes (bytes : Bytes)
  /-- A read that fails, with the words for it. -/
  | failure (text : String)
  deriving DecidableEq, Repr

def Delivery.length : Delivery → Nat
  | .bytes arrived => arrived.length
  | .failure _ => 0

/-- What a source will deliver, in order; after that every read gives no bytes. -/
abbrev Source := List Delivery

namespace Source

/-- One read of at most `window` bytes: as much of the next delivery as fits. -/
def read (window : Nat) : Source → Except String Bytes × Source
  | [] => (.ok [], [])
  | .failure text :: later => (.error text, later)
  | .bytes bytes :: later =>
    if bytes.length ≤ window then
      (.ok bytes, later)
    else
      (.ok (bytes.take window), .bytes (bytes.drop window) :: later)

theorem read_bytes (window : Nat) (bytes : Bytes) (later : Source) :
    read window (.bytes bytes :: later) =
      (.ok (bytes.take window),
        if bytes.length ≤ window then later else .bytes (bytes.drop window) :: later) := by
  by_cases fits : bytes.length ≤ window
  · simp [read, fits, List.take_of_length_le]
  · simp [read, fits]

def unread : Source → Nat
  | [] => 0
  | delivery :: later => delivery.length + unread later

/-- Every read makes the source smaller by this measure, unless it is empty. -/
def size (source : Source) : Nat := source.unread + source.length

theorem size_read_lt (source : Source) {window : Nat} (room : 0 < window) (more : source ≠ []) :
    (source.read window).2.size < source.size := by
  match source with
  | [] => exact absurd rfl more
  | .failure text :: later => simp [read, size, unread, Delivery.length]
  | .bytes bytes :: later =>
    by_cases fits : bytes.length ≤ window
    · simp [read, fits, size, unread, Delivery.length]; omega
    · simp [read, fits, size, unread, Delivery.length]; omega

structure Answer where
  result : Except ReadError Message
  source : Source
  events : List Event

def decodeRead (bytes : Bytes) (source : Source) : Answer :=
  match Message.decode bytes with
  | .ok m => ⟨.ok m, source, [.message m.kind bytes.length]⟩
  | .error e => ⟨.error (.protocol e), source, []⟩

@[simp] theorem result_decodeRead (bytes : Bytes) (source : Source) :
    (decodeRead bytes source).result = (Message.decode bytes).mapError .protocol := by
  rw [decodeRead]
  cases Message.decode bytes <;> rfl

@[simp] theorem source_decodeRead (bytes : Bytes) (source : Source) :
    (decodeRead bytes source).source = source := by
  rw [decodeRead]
  cases Message.decode bytes <;> rfl

def readMessage (source : Source) : Answer :=
  match source.read maxPacketSize with
  | (.ok bytes, later) => decodeRead bytes later
  | (.error text, later) => ⟨.error (.failed text), later, []⟩

/-- Reads so many messages, one after the other, whatever became of the ones before. -/
def readMessages (source : Source) : (count : Nat) → List Answer
  | 0 => []
  | count + 1 =>
    let answer := source.readMessage
    answer :: answer.source.readMessages count

end Source

end HolePunch
