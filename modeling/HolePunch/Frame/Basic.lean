import HolePunch.Event
import HolePunch.Message.Codec

/-!
# Framing

Messages carry no length: the size follows from the tag. In a stream the tag in front of the buffer
decides how many bytes to wait for, and an unknown tag empties the buffer because the boundaries are
lost. A datagram is one message, and what follows it is dropped.

`decode` and `decodeEof` make one step on a buffer. `length_decode_lt` and `length_decodeEof_lt` say
that a step which gives a message or an error takes bytes away, so that repeated steps come to an
end.
-/

namespace HolePunch.Frame

inductive Mode where
  /-- One after the other, perhaps cut anywhere. -/
  | stream
  /-- One in each filling of the buffer. -/
  | datagram
  deriving DecidableEq, Repr

/-- A step: the message or the error that it gives, if any, the buffer that it leaves, and what it
reports. -/
structure Step where
  result : Option (Except ProtocolError Message)
  buffer : Bytes
  events : List Event

def Step.wait (buffer : Bytes) : Step := ⟨none, buffer, []⟩

/-- The step that decodes `bytes` and leaves `rest`, reporting a message by `event`. -/
def Step.take (bytes rest : Bytes) (event : Kind → Event) : Step :=
  match Message.decode bytes with
  | .ok m => ⟨some (.ok m), rest, [event m.kind]⟩
  | .error e => ⟨some (.error e), rest, []⟩

def decodeStream (buffer : Bytes) : Step :=
  match buffer with
  | tag :: _ :: _ =>
    match Kind.lookup tag with
    | .error e => ⟨some (.error e), [], []⟩
    | .ok kind =>
      if buffer.length < kind.size then
        .wait buffer
      else
        .take (buffer.take kind.size) (buffer.drop kind.size) (.frame · kind.size)
  | _ => .wait buffer

def decodeDatagram (buffer : Bytes) : Step :=
  if buffer.isEmpty then .wait buffer else .take buffer [] (.datagram · buffer.length)

/-- One step on a buffer that may still grow. -/
def decode : Mode → Bytes → Step
  | .stream => decodeStream
  | .datagram => decodeDatagram

/-- The step that makes a message or an error of everything that is left. -/
def decodeLeftover (buffer : Bytes) : Step := ⟨some (Message.decode buffer), [], []⟩

/-- One step on a buffer that will not grow: a part of a message becomes an error. -/
def decodeEof (mode : Mode) (buffer : Bytes) : Step :=
  let step := decode mode buffer
  if step.result.isSome || step.buffer.isEmpty then step else decodeLeftover step.buffer

theorem decodeDatagram_of_ne_nil {d : Bytes} (more : d ≠ []) :
    decodeDatagram d = .take d [] (.datagram · d.length) := by
  have filled : ¬d.isEmpty = true := fun empty => more (List.isEmpty_iff.mp empty)
  rw [decodeDatagram, if_neg filled]

theorem decodeEof_of_some {mode : Mode} {buffer : Bytes} {item : Except ProtocolError Message}
    (given : (decode mode buffer).result = some item) :
    decodeEof mode buffer = decode mode buffer := by
  simp only [decodeEof, given, Option.isSome_some, Bool.true_or, if_true]

theorem decodeEof_of_none {mode : Mode} {buffer : Bytes}
    (waits : (decode mode buffer).result = none) (more : (decode mode buffer).buffer ≠ []) :
    decodeEof mode buffer = decodeLeftover (decode mode buffer).buffer := by
  have left : (decode mode buffer).buffer.isEmpty = false := List.isEmpty_eq_false_iff.mpr more
  simp only [decodeEof, waits, left, Option.isSome_none, Bool.or_self, Bool.false_eq_true, if_false]

/-! ### Steps shorten the buffer -/

@[simp] theorem buffer_take (bytes rest : Bytes) (event : Kind → Event) :
    (Step.take bytes rest event).buffer = rest := by
  unfold Step.take; split <;> rfl

@[simp] theorem result_take (bytes rest : Bytes) (event : Kind → Event) :
    (Step.take bytes rest event).result = some (Message.decode bytes) := by
  unfold Step.take; split <;> simp [*]

theorem length_decodeStream_lt {buffer : Bytes} (h : (decodeStream buffer).result.isSome) :
    (decodeStream buffer).buffer.length < buffer.length := by
  unfold decodeStream at h ⊢
  split
  · split
    · simp
    · rename_i kind _
      have := kind.headerSize_le_size
      split
      · simp_all [Step.wait]
      · simp only [buffer_take, List.length_drop, headerSize] at *
        omega
  · simp_all [Step.wait]

theorem length_decode_lt {mode : Mode} {buffer : Bytes} (h : (decode mode buffer).result.isSome) :
    (decode mode buffer).buffer.length < buffer.length := by
  cases mode with
  | stream => exact length_decodeStream_lt h
  | datagram =>
    cases buffer with
    | nil => simp [decode, decodeDatagram, Step.wait] at h
    | cons b bs => simp [decode, decodeDatagram]

theorem length_decodeEof_lt {mode : Mode} {buffer : Bytes}
    (h : (decodeEof mode buffer).result.isSome) :
    (decodeEof mode buffer).buffer.length < buffer.length := by
  unfold decodeEof at h ⊢
  by_cases some : (decode mode buffer).result.isSome
  · simp only [some, Bool.true_or, if_true]
    exact length_decode_lt some
  · cases buffer with
    | nil => cases mode <;> simp_all [decode, decodeStream, decodeDatagram, Step.wait]
    | cons b bs =>
      by_cases empty : (decode mode (b :: bs)).buffer.isEmpty
      · simp_all
      · simp [some, empty, decodeLeftover]

end HolePunch.Frame
