import HolePunch.Frame.Basic
import HolePunch.Source

/-!
# Framed transport

`readAll` turns a source into messages: it decodes all it can before each read, and at the end of
the source it decodes what is left. The first error is the last item. `Sink.sendAll` encodes messages
one by one into a buffer of its own and writes that out after each; one that cannot be encoded is
skipped.
-/

namespace HolePunch.Frame

/-- One step, on a buffer that is or is not at its end. -/
def step (atEnd : Bool) : Mode → Bytes → Step := if atEnd then decodeEof else decode

theorem length_step_lt {atEnd : Bool} {mode : Mode} {buffer : Bytes}
    (h : (step atEnd mode buffer).result.isSome) :
    (step atEnd mode buffer).buffer.length < buffer.length := by
  cases atEnd with
  | true => exact length_decodeEof_lt h
  | false => exact length_decode_lt h

/-- What repeated steps give: messages, the error that ended them, and the buffer that is left. -/
structure Drained where
  messages : List Message
  error : Option ProtocolError
  buffer : Bytes

/-- Steps until one gives nothing or an error. -/
def drain (atEnd : Bool) (mode : Mode) (buffer : Bytes) : Drained :=
  match given : (step atEnd mode buffer).result with
  | none => ⟨[], none, (step atEnd mode buffer).buffer⟩
  | some (.error e) => ⟨[], some e, (step atEnd mode buffer).buffer⟩
  | some (.ok m) =>
    have : (step atEnd mode buffer).buffer.length < buffer.length :=
      length_step_lt (by simp [given])
    let later := drain atEnd mode (step atEnd mode buffer).buffer
    ⟨m :: later.messages, later.error, later.buffer⟩
termination_by buffer.length

def Drained.items (d : Drained) : List (Except ReadError Message) :=
  d.messages.map .ok ++ (d.error.map fun e => .error (.protocol e)).toList

def readWindow : Nat := 8192

/-- The items of a source, the frame buffer at the end, and what was not read. -/
structure Intake where
  items : List (Except ReadError Message)
  buffer : Bytes
  source : Source

/-- Reads a source to its end or to the first error, after what is already in the buffer. -/
def readAll (mode : Mode) (buffer : Bytes) (source : Source) : Intake :=
  match given : source.read readWindow with
  | (.error text, later) => ⟨[.error (.failed text)], buffer, later⟩
  | (.ok [], later) =>
    let last := drain true mode buffer
    ⟨last.items, last.buffer, later⟩
  | (.ok (b :: bs), later) =>
    have : Source.size later < source.size := by
      have room : 0 < readWindow := by decide
      have smaller := source.size_read_lt room (by rintro rfl; simp [Source.read] at given)
      rwa [given] at smaller
    let now := drain false mode (buffer ++ b :: bs)
    match now.error with
    | some _ => ⟨now.items, now.buffer, later⟩
    | none =>
      let rest := readAll mode now.buffer later
      ⟨now.items ++ rest.items, rest.buffer, rest.source⟩
termination_by source.size

/-- The writing end of a transport: what was encoded and is not yet written, and what was written. -/
structure Sink where
  pending : Bytes
  written : Bytes
  deriving DecidableEq, Repr

namespace Sink

/-- Encodes a message behind what is pending and, if that was possible, writes all of it out. -/
def send (sink : Sink) (m : Message) : Except ProtocolError Unit × Sink :=
  match m.encodeTo sink.pending with
  | (.ok (), pending) => (.ok (), ⟨[], sink.written ++ pending⟩)
  | (.error e, pending) => (.error e, ⟨pending, sink.written⟩)

/-- Sends messages one after the other: what each gives, and the sink after it. -/
def sendAll (sink : Sink) : List Message → List (Except ProtocolError Unit × Sink)
  | [] => []
  | m :: ms =>
    let sent := sink.send m
    sent :: sent.2.sendAll ms

end Sink

end HolePunch.Frame
