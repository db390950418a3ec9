import HolePunch.Frame.Session
import HolePunch.Proofs.Message.WireForm

/-!
# Writing messages to one buffer

Calls that encode messages at the end of one buffer leave there what was in it and the wire forms of
the messages that can be encoded, in order; a call that fails leaves nothing behind
(`runCalls_exact`). So a transport, which writes its buffer out after each message, never writes a
part of one.
-/

namespace HolePunch.Frame

/-- The ways to encode a message at the end of a buffer: by itself, which is by the encoder of its
kind, or by the codec of a mode. -/
inductive Encoder where
  | plain
  | codec (mode : Mode)

/-- One call: what it gives, and the buffer after it. -/
def Encoder.call : Encoder → Message → Bytes → Except ProtocolError Unit × Bytes
  | .plain, m, buffer => m.encodeTo buffer
  | .codec mode, m, buffer =>
    match perform mode buffer (.encode m) with
    | ⟨.refused e, now, _⟩ => (.error e, now)
    | ⟨_, now, _⟩ => (.ok (), now)

/-- Calls one after the other on one buffer. -/
def runCalls (buffer : Bytes) : List (Encoder × Message) → List (Except ProtocolError Unit × Bytes)
  | [] => []
  | (encoder, m) :: later =>
    let outcome := encoder.call m buffer
    outcome :: runCalls outcome.2 later

/-- The buffer after the calls. -/
def bufferAfterCalls (buffer : Bytes) (calls : List (Encoder × Message)) : Bytes :=
  calls.foldl (fun now (encoder, m) => (encoder.call m now).2) buffer

/-- The wire forms of the messages that can be encoded, one after the other. -/
def wireForms (ms : List Message) : Bytes :=
  (ms.filter fun m => decide m.IsSet).flatMap Message.wireForm

variable {m : Message} (buffer : Bytes)

/-! ### One call -/

theorem encodeTo_of_set (set : m.IsSet) : m.encodeTo buffer = (.ok (), buffer ++ m.wireForm) := by
  rw [m.encodeTo_eq, Message.unset?_eq_none_iff.mpr set]

theorem encodeTo_of_unset {field : String} {e : Endpoint} (first : m.body.unset? = some (field, e)) :
    m.encodeTo buffer = (.error (.unsetAddress m.kind field), buffer) := by
  rw [m.encodeTo_eq, first]

theorem call_eq_encodeTo (encoder : Encoder) : encoder.call m buffer = m.encodeTo buffer := by
  cases encoder with
  | plain => rfl
  | codec mode =>
    rw [Encoder.call, perform]
    obtain ⟨result, now⟩ := m.encodeTo buffer
    cases result <;> rfl

/-! ### What a call adds to a buffer -/

theorem wireForms_append (ms ns : List Message) :
    wireForms (ms ++ ns) = wireForms ms ++ wireForms ns := by
  simp only [wireForms, List.filter_append, List.flatMap_append]

theorem wireForms_of_set (set : m.IsSet) : wireForms [m] = m.wireForm := by simp [wireForms, set]

theorem wireForms_of_unset (unset : ¬m.IsSet) : wireForms [m] = [] := by simp [wireForms, unset]

theorem buffer_encodeTo (m : Message) : (m.encodeTo buffer).2 = buffer ++ wireForms [m] := by
  by_cases set : m.IsSet
  · rw [encodeTo_of_set buffer set, wireForms_of_set set]
  · obtain ⟨_, first⟩ := Message.exists_unset set
    rw [encodeTo_of_unset buffer first, wireForms_of_unset set, List.append_nil]

theorem append_wireForms_cons (m : Message) (ms : List Message) :
    buffer ++ wireForms [m] ++ wireForms ms = buffer ++ wireForms (m :: ms) := by
  rw [List.append_assoc, ← wireForms_append]
  rfl

/-! ### Calls one after the other -/

theorem runCalls_eq (calls : List (Encoder × Message)) :
    runCalls buffer calls =
      calls.mapIdx fun i (encoder, m) =>
        encoder.call m (buffer ++ wireForms ((calls.take i).map (·.2))) := by
  induction calls generalizing buffer with
  | nil => rfl
  | cons call later ih =>
    obtain ⟨encoder, m⟩ := call
    have empty : buffer ++ wireForms [] = buffer := List.append_nil buffer
    rw [runCalls, ih, call_eq_encodeTo, buffer_encodeTo, List.mapIdx_cons]
    simp only [append_wireForms_cons, List.take_zero, List.map_nil, empty, call_eq_encodeTo,
      List.take_succ_cons, List.map_cons]

theorem bufferAfterCalls_eq (calls : List (Encoder × Message)) :
    bufferAfterCalls buffer calls = buffer ++ wireForms (calls.map (·.2)) := by
  induction calls generalizing buffer with
  | nil => exact (List.append_nil buffer).symm
  | cons call later ih =>
    obtain ⟨encoder, m⟩ := call
    have step : bufferAfterCalls buffer ((encoder, m) :: later) =
        bufferAfterCalls (encoder.call m buffer).2 later := rfl
    rw [step, ih, call_eq_encodeTo, buffer_encodeTo, append_wireForms_cons]
    rfl

/-! ### Transports -/

/-- A message is written as a whole or not at all, and nothing stays behind for the next one. -/
theorem send_eq (written : Bytes) (m : Message) :
    Sink.send ⟨[], written⟩ m = ((m.encodeTo []).1, ⟨[], written ++ wireForms [m]⟩) := by
  by_cases set : m.IsSet
  · simp only [Sink.send, encodeTo_of_set [] set, wireForms_of_set set, List.nil_append]
  · obtain ⟨_, first⟩ := Message.exists_unset set
    simp only [Sink.send, encodeTo_of_unset [] first, wireForms_of_unset set, List.append_nil]

theorem sendAll_eq (written : Bytes) (ms : List Message) :
    Sink.sendAll ⟨[], written⟩ ms =
      ms.mapIdx fun i m => ((m.encodeTo []).1, ⟨[], written ++ wireForms (ms.take (i + 1))⟩) := by
  induction ms generalizing written with
  | nil => rfl
  | cons m ms ih =>
    rw [Sink.sendAll, send_eq, ih, List.mapIdx_cons]
    simp only [append_wireForms_cons, List.take_succ_cons, List.take_zero]

/-- A call fails exactly when an endpoint has no address. It then names the first such endpoint and
leaves the buffer, and otherwise it appends the wire form. So calls in any mixture, and a transport
after each message, have left the wire forms of the messages that can be encoded, in order. -/
theorem runCalls_exact (start : Bytes) (calls : List (Encoder × Message)) :
    let ms := calls.map (·.2)
    (∀ (encoder : Encoder) (m : Message) (buffer : Bytes),
      (m.IsSet → encoder.call m buffer = (.ok (), buffer ++ m.wireForm) ∧
        m.wireForm.length = m.size) ∧
      (¬m.IsSet → ∃ field e, m.body.unset? = some (field, e) ∧
        let error := ProtocolError.unsetAddress m.kind field
        encoder.call m buffer = (.error error, buffer) ∧ error.isEncodeError = true)) ∧
    runCalls start calls = calls.mapIdx (fun i (encoder, m) =>
      encoder.call m (start ++ wireForms (ms.take i))) ∧
    bufferAfterCalls start calls = start ++ wireForms ms ∧
    Sink.sendAll ⟨[], start⟩ ms = ms.mapIdx fun i m =>
      ((m.encodeTo []).1, ⟨[], start ++ wireForms (ms.take (i + 1))⟩) := by
  intro ms
  refine ⟨?_, ?_, bufferAfterCalls_eq start calls, sendAll_eq start ms⟩
  · intro encoder m buffer
    rw [call_eq_encodeTo]
    constructor
    · intro set
      exact ⟨encodeTo_of_set buffer set, Message.length_wireForm set⟩
    · intro unset
      obtain ⟨⟨field, e⟩, first⟩ := Message.exists_unset unset
      exact ⟨field, e, first, encodeTo_of_unset buffer first, rfl⟩
  · rw [runCalls_eq]
    simp only [ms, List.map_take]

end HolePunch.Frame
