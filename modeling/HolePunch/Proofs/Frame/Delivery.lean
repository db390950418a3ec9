import HolePunch.Proofs.Frame.Chunking
import HolePunch.Proofs.Message.Sequence

/-!
# Messages over a stream

Messages that were written to a stream come out of it in order, each as an equal message or, if it
has another version, as a refusal in its place. `performAll_agree` says that it does not matter when
the receiver decodes, and `exhaust_encodeAll` what decoding gives in the end.
-/

namespace HolePunch.Frame

open Message (encodeAll encodeAll_cons_eq_ok_iff exists_encodeAll)

/-! ### Sessions -/

/-- The buffer that actions leave. -/
def bufferAfter (mode : Mode) (buffer : Bytes) : List Action → Bytes
  | [] => buffer
  | action :: later => bufferAfter mode (perform mode buffer action).buffer later

def Yield.item? : Yield → Option (Except ProtocolError Message)
  | .message m => some (.ok m)
  | .refused e => some (.error e)
  | .nothing | .encoded => none

/-- The messages and errors that actions give, in order. -/
def items (effects : List Effect) : List (Except ProtocolError Message) :=
  effects.filterMap (·.yield.item?)

/-- Actions that feed a stream in chunks and decode any number of times in between. -/
inductive Receives : List Action → Bytes → Prop where
  | nil : Receives [] []
  | feed {later : List Action} {stream : Bytes} (chunk : Bytes) (rest : Receives later stream) :
      Receives (.feed chunk :: later) (chunk ++ stream)
  | decode {later : List Action} {stream : Bytes} (rest : Receives later stream) :
      Receives (.decode :: later) stream

theorem item?_ofStep (result : Option (Except ProtocolError Message)) :
    (Yield.ofStep result).item? = result := by
  match result with
  | none => rfl
  | some (.ok _) => rfl
  | some (.error _) => rfl

theorem items_decode (buffer : Bytes) (later : List Action) :
    items (performAll .stream buffer (.decode :: later)) =
      (decodeStream buffer).result.toList ++
        items (performAll .stream (decodeStream buffer).buffer later) := by
  have first : (perform .stream buffer .decode).yield.item? = (decodeStream buffer).result :=
    item?_ofStep _
  rw [performAll, items, List.filterMap_cons, first]
  cases (decodeStream buffer).result <;> rfl

/-- Whatever a receiver decodes before the stream is complete, and then decodes of what is left,
agrees with exhausting the whole stream. -/
theorem performAll_agree {actions : List Action} {stream : Bytes}
    (receives : Receives actions stream) (buffer : Bytes) :
    let left := exhaust false .stream (bufferAfter .stream buffer actions)
    Agree (exhaust false .stream (buffer ++ stream))
      ⟨items (performAll .stream buffer actions) ++ left.items, left.buffer⟩ := by
  induction receives generalizing buffer with
  | nil =>
    rw [List.append_nil]
    exact .refl _
  | @feed later stream chunk rest ih =>
    rw [← List.append_assoc]
    exact ih (buffer ++ chunk)
  | @decode later stream rest ih =>
    have allowed := decodeStream_step buffer
    have step : bufferAfter .stream buffer (.decode :: later) =
        bufferAfter .stream (decodeStream buffer).buffer later := rfl
    rw [items_decode, step]
    have tail := ih (decodeStream buffer).buffer
    cases given : (decodeStream buffer).result with
    | none =>
      rw [allowed.buffer_of_result_none given] at tail ⊢
      exact tail
    | some item => exact (exhaust_append_of_some given stream).trans (tail.cons item)

/-! ### What a written message comes out as -/

/-- What a message comes out of a stream as: itself in the wide form, or a refusal. -/
def heard (m : Message) : Except ProtocolError Message :=
  if m.version = .newest then .ok m.wide else .error (.unsupportedVersion m.version.byte)

/-- A result stands for a message: an equal message if its version is spoken, and otherwise a
refusal of its version. -/
def StandsFor (m : Message) : Except ProtocolError Message → Prop
  | .ok read => m.version.byte = 1 ∧ (read == m) = true
  | .error e => m.version.byte ≠ 1 ∧ e = .unsupportedVersion m.version.byte

theorem standsFor_heard (m : Message) : StandsFor m (heard m) := by
  unfold heard
  split
  · next spoken => exact ⟨congrArg Version.byte spoken, Message.beq_iff_wide.mpr m.wide_wide⟩
  · next other => exact ⟨fun one => other (congrArg Version.mk one), rfl⟩

theorem losesBoundary_heard (m : Message) : losesBoundary (heard m) = false := by
  unfold heard
  split <;> rfl

variable {m : Message} {ms : List Message} {written : Bytes}

/-- Whatever its version, a written message is taken off the front of a buffer as a whole. -/
theorem decodeStream_encode (given : m.encode = .ok written) (rest : Bytes) :
    (decodeStream (written ++ rest)).result = some (heard m) ∧
      (decodeStream (written ++ rest)).buffer = rest := by
  have length := Message.length_encode given
  by_cases spoken : m.version = .newest
  · have step := (StreamStep.message (Message.spelled_encode spoken given rest)).eq
    rw [step, heard, if_pos spoken]
    exact ⟨rfl, by rw [Message.size_wide, ← length]; exact List.drop_left⟩
  · obtain ⟨body, -, rfl⟩ := Message.encode_eq_ok_iff.mp given
    have other : m.version.byte ≠ 1 := fun one => spoken (congrArg Version.mk one)
    have whole : m.kind.size ≤ ([m.kind.tag, m.version.byte] ++ body ++ rest).length := by
      rw [List.length_append, length]
      exact Nat.le_add_right _ _
    have head : ([m.kind.tag, m.version.byte] ++ body ++ rest).take headerSize =
        [m.kind.tag, m.version.byte] := rfl
    have step := (StreamStep.refused head whole other).eq
    rw [step, heard, if_neg spoken]
    exact ⟨rfl, List.drop_left' length⟩

theorem exhaust_encodeAll (given : encodeAll ms = .ok written) :
    exhaust false .stream written = ⟨ms.map heard, []⟩ := by
  induction ms generalizing written with
  | nil =>
    cases given
    exact exhaust_of_none rfl
  | cons m ms ih =>
    obtain ⟨first, isFirst, later, isLater, rfl⟩ := encodeAll_cons_eq_ok_iff.mp given
    obtain ⟨result, buffer⟩ := decodeStream_encode isFirst later
    rw [exhaust_of_some result, buffer, ih isLater]
    rfl

theorem eq_of_agree_encodeAll {run : Exhausted} (given : encodeAll ms = .ok written)
    (agree : Agree (exhaust false .stream written) run) : run = ⟨ms.map heard, []⟩ := by
  rw [exhaust_encodeAll given] at agree
  refine (agree.eq_of_kept ?_).symm
  intro item member
  obtain ⟨m, -, rfl⟩ := List.mem_map.mp member
  exact losesBoundary_heard m

theorem forall₂_heard (ms : List Message) : List.Forall₂ StandsFor ms (ms.map heard) := by
  rw [List.forall₂_map_right_iff, List.forall₂_same]
  intro m _
  exact standsFor_heard m

/-! ### Writing to a stream -/

theorem perform_encode (mode : Mode) (buffer : Bytes) (given : m.encode = .ok written) :
    perform mode buffer (.encode m) = ⟨.encoded, buffer ++ written, []⟩ := by
  simp only [perform, Message.encodeTo_eq_encode, given]

theorem performAll_encode (mode : Mode) (buffer : Bytes) (given : encodeAll ms = .ok written) :
    bufferAfter mode buffer (ms.map .encode) = buffer ++ written ∧
      ∀ effect ∈ performAll mode buffer (ms.map .encode), effect.yield = .encoded := by
  induction ms generalizing buffer written with
  | nil =>
    cases given
    exact ⟨(List.append_nil buffer).symm, fun _ none => nomatch none⟩
  | cons m ms ih =>
    obtain ⟨first, isFirst, later, isLater, rfl⟩ := encodeAll_cons_eq_ok_iff.mp given
    have here := perform_encode mode buffer isFirst
    obtain ⟨rest, encoded⟩ := ih (buffer ++ first) isLater
    rw [List.map_cons, bufferAfter, performAll, here, ← List.append_assoc]
    exact ⟨rest, List.forall_mem_cons.mpr ⟨rfl, encoded⟩⟩

/-- Every message of any version that is written to a stream is accounted for at the other end, in
order: by an equal message, or by a refusal of its version. The chunks and the moments at which
the receiver decodes make no difference, and nothing is left over. -/
theorem stream_lossless (mode : Mode) (ms : List Message) (set : ∀ m ∈ ms, m.IsSet) :
    let stream := bufferAfter mode [] (ms.map .encode)
    (∀ effect ∈ performAll mode [] (ms.map .encode), effect.yield = .encoded) ∧
      (∀ chunks : List Bytes, chunks.flatten = stream →
        let run := feedAll .stream [] chunks
        List.Forall₂ StandsFor ms run.items ∧ run.buffer = [] ∧
          decodeEof .stream run.buffer = .wait []) ∧
      ∀ actions : List Action, Receives actions stream →
        let given := items (performAll .stream [] actions)
        let left := bufferAfter .stream [] actions
        let later := exhaust false .stream left
        List.Forall₂ StandsFor ms (given ++ later.items) ∧ later.buffer = [] ∧
          ((decode .stream left).result = none →
            List.Forall₂ StandsFor ms given ∧ left = [] ∧ decodeEof .stream left = .wait []) := by
  intro stream
  obtain ⟨written, isWritten⟩ := exists_encodeAll set
  obtain ⟨sent, encoded⟩ := performAll_encode mode [] isWritten
  have isStream : stream = written := sent
  refine ⟨encoded, ?_, ?_⟩
  · intro chunks cut run
    have settled : (decodeStream []).result = none := rfl
    have agree := (feedAll_agree chunks settled).symm
    rw [List.nil_append, cut, isStream] at agree
    have all : run = ⟨ms.map heard, []⟩ := eq_of_agree_encodeAll isWritten agree
    rw [all]
    exact ⟨forall₂_heard ms, rfl, rfl⟩
  · intro actions receives given left later
    have agree := performAll_agree receives []
    rw [List.nil_append, isStream] at agree
    have all := eq_of_agree_encodeAll isWritten agree
    obtain ⟨isItems, isBuffer⟩ := Exhausted.mk.inj all
    have complete : List.Forall₂ StandsFor ms (given ++ later.items) := by
      rw [isItems]
      exact forall₂_heard ms
    refine ⟨complete, isBuffer, ?_⟩
    intro waits
    have settled : later = ⟨[], left⟩ := exhaust_of_none waits
    have empty : left = [] := (congrArg Exhausted.buffer settled).symm.trans isBuffer
    rw [settled, List.append_nil] at complete
    exact ⟨complete, empty, by rw [empty]; rfl⟩

theorem stream_lossless_otherVersion :
    let addr : Endpoint := ⟨4000, some (.v4 ⟨192, 0, 2, 7⟩)⟩
    let ms : List Message :=
      [⟨.newest, .sReq ⟨0x01020304⟩⟩, ⟨⟨7⟩, .cReq addr⟩, ⟨.newest, .idReq⟩]
    let stream := bufferAfter .stream [] (ms.map .encode)
    let actions : List Action :=
      [.decode, .feed (stream.take 7), .decode, .decode, .feed (stream.drop 7), .decode, .decode,
        .decode]
    let given := items (performAll .stream [] actions)
    let left := bufferAfter .stream [] actions
    (∀ m ∈ ms, m.IsSet) ∧ Receives actions stream ∧ (decode .stream left).result = none ∧
      List.Forall₂ StandsFor ms given ∧ left = [] ∧ decodeEof .stream left = .wait [] := by
  intro addr ms stream actions given left
  have set : ∀ m ∈ ms, m.IsSet := by decide
  have receives : Receives actions (stream.take 7 ++ (stream.drop 7 ++ [])) :=
    .decode (.feed _ (.decode (.decode (.feed _ (.decode (.decode (.decode .nil)))))))
  rw [List.append_nil, List.take_append_drop] at receives
  have waits : (decode .stream left).result = none := by
    rw [← Option.isNone_iff_eq_none]
    simp only [left, actions, stream, ms, addr]
    decide +kernel
  exact ⟨set, receives, waits, ((stream_lossless .stream ms set).2.2 actions receives).2.2 waits⟩

end HolePunch.Frame
