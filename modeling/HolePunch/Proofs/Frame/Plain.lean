import HolePunch.Proofs.Frame.Intake

/-!
# A step on a stream and plain decoding

A step gives what plain decoding of the whole buffer gives, except that it waits while the buffer is
the beginning of a message (`result_none_iff`, `result_error_iff`). `decode_stream_iff` says which
outcome of plain decoding is which step, and what each leaves in the buffer.
-/

namespace HolePunch.Frame

open Message (Incomplete)

variable {b : Bytes} {m : Message} {e : ProtocolError} {version : UInt8}

/-! ### What a step gives -/

theorem result_none_iff : (decodeStream b).result = none ↔ Incomplete b := by
  cases given : Message.decode b with
  | ok m =>
    rw [decodeStream_of_ok given]
    exact ⟨nofun, fun short => absurd short (Message.not_incomplete_of_ok given)⟩
  | error e =>
    obtain ⟨waits, fails⟩ := decodeStream_of_error given
    constructor
    · intro none
      by_contra complete
      cases none.symm.trans (fails complete)
    · intro short
      rw [waits short]
      rfl

theorem result_ok_iff : (decodeStream b).result = some (.ok m) ↔ Message.decode b = .ok m := by
  constructor
  · intro gives
    cases given : Message.decode b with
    | ok n =>
      rw [decodeStream_of_ok given] at gives
      exact Option.some.inj gives
    | error e =>
      obtain ⟨waits, fails⟩ := decodeStream_of_error given
      by_cases short : Incomplete b
      · cases (result_none_iff.mpr short).symm.trans gives
      · cases (fails short).symm.trans gives
  · intro given
    rw [decodeStream_of_ok given]

theorem result_error_iff :
    (decodeStream b).result = some (.error e) ↔ Message.decode b = .error e ∧ ¬Incomplete b := by
  constructor
  · intro gives
    have complete : ¬Incomplete b := by
      intro short
      cases (result_none_iff.mpr short).symm.trans gives
    cases given : Message.decode b with
    | ok m => cases (result_ok_iff.mpr given).symm.trans gives
    | error other =>
      have same := ((decodeStream_of_error given).2 complete).symm.trans gives
      exact ⟨Option.some.inj same, complete⟩
  · rintro ⟨refused, complete⟩
    exact (decodeStream_of_error refused).2 complete

/-! ### Whole frames -/

/-- The buffer starts with the tag of a kind and has as many bytes as the kind asks for. -/
def HoldsFrame (kind : Kind) (b : Bytes) : Prop :=
  b.head? = some kind.tag ∧ kind.size ≤ b.length

theorem not_incomplete_of_unknownType {tag : UInt8}
    (refused : Message.decode b = .error (.unknownType tag)) : ¬Incomplete b := by
  have outcome := Message.decodes_decode b
  rw [refused] at outcome
  cases outcome with
  | unknownType head unregistered => exact Message.not_incomplete_of_unregistered head unregistered

theorem not_incomplete_iff_of_unsupportedVersion
    (refused : Message.decode b = .error (.unsupportedVersion version)) :
    ¬Incomplete b ↔ ∃ kind, HoldsFrame kind b := by
  have outcome := Message.decodes_decode b
  rw [refused] at outcome
  cases outcome with
  | @unsupportedVersion kind _ head _ =>
    rw [Message.incomplete_tag_iff head, Nat.not_lt]
    obtain ⟨rest, rfl⟩ := eq_cons_of_take_header head
    constructor
    · intro whole
      exact ⟨kind, rfl, whole⟩
    · rintro ⟨other, tag, whole⟩
      obtain rfl : kind = other := Kind.tag_injective (Option.some.inj tag)
      exact whole

theorem result_unknownType_iff {tag : UInt8} :
    (decodeStream b).result = some (.error (.unknownType tag)) ↔
      Message.decode b = .error (.unknownType tag) := by
  rw [result_error_iff]
  constructor
  · exact And.left
  · intro refused
    exact ⟨refused, not_incomplete_of_unknownType refused⟩

theorem result_unsupportedVersion_iff :
    (decodeStream b).result = some (.error (.unsupportedVersion version)) ↔
      Message.decode b = .error (.unsupportedVersion version) ∧ ∃ kind, HoldsFrame kind b := by
  rw [result_error_iff]
  exact and_congr_right not_incomplete_iff_of_unsupportedVersion

theorem result_none_of_others (noMessage : ∀ m, Message.decode b ≠ .ok m)
    (noTag : ∀ tag, Message.decode b ≠ .error (.unknownType tag))
    (noFrame : ∀ version kind, Message.decode b = .error (.unsupportedVersion version) →
      ¬HoldsFrame kind b) : (decodeStream b).result = none := by
  match given : (decodeStream b).result with
  | none => rfl
  | some (.ok m) => exact absurd (result_ok_iff.mp given) (noMessage m)
  | some (.error e) =>
    rcases (decodeStream_step b).error given with ⟨tag, rfl⟩ | ⟨version, rfl⟩
    · exact absurd (result_unknownType_iff.mp given) (noTag tag)
    · obtain ⟨refused, kind, held⟩ := result_unsupportedVersion_iff.mp given
      exact absurd held (noFrame version kind refused)

/-! ### What a step leaves -/

theorem buffer_of_unknownType {tag : UInt8}
    (gives : (decodeStream b).result = some (.error (.unknownType tag))) :
    (decodeStream b).buffer = [] := by
  have allowed := decodeStream_step b
  generalize decodeStream b = step at allowed gives
  cases allowed with
  | lost => rfl
  | noHeader | cut | refused | message => cases gives

theorem buffer_of_unsupportedVersion {kind : Kind} (held : HoldsFrame kind b)
    (gives : (decodeStream b).result = some (.error (.unsupportedVersion version))) :
    (decodeStream b).buffer = b.drop kind.size := by
  have allowed := decodeStream_step b
  generalize decodeStream b = step at allowed gives
  cases allowed with
  | @refused other _ head =>
    obtain ⟨rest, rfl⟩ := eq_cons_of_take_header head
    obtain rfl : other = kind := Kind.tag_injective (Option.some.inj held.1)
    rfl
  | noHeader | cut | lost | message => cases gives

/-- One step on a stream against plain decoding of all that is in the buffer. A message is the same
message, taken away as a whole; an unknown tag is an unknown tag, and empties the buffer; another
version is refused once its frame is there, and the frame is taken away. In every other case the
step waits and leaves the buffer, so it meets no other error. -/
theorem decode_stream_iff (b : Bytes) :
    let step := decode .stream b
    (b.length < headerSize → step.result = none ∧ step.buffer = b) ∧
    (∀ m : Message,
      (step.result = some (.ok m) ↔ Message.decode b = .ok m) ∧
      (Message.decode b = .ok m → m.size ≤ b.length ∧ step.buffer = b.drop m.size)) ∧
    (∀ tag : UInt8, let lost := ProtocolError.unknownType tag
      (step.result = some (.error lost) ↔ Message.decode b = .error lost) ∧
      (Message.decode b = .error lost → step.buffer = [])) ∧
    (∀ version : UInt8, let refused := ProtocolError.unsupportedVersion version
      (step.result = some (.error refused) ↔
        Message.decode b = .error refused ∧ ∃ kind, HoldsFrame kind b) ∧
      ∀ kind : Kind, Message.decode b = .error refused → HoldsFrame kind b →
        step.buffer = b.drop kind.size) ∧
    ((∀ m, Message.decode b ≠ .ok m) → (∀ tag, Message.decode b ≠ .error (.unknownType tag)) →
      (∀ version kind, Message.decode b = .error (.unsupportedVersion version) →
        ¬HoldsFrame kind b) →
      step.result = none ∧ step.buffer = b) ∧
    ∀ e : ProtocolError, step.result = some (.error e) →
      (∃ tag, e = .unknownType tag) ∨ ∃ version, e = .unsupportedVersion version := by
  intro step
  have allowed : StreamStep b step := decodeStream_step b
  have waits : step.result = none → step.result = none ∧ step.buffer = b :=
    fun none => ⟨none, allowed.buffer_of_result_none none⟩
  refine ⟨?_, ?_, ?_, ?_, ?_, fun e => allowed.error⟩
  · intro short
    exact waits (result_none_iff.mpr (.inl short))
  · intro m
    refine ⟨result_ok_iff, fun given => ?_⟩
    have taken : step = _ := decodeStream_of_ok given
    rw [taken]
    exact ⟨(Message.decode_eq_ok_iff.mp given).whole, rfl⟩
  · intro tag lost
    exact ⟨result_unknownType_iff,
      fun given => buffer_of_unknownType (result_unknownType_iff.mpr given)⟩
  · intro version refused
    refine ⟨result_unsupportedVersion_iff, fun kind given held => ?_⟩
    have gives := result_unsupportedVersion_iff.mpr ⟨given, kind, held⟩
    exact buffer_of_unsupportedVersion held gives
  · intro noMessage noTag noFrame
    exact waits (result_none_of_others noMessage noTag noFrame)

end HolePunch.Frame
