import HolePunch.Proofs.Message.Sequence

/-!
# Messages at the front of a buffer

Whether a buffer starts with a message is decided by its front: no byte beyond the longest message is
looked at (`Message.decode_take`), and bytes that arrive later change neither a message nor an error,
unless the buffer is the beginning of a message (`Message.decode_append_of_error`).
`Message.decodeAll` takes one message after the other off a buffer.
-/

namespace HolePunch

namespace Message

variable {b : Bytes} {m : Message} {e : ProtocolError}

/-- The bytes may be the beginning of a message: there is no header yet, or a tag with fewer bytes
than it asks for. -/
def Incomplete (b : Bytes) : Prop :=
  b.length < headerSize ∨ ∃ kind : Kind, b.head? = some kind.tag ∧ b.length < kind.size

theorem incomplete_tag_iff {kind : Kind} {version : UInt8}
    (head : b.take headerSize = [kind.tag, version]) : Incomplete b ↔ b.length < kind.size := by
  obtain ⟨rest, rfl⟩ := eq_cons_of_take_header head
  constructor
  · rintro (short | ⟨other, tag, short⟩)
    · exact Nat.lt_of_lt_of_le short kind.headerSize_le_size
    · obtain rfl : kind = other := Kind.tag_injective (Option.some.inj tag)
      exact short
  · intro short
    exact .inr ⟨kind, rfl, short⟩

theorem not_incomplete_of_unregistered {tag version : UInt8}
    (head : b.take headerSize = [tag, version]) (unregistered : ∀ kind : Kind, kind.tag ≠ tag) :
    ¬Incomplete b := by
  obtain ⟨rest, rfl⟩ := eq_cons_of_take_header head
  rintro (short | ⟨kind, isTag, -⟩)
  · exact absurd short (Nat.not_lt.mpr (Nat.le_add_left 2 rest.length))
  · exact unregistered kind (Option.some.inj isTag).symm

theorem not_incomplete_append (complete : ¬Incomplete b) (more : Bytes) :
    ¬Incomplete (b ++ more) := by
  have two : headerSize ≤ b.length := Nat.le_of_not_lt fun short => complete (.inl short)
  have longer : b.length ≤ (b ++ more).length := by
    rw [List.length_append]
    omega
  rintro (short | ⟨kind, tag, short⟩)
  · omega
  · have filled : b ≠ [] := by
      rintro rfl
      exact absurd two (by decide)
    rw [List.head?_append_of_ne_nil _ filled] at tag
    exact complete (.inr ⟨kind, tag, Nat.lt_of_le_of_lt longer short⟩)

theorem not_incomplete_of_ok (given : decode b = .ok m) : ¬Incomplete b := by
  have spelled := decode_eq_ok_iff.mp given
  rw [incomplete_tag_iff spelled.head]
  exact Nat.not_lt.mpr spelled.whole

theorem exists_error_of_incomplete (short : Incomplete b) : ∃ e, decode b = .error e := by
  cases given : decode b with
  | error e => exact ⟨e, rfl⟩
  | ok m => exact absurd short (not_incomplete_of_ok given)

/-- Once there are as many bytes as the tag asks for, an error does not go away. -/
theorem decode_append_of_error (complete : ¬Incomplete b) (refused : decode b = .error e)
    (more : Bytes) : decode (b ++ more) = .error e := by
  have outcome := decodes_decode b
  rw [refused] at outcome
  have front : ∀ {tag version : UInt8}, b.take headerSize = [tag, version] →
      (b ++ more).take headerSize = [tag, version] := by
    intro tag version head
    obtain ⟨rest, rfl⟩ := eq_cons_of_take_header head
    rfl
  apply Decodes.decode_eq
  cases outcome with
  | noHeader short => exact absurd (.inl short) complete
  | unknownType head unregistered => exact .unknownType (front head) unregistered
  | unsupportedVersion head other => exact .unsupportedVersion (front head) other
  | truncated head short => exact absurd ((incomplete_tag_iff head).mpr short) complete

/-! ### One message after the other -/

/-- Messages off the front of a buffer, and the rest, which starts with none. -/
structure Decoded where
  messages : List Message
  rest : Bytes

theorem length_drop_size_lt (given : decode b = .ok m) : (b.drop m.size).length < b.length := by
  have whole := (decode_eq_ok_iff.mp given).whole
  have two : 2 ≤ m.size := m.kind.headerSize_le_size
  rw [List.length_drop]
  omega

/-- Decodes again and again behind the message that was found last. -/
def decodeAll (b : Bytes) : Decoded :=
  match given : decode b with
  | .error _ => ⟨[], b⟩
  | .ok m =>
    have := length_drop_size_lt given
    let later := decodeAll (b.drop m.size)
    ⟨m :: later.messages, later.rest⟩
termination_by b.length
decreasing_by exact this

theorem decodeAll_of_error (refused : decode b = .error e) : decodeAll b = ⟨[], b⟩ := by
  rw [decodeAll]
  split
  · rfl
  · next given => cases refused.symm.trans given

theorem decodeAll_of_ok (given : decode b = .ok m) :
    decodeAll b =
      ⟨m :: (decodeAll (b.drop m.size)).messages, (decodeAll (b.drop m.size)).rest⟩ := by
  rw [decodeAll]
  split
  · next refused => cases given.symm.trans refused
  · next n again =>
    obtain rfl : m = n := Except.ok.inj (given.symm.trans again)
    rfl

theorem decodeAll_induction {P : Bytes → Prop} (stops : ∀ b e, decode b = .error e → P b)
    (goes : ∀ b m, decode b = .ok m → P (b.drop m.size) → P b) (b : Bytes) : P b := by
  induction length : b.length using Nat.strongRecOn generalizing b with
  | ind n ih =>
    cases given : decode b with
    | error e => exact stops b e given
    | ok m => exact goes b m given (ih _ (length ▸ length_drop_size_lt given) _ rfl)

theorem exists_error_rest (b : Bytes) : ∃ e, decode (decodeAll b).rest = .error e := by
  induction b using decodeAll_induction with
  | stops b e refused =>
    rw [decodeAll_of_error refused]
    exact ⟨e, refused⟩
  | goes b m given ih =>
    rw [decodeAll_of_ok given]
    exact ih

/-- The buffer is the wire forms of the messages, and the rest. -/
theorem encodeAll_decodeAll (b : Bytes) :
    ∃ written, encodeAll (decodeAll b).messages = .ok written ∧
      written ++ (decodeAll b).rest = b := by
  induction b using decodeAll_induction with
  | stops b e refused =>
    rw [decodeAll_of_error refused]
    exact ⟨[], rfl, rfl⟩
  | goes b m given ih =>
    obtain ⟨later, isLater, split⟩ := ih
    obtain ⟨-, -, -, isFirst⟩ := (encode_decode b).1 m given
    rw [decodeAll_of_ok given]
    refine ⟨_, encodeAll_cons_eq_ok_iff.mpr ⟨_, isFirst, later, isLater, rfl⟩, ?_⟩
    rw [List.append_assoc, split, List.take_append_drop]

theorem decodeAll_append (b more : Bytes) :
    decodeAll (b ++ more) =
      ⟨(decodeAll b).messages ++ (decodeAll ((decodeAll b).rest ++ more)).messages,
        (decodeAll ((decodeAll b).rest ++ more)).rest⟩ := by
  induction b using decodeAll_induction with
  | stops b e refused =>
    rw [decodeAll_of_error refused]
    rfl
  | goes b m given ih =>
    have spelled := decode_eq_ok_iff.mp given
    have longer : decode (b ++ more) = .ok m := decode_eq_ok_iff.mpr (spelled.append more)
    rw [decodeAll_of_ok longer, decodeAll_of_ok given,
      List.drop_append_of_le_length spelled.whole, ih]
    rfl

end Message

end HolePunch
