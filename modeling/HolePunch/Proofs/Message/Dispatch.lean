import HolePunch.Proofs.Message.Outcome

/-!
# Decoding one kind of message

`Refuses` lists the errors of the decoder of a kind in the order in which they are looked for: a
byte of the header is missing, another version, another tag, a field that runs over. What the
decoder accepts is what the registry hands to it (`Message.decodeAs_iff_decode`), so no two kinds
accept the same buffer.
-/

namespace HolePunch

open Wire

/-- The errors of the decoder of a kind, each with what has to be true of the bytes. -/
inductive Refuses (kind : Kind) (b : Bytes) : ProtocolError → Prop where
  | noHeader {byte : String} (missing : ["header type", "header version"][b.length]? = some byte) :
      Refuses kind b (.malformed (.truncated ⟨byte, b.length, 1, 0⟩))
  | otherVersion {tag version : UInt8} (head : b.take headerSize = [tag, version])
      (other : version ≠ 1) : Refuses kind b (.unsupportedVersion version)
  | otherTag {tag : UInt8} (head : b.take headerSize = [tag, 1]) (other : tag ≠ kind.tag) :
      Refuses kind b (.malformed (.wrongTag kind tag))
  | truncated {f : Field} (head : b.take headerSize = [kind.tag, 1])
      (first : Field.firstOver b kind.layout = some f) :
      Refuses kind b (.malformed (.truncated ⟨f.name, f.offset, f.width, b.length - f.offset⟩))

namespace Message

variable {kind : Kind} {b : Bytes} {m : Message} {e : ProtocolError}

theorem decodeAs_noHeader (kind : Kind) {byte : String}
    (missing : ["header type", "header version"][b.length]? = some byte) :
    decodeAs kind b = .error (.malformed (.truncated ⟨byte, b.length, 1, 0⟩)) := by
  match b with
  | [] =>
    cases missing
    rfl
  | [_] =>
    cases missing
    rfl
  | _ :: _ :: _ => cases missing

theorem decodeAs_otherTag {tag : UInt8} (rest : Bytes) (other : tag ≠ kind.tag) :
    decodeAs kind (tag :: 1 :: rest) = .error (.malformed (.wrongTag kind tag)) := by
  rw [decodeAs_cons, if_neg (not_not_intro rfl), if_pos other]

theorem decodeAs_of_refuses (refused : Refuses kind b e) : decodeAs kind b = .error e := by
  cases refused with
  | noHeader missing => exact decodeAs_noHeader kind missing
  | otherVersion head other =>
    obtain ⟨rest, rfl⟩ := eq_cons_of_take_header head
    exact decodeAs_otherVersion kind _ rest other
  | otherTag head other =>
    obtain ⟨rest, rfl⟩ := eq_cons_of_take_header head
    exact decodeAs_otherTag rest other
  | truncated head first =>
    obtain ⟨rest, rfl⟩ := eq_cons_of_take_header head
    exact decodeAs_over kind first

theorem refuses_or_spelled (kind : Kind) (b : Bytes) :
    (∃ e, Refuses kind b e) ∨ ∃ m, decodeAs kind b = .ok m ∧ m.Spelled b ∧ m.kind = kind := by
  match b with
  | [] => exact .inl ⟨_, .noHeader rfl⟩
  | [_] => exact .inl ⟨_, .noHeader rfl⟩
  | tag :: version :: rest =>
    by_cases spoken : version = 1
    · subst version
      by_cases same : tag = kind.tag
      · subst tag
        cases first : Field.firstOver (kind.tag :: 1 :: rest) kind.layout with
        | some f => exact .inl ⟨_, .truncated rfl first⟩
        | none =>
          have header : headerSize ≤ (kind.tag :: 1 :: rest).length := Nat.le_add_left 2 rest.length
          have whole := (Kind.firstOver_layout_eq_none_iff header).mp first
          obtain ⟨m, given, spelled⟩ := decodeAs_within kind whole
          have tags : kind.tag = m.kind.tag := (List.cons.inj spelled.head).1
          exact .inr ⟨m, given, spelled, (Kind.tag_injective tags).symm⟩
      · exact .inl ⟨_, .otherTag rfl same⟩
    · exact .inl ⟨_, .otherVersion rfl spoken⟩

theorem decodeAs_eq_error_iff : decodeAs kind b = .error e ↔ Refuses kind b e := by
  constructor
  · intro given
    rcases refuses_or_spelled kind b with ⟨other, refused⟩ | ⟨m, accepted, -⟩
    · cases given.symm.trans (decodeAs_of_refuses refused)
      exact refused
    · cases given.symm.trans accepted
  · exact decodeAs_of_refuses

theorem decodeAs_eq_ok_iff : decodeAs kind b = .ok m ↔ decode b = .ok m ∧ m.kind = kind := by
  constructor
  · intro given
    rcases refuses_or_spelled kind b with ⟨e, refused⟩ | ⟨n, accepted, spelled, same⟩
    · cases given.symm.trans (decodeAs_of_refuses refused)
    · cases given.symm.trans accepted
      exact ⟨decode_eq_ok_iff.mpr spelled, same⟩
  · rintro ⟨given, rfl⟩
    rw [decodeAs_of_head (decode_eq_ok_iff.mp given).head, given]

/-- The decoder of a kind gives a message exactly when plain decoding gives that message and it is
of that kind, so at most one kind accepts a buffer. It refuses all others for the first of the
listed reasons: a wrong version comes before a wrong tag, and behind the header of the kind it fails
as plain decoding does. -/
theorem decodeAs_iff_decode (b : Bytes) :
    (∀ (kind : Kind) (m : Message), decodeAs kind b = .ok m ↔ decode b = .ok m ∧ m.kind = kind) ∧
    (∀ (j k : Kind) (m n : Message), decodeAs j b = .ok m → decodeAs k b = .ok n → j = k) ∧
    (∀ (kind : Kind) (e : ProtocolError), decodeAs kind b = .error e ↔ Refuses kind b e) ∧
    (∀ kind : Kind, b.take headerSize = [kind.tag, 1] → decodeAs kind b = decode b) ∧
    ∀ (kind : Kind) (tag : UInt8) (byte : String),
      (ProtocolError.malformed (.wrongTag kind tag)).message = "netpuncher: " ++
        s!"expected {kind.name} tag {Text.tagText kind.tag}, found {Text.tagText tag}" ∧
      (ProtocolError.malformed (.truncated ⟨byte, b.length, 1, 0⟩)).message = "netpuncher: " ++
        s!"truncated {byte}: need {1} bytes at offset {b.length}, {0} available" := by
  refine ⟨fun _ _ => decodeAs_eq_ok_iff, ?_, fun _ _ => decodeAs_eq_error_iff,
    fun _ => decodeAs_of_head, fun _ _ _ => ⟨rfl, rfl⟩⟩
  intro j k m n left right
  obtain ⟨leftDecoded, rfl⟩ := decodeAs_eq_ok_iff.mp left
  obtain ⟨rightDecoded, rfl⟩ := decodeAs_eq_ok_iff.mp right
  cases leftDecoded.symm.trans rightDecoded
  rfl

example : decodeAs .idReq [0x51, 2] = .error (.unsupportedVersion 2) := rfl

end Message

end HolePunch
