import HolePunch.Proofs.Message.Layout

/-!
# What decoding gives

`Decodes` lists the outcomes of decoding in the order in which they are looked for: no header, an
unknown tag, another version, a field that runs over, a message. `Message.decode_iff_decodes` says
that decoding gives the listed outcome and no other, for every buffer.
-/

namespace HolePunch

open Wire

theorem eq_cons_of_take_header {b : Bytes} {tag version : UInt8}
    (head : b.take headerSize = [tag, version]) : ∃ rest, b = tag :: version :: rest := by
  refine ⟨b.drop headerSize, ?_⟩
  have parts := List.take_append_drop headerSize b
  rw [head] at parts
  exact parts.symm

/-- A buffer has no header, or one with an unknown tag, or one with the tag of a kind. -/
theorem header_cases (b : Bytes) :
    b.length < headerSize ∨
      (∃ tag version rest, b = tag :: version :: rest ∧ ∀ kind : Kind, kind.tag ≠ tag) ∨
        ∃ (kind : Kind) (version : UInt8) (rest : Bytes), b = kind.tag :: version :: rest := by
  match b with
  | [] => exact .inl (by decide)
  | [_] => exact .inl (Nat.lt_succ_self 1)
  | tag :: version :: rest =>
    by_cases registered : ∃ kind : Kind, kind.tag = tag
    · obtain ⟨kind, rfl⟩ := registered
      exact .inr (.inr ⟨kind, version, rest, rfl⟩)
    · exact .inr (.inl ⟨tag, version, rest, rfl, fun kind same => registered ⟨kind, same⟩⟩)

namespace Header

theorem u8_cons (name : String) (x : UInt8) (rest : Bytes) (offset : Nat) :
    Reader.lift (Cursor.u8 name) ⟨x :: rest, offset⟩ = .ok (x, ⟨rest, offset + 1⟩) := by
  have enough : 1 ≤ (Cursor.mk (x :: rest) offset).rest.length := Nat.le_add_left 1 rest.length
  have byte : UInt8.ofNat (leNat [x]) = x := by simp [leNat]
  simp only [Reader.lift, Cursor.u8, Cursor.take_of_le enough]
  exact congrArg (fun y => Except.ok (y, Cursor.mk rest (offset + 1))) byte

theorem read_cons (tag version : UInt8) (rest : Bytes) :
    read (.start (tag :: version :: rest)) =
      if version = 1 then .ok (⟨tag, .newest⟩, .into (tag :: version :: rest) headerSize)
      else .error (.unsupportedVersion version) := by
  simp only [read, Cursor.start, bind, StateT.bind, u8_cons, Except.bind]
  by_cases spoken : version = 1
  · subst version
    rfl
  · have refused : (Version.mk version).isSupported = false := by
      simp [Version.isSupported, Version.newest, spoken]
    rw [if_neg spoken, refused]
    rfl

theorem readOf_cons (kind : Kind) (tag version : UInt8) (rest : Bytes) :
    readOf kind (.start (tag :: version :: rest)) =
      if version ≠ 1 then .error (.unsupportedVersion version)
      else if tag ≠ kind.tag then .error (.malformed (.wrongTag kind tag))
      else .ok (⟨tag, .newest⟩, .into (tag :: version :: rest) headerSize) := by
  simp only [readOf, bind, StateT.bind, read_cons, Except.bind, ne_eq, ite_not]
  by_cases spoken : version = 1
  · by_cases same : tag = kind.tag
    · rw [if_pos spoken, if_pos spoken, if_pos same, same]
      simp only [beq_self_eq_true, if_true]
      rfl
    · have other : (tag == kind.tag) = false := beq_false_of_ne same
      rw [if_pos spoken, if_pos spoken, if_neg same]
      simp only [other]
      rfl
  · rw [if_neg spoken, if_neg spoken]

end Header

namespace Message

theorem decodeAs_cons (kind : Kind) (tag version : UInt8) (rest : Bytes) :
    decodeAs kind (tag :: version :: rest) =
      if version ≠ 1 then .error (.unsupportedVersion version)
      else if tag ≠ kind.tag then .error (.malformed (.wrongTag kind tag))
      else (fun p => ⟨.newest, p.1⟩) <$>
        Body.read kind (.into (tag :: version :: rest) headerSize) := by
  change (·.1) <$> (Header.readOf kind (.start (tag :: version :: rest)) >>= fun p =>
    Body.read kind p.2 >>= fun q => .ok (Message.mk p.1.version q.1, q.2)) = _
  rw [Header.readOf_cons]
  split
  · rfl
  · split
    · rfl
    · simp only [bind, Except.bind]
      cases Body.read kind (.into (tag :: version :: rest) headerSize) <;> rfl

theorem decode_tag (kind : Kind) (version : UInt8) (rest : Bytes) :
    decode (kind.tag :: version :: rest) = decodeAs kind (kind.tag :: version :: rest) := by
  simp only [decode, Kind.lookup_tag]
  rfl

theorem decodeAs_of_head {kind : Kind} {b : Bytes} (head : b.take headerSize = [kind.tag, 1]) :
    decodeAs kind b = decode b := by
  obtain ⟨rest, rfl⟩ := eq_cons_of_take_header head
  exact (decode_tag kind 1 rest).symm

theorem decode_short {b : Bytes} (short : b.length < headerSize) :
    decode b = .error (.notReadEnough b.length) := by
  match b with
  | [] => rfl
  | [_] => rfl
  | _ :: _ :: rest => exact absurd short (Nat.not_lt.mpr (Nat.le_add_left 2 rest.length))

theorem decode_unregistered {tag : UInt8} (unregistered : ∀ kind : Kind, kind.tag ≠ tag)
    (version : UInt8) (rest : Bytes) :
    decode (tag :: version :: rest) = .error (.unknownType tag) := by
  simp only [decode, Kind.lookup_eq_error unregistered]
  rfl

theorem decodeAs_otherVersion (kind : Kind) (tag : UInt8) {version : UInt8} (rest : Bytes)
    (other : version ≠ 1) :
    decodeAs kind (tag :: version :: rest) = .error (.unsupportedVersion version) := by
  rw [decodeAs_cons, if_pos other]

theorem decodeAs_spoken (kind : Kind) (rest : Bytes) :
    decodeAs kind (kind.tag :: 1 :: rest) =
      (fun p => ⟨.newest, p.1⟩) <$> Body.read kind (.into (kind.tag :: 1 :: rest) headerSize) := by
  rw [decodeAs_cons, if_neg (not_not_intro rfl), if_neg (not_not_intro rfl)]

theorem decodeAs_over (kind : Kind) {rest : Bytes} {f : Field}
    (first : Field.firstOver (kind.tag :: 1 :: rest) kind.layout = some f) :
    decodeAs kind (kind.tag :: 1 :: rest) =
      .error (.malformed (.truncated (f.shortage (kind.tag :: 1 :: rest)))) := by
  rw [decodeAs_spoken, (Body.reads kind _).short f first]
  rfl

theorem decodeAs_within (kind : Kind) {rest : Bytes}
    (whole : kind.size ≤ (kind.tag :: 1 :: rest).length) :
    ∃ m, decodeAs kind (kind.tag :: 1 :: rest) = .ok m ∧ m.Spelled (kind.tag :: 1 :: rest) := by
  have header : headerSize ≤ (kind.tag :: 1 :: rest).length := Nat.le_add_left 2 rest.length
  have none := (Kind.firstOver_layout_eq_none_iff header).mpr whole
  obtain ⟨body, given, same, spelled⟩ := (Body.reads kind _).within none
  subst kind
  refine ⟨⟨.newest, body⟩, ?_, rfl, rfl, whole, spelled⟩
  rw [decodeAs_spoken, given]
  rfl

end Message

/-- The outcomes of decoding, each with what has to be true of the bytes. -/
inductive Decodes (b : Bytes) : Except ProtocolError Message → Prop where
  | noHeader (short : b.length < headerSize) : Decodes b (.error (.notReadEnough b.length))
  | unknownType {tag version : UInt8} (head : b.take headerSize = [tag, version])
      (unregistered : ∀ kind : Kind, kind.tag ≠ tag) : Decodes b (.error (.unknownType tag))
  | unsupportedVersion {kind : Kind} {version : UInt8}
      (head : b.take headerSize = [kind.tag, version]) (other : version ≠ 1) :
      Decodes b (.error (.unsupportedVersion version))
  | truncated {kind : Kind} {f : Field} (head : b.take headerSize = [kind.tag, 1])
      (short : b.length < kind.size) (first : Field.firstOver b kind.layout = some f) :
      Decodes b (.error (.malformed (.truncated ⟨f.name, f.offset, f.width, b.length - f.offset⟩)))
  | message {m : Message} (spelled : m.Spelled b) : Decodes b (.ok m)

namespace Message

theorem decodes_decode (b : Bytes) : Decodes b (decode b) := by
  rcases header_cases b with short | ⟨tag, version, rest, rfl, unregistered⟩ |
    ⟨kind, version, rest, rfl⟩
  · rw [decode_short short]
    exact .noHeader short
  · rw [decode_unregistered unregistered]
    exact .unknownType rfl unregistered
  · rw [decode_tag]
    by_cases spoken : version = 1
    · subst version
      by_cases whole : kind.size ≤ (kind.tag :: 1 :: rest).length
      · obtain ⟨m, given, spelled⟩ := decodeAs_within kind whole
        rw [given]
        exact .message spelled
      · have header : headerSize ≤ (kind.tag :: 1 :: rest).length :=
          Nat.le_add_left 2 rest.length
        cases first : Field.firstOver (kind.tag :: 1 :: rest) kind.layout with
        | none => exact absurd ((Kind.firstOver_layout_eq_none_iff header).mp first) whole
        | some f =>
          rw [decodeAs_over kind first]
          exact .truncated rfl (Nat.lt_of_not_le whole) first
    · rw [decodeAs_otherVersion kind _ rest spoken]
      exact .unsupportedVersion rfl spoken

end Message

namespace Decodes

theorem decode_eq {b : Bytes} {r : Except ProtocolError Message} (outcome : Decodes b r) :
    Message.decode b = r := by
  cases outcome with
  | noHeader short => exact Message.decode_short short
  | unknownType head unregistered =>
    obtain ⟨rest, rfl⟩ := eq_cons_of_take_header head
    exact Message.decode_unregistered unregistered _ rest
  | unsupportedVersion head other =>
    obtain ⟨rest, rfl⟩ := eq_cons_of_take_header head
    rw [Message.decode_tag]
    exact Message.decodeAs_otherVersion _ _ rest other
  | truncated head short first =>
    obtain ⟨rest, rfl⟩ := eq_cons_of_take_header head
    rw [Message.decode_tag]
    exact Message.decodeAs_over _ first
  | message spelled =>
    obtain ⟨rest, rfl⟩ := eq_cons_of_take_header spelled.head
    obtain ⟨n, given, other⟩ := Message.decodeAs_within _ spelled.whole
    rw [Message.decode_tag, given, other.unique spelled]

end Decodes

namespace Message

theorem decode_eq_ok_iff {b : Bytes} {m : Message} : decode b = .ok m ↔ m.Spelled b := by
  constructor
  · intro given
    have outcome := decodes_decode b
    rw [given] at outcome
    cases outcome with
    | message spelled => exact spelled
  · intro spelled
    exact (Decodes.message spelled).decode_eq

/-- Decoding gives the listed outcome and no other, and the text of a truncation names the field
with its place, its width and the bytes that are left for it. -/
theorem decode_iff_decodes (b : Bytes) :
    (∀ r : Except ProtocolError Message, decode b = r ↔ Decodes b r) ∧
      ∀ f : Field,
        let left := b.length - f.offset
        (ProtocolError.malformed (.truncated (f.shortage b))).message = "netpuncher: " ++
          s!"truncated {f.name}: need {f.width} bytes at offset {f.offset}, {left} available" := by
  refine ⟨fun r => ⟨?_, Decodes.decode_eq⟩, fun f => rfl⟩
  rintro rfl
  exact decodes_decode b

example : decode (0x63 :: 1 :: List.replicate 19 0) =
    .error (.malformed (.truncated ⟨"CReqTCP destination port", 20, 2, 1⟩)) := rfl

end Message

end HolePunch
