import HolePunch.Inspect.Commands
import HolePunch.Proofs.Inspect.HexText
import HolePunch.Proofs.Message.RoundTrip

/-!
# Hexadecimal input

What is decoded of a text is the `bare` text in it. `Outcome` lists what becomes of that, and
`decodeHex_iff_outcome` says that decoding gives it and nothing else. Texts that are `Alike` have
the same outcome, so an encoded message is decoded however it is spaced (`decodeHex_encodeHex`).
-/

namespace HolePunch.Inspect

open Text HexText

/-- The texts differ in white space and in the case of hexadecimal digits only. -/
inductive Alike : List Char → List Char → Prop where
  | nil : Alike [] []
  | same (c : Char) {s t : List Char} (later : Alike s t) : Alike (c :: s) (c :: t)
  | digit {c d : Char} {s t : List Char} (isDigit : isDigitOf 16 c = true)
      (lower : c.toLower = d.toLower) (later : Alike s t) : Alike (c :: s) (d :: t)
  | blankLeft {c : Char} {s t : List Char} (blank : isBlank c = true) (later : Alike s t) :
      Alike (c :: s) t
  | blankRight {c : Char} {s t : List Char} (blank : isBlank c = true) (later : Alike s t) :
      Alike s (c :: t)

/-- The text without its white space, and then without `0x` or `0X` if it starts so. -/
def bare (s : List Char) : List Char :=
  let plain := s.filter (!isBlank ·)
  if ['0', 'x'] <+: plain ∨ ['0', 'X'] <+: plain then plain.drop 2 else plain

/-- What becomes of a text without white space and without a prefix. -/
inductive Outcome (t : List Char) : Except Failure Message → Prop where
  | oddLength (odd : (utf8 t).length % 2 = 1) : Outcome t (.error (.notHex .oddLength))
  | notDigit {front back : Bytes} {byte : UInt8} (even : (utf8 t).length % 2 = 0)
      (split : utf8 t = front ++ byte :: back) (digits : ∀ d ∈ front, isDigit d = true)
      (other : isDigit byte = false) : Outcome t (.error (.notHex (.invalid byte front.length)))
  | spelled {b : Bytes} (spells : HexText.encode b = t.map Char.toLower) :
      Outcome t ((Message.decode b).mapError .undecodable)

variable {s t : List Char} {c d : Char} {b : Bytes} {r : Except Failure Message}

/-! ### What is left of a text -/

theorem withoutMark_eq (u : List Char) :
    withoutMark u = if ['0', 'x'] <+: u ∨ ['0', 'X'] <+: u then u.drop 2 else u := by
  fun_cases withoutMark u with
  | case1 rest => exact (if_pos (.inl ⟨rest, rfl⟩)).symm
  | case2 rest => exact (if_pos (.inr ⟨rest, rfl⟩)).symm
  | case3 _ noLower noUpper =>
    rw [if_neg]
    rintro (⟨rest, rfl⟩ | ⟨rest, rfl⟩)
    · exact noLower rest rfl
    · exact noUpper rest rfl

theorem eq_iff_of_sameDigit {m : Char} (caseless : ∀ v < 16, m = hexDigit v ↔ m = upperHexDigit v)
    (same : SameDigit c d) : m = c ↔ m = d := by
  rcases same.cases with rfl | ⟨v, left, right⟩
  · rfl
  · obtain ⟨small, isC⟩ := digitValue?_eq_some_iff.mp left
    obtain ⟨-, isD⟩ := digitValue?_eq_some_iff.mp right
    have both := caseless v small
    rcases isC with rfl | rfl <;> rcases isD with rfl | rfl <;> simp only [both]

theorem startsWith_iff_of_sameDigits {x y : Char} {u v : List Char}
    (first : ∀ v < 16, x = hexDigit v ↔ x = upperHexDigit v)
    (second : ∀ v < 16, y = hexDigit v ↔ y = upperHexDigit v)
    (same : List.Forall₂ SameDigit u v) : [x, y] <+: u ↔ [x, y] <+: v := by
  cases same with
  | nil => rfl
  | cons here later =>
    rw [List.cons_prefix_cons, List.cons_prefix_cons, eq_iff_of_sameDigit first here]
    cases later with
    | nil => rfl
    | cons next _ =>
      rw [List.cons_prefix_cons, List.cons_prefix_cons, eq_iff_of_sameDigit second next]
      simp only [List.nil_prefix]

theorem isBlank_of_sameDigit (same : SameDigit c d) : isBlank c = isBlank d := by
  rcases same.cases with rfl | ⟨v, left, right⟩
  · rfl
  · rw [not_isBlank_of_digitValue? left, not_isBlank_of_digitValue? right]

theorem sameDigits_withoutBlanks_cons (same : SameDigit c d)
    (later : List.Forall₂ SameDigit (withoutBlanks s) (withoutBlanks t)) :
    List.Forall₂ SameDigit (withoutBlanks (c :: s)) (withoutBlanks (d :: t)) := by
  have blanks := isBlank_of_sameDigit same
  cases blank : isBlank d with
  | true => simpa [withoutBlanks, blanks, blank] using later
  | false => simpa [withoutBlanks, blanks, blank] using And.intro same later

theorem Alike.sameDigits (alike : Alike s t) :
    List.Forall₂ SameDigit (withoutBlanks s) (withoutBlanks t) := by
  induction alike with
  | nil => exact .nil
  | same c _ ih => exact sameDigits_withoutBlanks_cons (.inl rfl) ih
  | digit isDigit lower _ ih => exact sameDigits_withoutBlanks_cons (.inr ⟨isDigit, lower⟩) ih
  | blankLeft blank _ ih => simpa [withoutBlanks, blank] using ih
  | blankRight blank _ ih => simpa [withoutBlanks, blank] using ih

theorem sameDigits_withoutMark {u v : List Char} (same : List.Forall₂ SameDigit u v) :
    List.Forall₂ SameDigit (withoutMark u) (withoutMark v) := by
  have lower := startsWith_iff_of_sameDigits (x := '0') (y := 'x') (by decide) (by decide) same
  have upper := startsWith_iff_of_sameDigits (x := '0') (y := 'X') (by decide) (by decide) same
  simp only [withoutMark_eq, lower, upper]
  split
  · exact List.forall₂_drop 2 same
  · exact same

theorem Alike.decodeHex_eq (alike : Alike s t) : decodeHex t = decodeHex s := by
  have left : List.Forall₂ SameDigit (clean s) (clean t) :=
    sameDigits_withoutMark alike.sameDigits
  rw [decodeHex, decodeHex, decode_eq_of_sameDigits left]

/-! ### What becomes of it -/

theorem clean_eq_bare (s : List Char) : clean s = bare s := withoutMark_eq (withoutBlanks s)

theorem Outcome.decodeHex_eq (outcome : Outcome (bare s) r) : decodeHex s = r := by
  rw [decodeHex, clean_eq_bare]
  cases outcome with
  | oddLength odd => rw [decode_oddLength odd]
  | notDigit even split digits other => rw [decode_notDigit even split digits other]
  | spelled spells => rw [decode_of_spelled spells]

theorem outcome_decodeHex (s : List Char) : Outcome (bare s) (decodeHex s) := by
  rcases spelled_or_refused (bare s) with
    odd | ⟨even, front, byte, back, split, digits, other⟩ | ⟨b, spells⟩
  · have outcome := Outcome.oddLength odd
    rwa [outcome.decodeHex_eq]
  · have outcome := Outcome.notDigit even split digits other
    rwa [outcome.decodeHex_eq]
  · have outcome := Outcome.spelled spells
    rwa [outcome.decodeHex_eq]

/-- A text is decoded after its white space and one prefix are taken out of it: an odd length comes
first, then the first byte that is no digit, and then what decoding the bytes gives. Texts that
differ in white space and in the case of digits only have the same outcome. -/
theorem decodeHex_iff_outcome (s : List Char) :
    (∀ r : Except Failure Message, decodeHex s = r ↔ Outcome (bare s) r) ∧
    (∀ s', Alike s s' → decodeHex s' = decodeHex s) ∧
    (∀ e : HexText.Error, (Failure.notHex e).message = "Input is not valid hex" ∧
      (Failure.notHex e).causes = [e.message]) ∧
    HexText.Error.oddLength.message = "Odd number of digits" ∧
    (∀ (byte : UInt8) (position : Nat), (HexText.Error.invalid byte position).message =
      s!"Invalid character {quotedByte byte} at position {position}") ∧
    ∀ e : ProtocolError, (Failure.undecodable e).message = "Failed to decode message" ∧
      (Failure.undecodable e).causes = [e.message] := by
  refine ⟨fun r => ⟨?_, Outcome.decodeHex_eq⟩, fun _ alike => alike.decodeHex_eq,
    fun _ => ⟨rfl, rfl⟩, rfl, fun _ _ => rfl, fun _ => ⟨rfl, rfl⟩⟩
  rintro rfl
  exact outcome_decodeHex s

example : decodeHex "0 X5é\t2z".toList = .error (.notHex .oddLength) := rfl

example : decodeHex "0x 0x5401".toList = .error (.notHex (.invalid 0x78 1)) := rfl

/-! ### Encoded messages -/

theorem isSet_message (request : Request) (version : Version) :
    (request.message version).IsSet := by
  cases request <;> simp [Request.message, Request.body, Message.IsSet, Body.endpoints,
    Endpoint.isSet, Endpoint.ofSocketAddr]

theorem withoutBlanks_encode (b : Bytes) :
    withoutBlanks (HexText.encode b) = HexText.encode b := by
  rw [withoutBlanks, List.filter_eq_self]
  intro c member
  obtain ⟨v, spelled⟩ := digitValue?_of_mem_encode member
  rw [not_isBlank_of_digitValue? spelled]
  rfl

theorem not_startsWith_encode {x : Char} (noDigit : digitValue? x = none) (b : Bytes) :
    ¬['0', x] <+: HexText.encode b := by
  intro start
  have inside : x ∈ HexText.encode b := start.subset (List.mem_cons_of_mem _ List.mem_cons_self)
  obtain ⟨v, spelled⟩ := digitValue?_of_mem_encode inside
  cases noDigit.symm.trans spelled

theorem clean_encode {mark : String} (known : mark ∈ ["", "0x", "0X"]) (b : Bytes) :
    clean (mark.toList ++ HexText.encode b) = HexText.encode b := by
  have plain := withoutBlanks_encode b
  rcases List.mem_cons.mp known with rfl | known
  · have noMark := not_or.mpr ⟨not_startsWith_encode (x := 'x') rfl b,
      not_startsWith_encode (x := 'X') rfl b⟩
    have alone : "".toList ++ HexText.encode b = HexText.encode b := rfl
    rw [alone, clean, plain, withoutMark_eq, if_neg noMark]
  · rcases List.mem_pair.mp known with rfl | rfl
    · exact plain
    · exact plain

theorem decodeHex_of_alike_encode {mark : String} {text : List Char}
    (known : mark ∈ ["", "0x", "0X"]) (alike : Alike (mark.toList ++ HexText.encode b) text) :
    decodeHex text = (Message.decode b).mapError .undecodable := by
  rw [alike.decodeHex_eq, decodeHex, clean_encode known, decode_of_encode]

/-- A message that was asked for is encoded in lower-case digits, two for each byte. However these
are spaced, in whatever case they are and with or without a prefix, they are decoded as an equal
message with the same text, or refused for their version. -/
theorem decodeHex_encodeHex (request : Request) (version : Version) :
    ∃ digits, encodeHex request version = .ok digits ∧
      digits.length = 2 * (request.message version).size ∧
      (∀ c ∈ digits, c ∈ "0123456789abcdef".toList) ∧
      ∀ mark ∈ ["", "0x", "0X"], ∀ text, Alike (mark.toList ++ digits) text →
        (version.byte = 1 → ∃ read, decodeHex text = .ok read ∧
          (read == request.message version) = true ∧
          read.text = (request.message version).text) ∧
        (version.byte ≠ 1 →
          let failure := Failure.undecodable (.unsupportedVersion version.byte)
          decodeHex text = .error failure ∧ failure.message = "Failed to decode message" ∧
            failure.causes = [(ProtocolError.unsupportedVersion version.byte).message]) := by
  obtain ⟨written, given⟩ := Message.isSet_iff.mp (isSet_message request version)
  have encoded : encodeHex request version = .ok (HexText.encode written) := by
    rw [encodeHex, given]
  refine ⟨_, encoded, ?_, ?_, ?_⟩
  · rw [length_encode, Message.length_encode given]
  · have digits : ∀ v < 16, hexDigit v ∈ "0123456789abcdef".toList := by decide
    intro c member
    obtain ⟨v, small, rfl⟩ := mem_encode member
    exact digits v small
  · intro mark known text alike
    rw [decodeHex_of_alike_encode known alike]
    constructor
    · intro spoken
      have newest : version = .newest := congrArg Version.mk spoken
      have spelled := Message.spelled_encode (m := request.message version) newest given []
      rw [List.append_nil] at spelled
      rw [Message.decode_eq_ok_iff.mpr spelled]
      exact ⟨_, rfl, Message.beq_iff_wide.mpr (Message.wide_wide _), Message.text_wide _⟩
    · intro other failure
      obtain ⟨body, -, rfl⟩ := Message.encode_eq_ok_iff.mp given
      have refused :=
        Message.decodeAs_otherVersion request.body.kind request.body.kind.tag body other
      rw [← Message.decode_tag] at refused
      refine ⟨?_, rfl, rfl⟩
      exact congrArg (Except.mapError Failure.undecodable) refused

end HolePunch.Inspect
