import HolePunch.Inspect.HexText
import HolePunch.Proofs.Text.Hexadecimal
import Mathlib.Data.List.Forall2
import Mathlib.Data.List.Induction

/-!
# Reading hexadecimal text

A text is read as bytes when it is what they are written as, in either case (`decode_of_spelled`).
Otherwise the parity of its length comes first, then the first byte of it that is no digit, and one
of the three is the case (`spelled_or_refused`). The case of digits makes no difference
(`decode_eq_of_sameDigits`).
-/

namespace HolePunch.HexText

open Text

/-- True of the bytes of digits: `0` to `9`, `a` to `f` and `A` to `F`. -/
def isDigit (byte : UInt8) : Bool :=
  (0x30 ≤ byte && byte ≤ 0x39) || (0x61 ≤ byte && byte ≤ 0x66) || (0x41 ≤ byte && byte ≤ 0x46)

variable {c : Char} {v : Nat} {s t : List Char} {byte : UInt8}

/-! ### One byte -/

theorem isDigit_eq_isSome (byte : UInt8) :
    isDigit byte = (digitValue? (Char.ofNat byte.toNat)).isSome := by
  have table : ∀ n < 256, isDigit (UInt8.ofNat n) = (digitValue? (Char.ofNat n)).isSome := by
    decide +kernel
  have entry := table byte.toNat byte.toNat_lt
  rwa [UInt8.ofNat_toNat] at entry

theorem digit_of_isDigit (digit : isDigit byte = true) :
    ∃ v, ∀ position, HexText.digit byte position = .ok v := by
  rw [isDigit_eq_isSome, Option.isSome_iff_exists] at digit
  obtain ⟨v, spelled⟩ := digit
  exact ⟨v, fun position => by rw [HexText.digit, spelled]⟩

theorem digit_of_not_isDigit (other : isDigit byte = false) (position : Nat) :
    digit byte position = .error (.invalid byte position) := by
  rw [isDigit_eq_isSome, Option.isSome_eq_false_iff, Option.isNone_iff_eq_none] at other
  rw [digit, other]

theorem digit_of_digitValue? (spelled : digitValue? c = some v) (position : Nat) :
    digit (UInt8.ofNat c.toNat) position = .ok v := by
  rw [digit, ofNat_utf8_ascii (ascii_of_digitValue? spelled), spelled]

/-! ### What bytes are written as -/

theorem encode_cons (byte : UInt8) (b : Bytes) :
    encode (byte :: b) = hexDigit (byte.toNat / 16) :: hexDigit (byte.toNat % 16) :: encode b :=
  rfl

theorem length_encode (b : Bytes) : (encode b).length = 2 * b.length := by
  induction b with
  | nil => rfl
  | cons byte b ih =>
    rw [encode_cons, List.length_cons, List.length_cons, ih, List.length_cons]
    omega

theorem mem_encode {b : Bytes} (member : c ∈ encode b) : ∃ v < 16, c = hexDigit v := by
  obtain ⟨byte, -, digit⟩ := List.mem_flatMap.mp member
  have small := byte.toNat_lt
  rcases List.mem_pair.mp digit with rfl | rfl
  · exact ⟨_, by omega, rfl⟩
  · exact ⟨_, by omega, rfl⟩

theorem digitValue?_of_mem_encode {b : Bytes} (member : c ∈ encode b) :
    ∃ v, digitValue? c = some v := by
  obtain ⟨v, small, rfl⟩ := mem_encode member
  exact ⟨v, digitValue?_hexDigit small⟩

theorem utf8_of_digits (digits : ∀ c ∈ t, ∃ v, digitValue? c = some v) :
    utf8 t = t.map fun c => UInt8.ofNat c.toNat := by
  induction t with
  | nil => rfl
  | cons c t ih =>
    obtain ⟨⟨v, spelled⟩, later⟩ := List.forall_mem_cons.mp digits
    have one := utf8EncodeChar_ascii (ascii_of_digitValue? spelled)
    rw [utf8, List.flatMap_cons, one, ← utf8, ih later]
    rfl

/-! ### Pairs of digits -/

theorem decodePairs_of_digits {x y : UInt8} {position h l : Nat} (rest : Bytes)
    (high : digit x position = .ok h) (low : digit y (position + 1) = .ok l) :
    decodePairs position (x :: y :: rest) =
      (UInt8.ofNat (16 * h + l) :: ·) <$> decodePairs (position + 2) rest := by
  rw [decodePairs, high, low]
  rfl

theorem decodePairs_encode (b : Bytes) (position : Nat) :
    decodePairs position ((encode b).map fun c => UInt8.ofNat c.toNat) = .ok b := by
  induction b generalizing position with
  | nil => rfl
  | cons byte b ih =>
    have small := byte.toNat_lt
    have high := digitValue?_hexDigit (v := byte.toNat / 16) (by omega)
    have low := digitValue?_hexDigit (v := byte.toNat % 16) (by omega)
    rw [encode_cons, List.map_cons, List.map_cons,
      decodePairs_of_digits _ (digit_of_digitValue? high _) (digit_of_digitValue? low _), ih,
      Nat.div_add_mod, UInt8.ofNat_toNat]
    rfl

theorem decodePairs_notDigit {front back : Bytes} (digits : ∀ d ∈ front, isDigit d = true)
    (other : isDigit byte = false) (even : (front ++ byte :: back).length % 2 = 0)
    (position : Nat) :
    decodePairs position (front ++ byte :: back) =
      .error (.invalid byte (position + front.length)) := by
  induction front using List.twoStepInduction generalizing position with
  | nil =>
    cases back with
    | nil => cases even
    | cons low rest =>
      rw [List.nil_append, decodePairs, digit_of_not_isDigit other]
      rfl
  | singleton d =>
    obtain ⟨v, high⟩ := digit_of_isDigit (digits d List.mem_cons_self)
    rw [List.singleton_append, decodePairs, high, digit_of_not_isDigit other]
    rfl
  | cons_cons d d' front ih _ =>
    obtain ⟨isHigh, both⟩ := List.forall_mem_cons.mp digits
    obtain ⟨isLow, later⟩ := List.forall_mem_cons.mp both
    obtain ⟨h, high⟩ := digit_of_isDigit isHigh
    obtain ⟨l, low⟩ := digit_of_isDigit isLow
    have lessEven : (front ++ byte :: back).length % 2 = 0 := by
      simp only [List.cons_append, List.length_cons] at even
      omega
    have next : position + 2 + front.length = position + (d :: d' :: front).length := by
      simp only [List.length_cons]
      omega
    rw [List.cons_append, List.cons_append, decodePairs_of_digits _ (high _) (low _),
      ih later lessEven, next]
    rfl

/-- Bytes that are the same digit, or the same byte, in the eyes of a reader. -/
def ReadAlike (x y : UInt8) : Prop := ∀ position, digit x position = digit y position

theorem decodePairs_eq_of_readAlike {xs ys : Bytes} (alike : List.Forall₂ ReadAlike xs ys)
    (position : Nat) : decodePairs position xs = decodePairs position ys := by
  induction xs using List.twoStepInduction generalizing ys position with
  | nil =>
    cases alike
    rfl
  | singleton x =>
    cases alike with
    | cons _ none =>
      cases none
      rfl
  | cons_cons x x' xs ih _ =>
    cases alike with
    | cons high later =>
      cases later with
      | cons low later => rw [decodePairs, decodePairs, high, low, ih later]

/-! ### Whole texts -/

theorem decode_of_encode (b : Bytes) : decode (encode b) = .ok b := by
  rw [decode, utf8_of_digits fun _ => digitValue?_of_mem_encode, List.length_map, length_encode,
    if_neg (by omega), decodePairs_encode]

/-- The two characters are the same, or the same digit in either case. -/
def SameDigit (c d : Char) : Prop :=
  c = d ∨ isDigitOf 16 c = true ∧ c.toLower = d.toLower

theorem SameDigit.cases {c d : Char} (same : SameDigit c d) :
    c = d ∨ ∃ v, digitValue? c = some v ∧ digitValue? d = some v := by
  refine same.imp_right ?_
  rintro ⟨digit, lower⟩
  obtain ⟨v, spelled⟩ := isDigitOf_sixteen_iff.mp digit
  exact ⟨v, spelled, by rw [← digitValue?_toLower, ← lower, digitValue?_toLower, spelled]⟩

theorem SameDigit.readAlike {c d : Char} (same : SameDigit c d) :
    List.Forall₂ ReadAlike (String.utf8EncodeChar c) (String.utf8EncodeChar d) := by
  rcases same.cases with rfl | ⟨v, left, right⟩
  · exact List.forall₂_same.mpr fun _ _ _ => rfl
  · rw [utf8EncodeChar_ascii (ascii_of_digitValue? left),
      utf8EncodeChar_ascii (ascii_of_digitValue? right)]
    refine .cons (fun position => ?_) .nil
    rw [digit_of_digitValue? left, digit_of_digitValue? right]

theorem decode_eq_of_sameDigits (same : List.Forall₂ SameDigit s t) : decode s = decode t := by
  have alike : List.Forall₂ ReadAlike (utf8 s) (utf8 t) :=
    List.rel_flatMap same fun _ _ => SameDigit.readAlike
  rw [decode, decode, alike.length_eq, decodePairs_eq_of_readAlike alike]

theorem decode_oddLength (odd : (utf8 t).length % 2 = 1) : decode t = .error .oddLength :=
  if_pos odd

theorem decode_notDigit {front back : Bytes} (even : (utf8 t).length % 2 = 0)
    (split : utf8 t = front ++ byte :: back) (digits : ∀ d ∈ front, isDigit d = true)
    (other : isDigit byte = false) : decode t = .error (.invalid byte front.length) := by
  rw [decode, if_neg (by omega), split]
  rw [split] at even
  rw [decodePairs_notDigit digits other even, Nat.zero_add]

theorem decode_of_spelled {b : Bytes} (spells : encode b = t.map Char.toLower) :
    decode t = .ok b := by
  have same : List.Forall₂ SameDigit t (encode b) := by
    rw [spells, List.forall₂_map_right_iff, List.forall₂_same]
    intro c member
    have lower : c.toLower ∈ encode b := by
      rw [spells]
      exact List.mem_map_of_mem member
    obtain ⟨v, spelled⟩ := digitValue?_of_mem_encode lower
    have again := toLower_of_digitValue? spelled
    rw [digitValue?_toLower] at spelled
    refine .inr ⟨isDigitOf_sixteen_iff.mpr ⟨v, spelled⟩, ?_⟩
    rw [again, toLower_of_digitValue? spelled]
  rw [decode_eq_of_sameDigits same, decode_of_encode]

/-! ### One of the three is the case -/

theorem digitValue?_of_utf8 (digits : ∀ byte ∈ utf8 t, isDigit byte = true) :
    ∀ c ∈ t, ∃ v, digitValue? c = some v := by
  intro c member
  have bytes : ∀ byte ∈ String.utf8EncodeChar c, isDigit byte = true :=
    fun byte inside => digits byte (List.mem_flatMap.mpr ⟨c, member, inside⟩)
  by_cases ascii : c.toNat < 128
  · rw [utf8EncodeChar_ascii ascii, List.forall_mem_singleton, isDigit_eq_isSome,
      ofNat_utf8_ascii ascii] at bytes
    exact Option.isSome_iff_exists.mp bytes
  · obtain ⟨lead, later, encoded, wide⟩ := exists_utf8EncodeChar_wide (Nat.not_lt.mp ascii)
    rw [encoded] at bytes
    have digit := bytes lead List.mem_cons_self
    simp only [isDigit, Bool.or_eq_true, Bool.and_eq_true, decide_eq_true_eq,
      UInt8.le_iff_toNat_le, UInt8.reduceToNat] at digit
    omega

theorem exists_spelled (digits : ∀ c ∈ t, ∃ v, digitValue? c = some v) (even : t.length % 2 = 0) :
    ∃ b, encode b = t.map Char.toLower := by
  induction t using List.twoStepInduction with
  | nil => exact ⟨[], rfl⟩
  | singleton c => cases even
  | cons_cons c d t ih _ =>
    obtain ⟨⟨h, high⟩, ⟨l, low⟩, later⟩ :=
      List.forall_mem_cons.mp digits |>.imp_right List.forall_mem_cons.mp
    obtain ⟨b, spells⟩ := ih later (by simp only [List.length_cons] at even; omega)
    have highSmall := (digitValue?_eq_some_iff.mp high).1
    have lowSmall := (digitValue?_eq_some_iff.mp low).1
    have value : (UInt8.ofNat (16 * h + l)).toNat = 16 * h + l :=
      UInt8.toNat_ofNat_of_lt' (by show _ < 256; omega)
    have first : (16 * h + l) / 16 = h := by omega
    have second : (16 * h + l) % 16 = l := by omega
    refine ⟨UInt8.ofNat (16 * h + l) :: b, ?_⟩
    rw [encode_cons, value, first, second, spells, List.map_cons, List.map_cons,
      toLower_of_digitValue? high, toLower_of_digitValue? low]

/-- A text is of odd length, or has a first byte that is no digit, or is what bytes are written as
in either case. -/
theorem spelled_or_refused (t : List Char) :
    (utf8 t).length % 2 = 1 ∨
      ((utf8 t).length % 2 = 0 ∧ ∃ front byte back, utf8 t = front ++ byte :: back ∧
        (∀ d ∈ front, isDigit d = true) ∧ isDigit byte = false) ∨
      ∃ b, encode b = t.map Char.toLower := by
  rcases Nat.mod_two_eq_zero_or_one (utf8 t).length with even | odd
  · cases found : (utf8 t).find? (!isDigit ·) with
    | some byte =>
      obtain ⟨other, front, back, split, digits⟩ := List.find?_eq_some_iff_append.mp found
      simp only [Bool.not_not, Bool.not_eq_true'] at digits other
      exact .inr (.inl ⟨even, front, byte, back, split, digits, other⟩)
    | none =>
      have all : ∀ byte ∈ utf8 t, isDigit byte = true := by
        simpa only [Bool.not_eq_true, Bool.not_eq_false', List.find?_eq_none] using found
      have digits := digitValue?_of_utf8 all
      rw [utf8_of_digits digits, List.length_map] at even
      exact .inr (.inr (exists_spelled digits even))
  · exact .inl odd

end HolePunch.HexText
