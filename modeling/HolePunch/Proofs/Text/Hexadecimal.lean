import HolePunch.Proofs.Text.Digits
import HolePunch.Text.Blank

/-!
# Hexadecimal digits in text

Each value below sixteen has a digit in either case, and no other character has a value
(`digitValue?_eq_some_iff`). Of the characters of a text only those of ASCII are one byte, their
number (`utf8EncodeChar_ascii`); all others start with a byte above these.
-/

namespace HolePunch.Text

variable {c : Char} {v : Nat}

/-! ### Digits of a value -/

theorem digitValue?_hexDigit (small : v < 16) : digitValue? (hexDigit v) = some v :=
  digitValue?_digitChar small

theorem digitValue?_upperHexDigit (small : v < 16) : digitValue? (upperHexDigit v) = some v := by
  revert small
  revert v
  decide

theorem digitValue?_eq_some_iff :
    digitValue? c = some v ↔ v < 16 ∧ (c = hexDigit v ∨ c = upperHexDigit v) := by
  constructor
  · intro spelled
    have decimal : ∀ n < 10, Char.ofNat ('0'.toNat + n) = hexDigit n := by decide
    have lower : ∀ n < 6, Char.ofNat ('a'.toNat + n) = hexDigit (n + 10) := by decide
    have upper : ∀ n < 6, Char.ofNat ('A'.toNat + n) = upperHexDigit (n + 10) := by decide
    have bounds : ∀ d e : Char, d ≤ c ∧ c ≤ e →
        c = Char.ofNat (d.toNat + (c.toNat - d.toNat)) ∧ c.toNat - d.toNat ≤ e.toNat - d.toNat := by
      intro d e between
      have above : d.toNat ≤ c.toNat := between.1
      have below : c.toNat ≤ e.toNat := between.2
      rw [Nat.add_sub_cancel' above, Char.ofNat_toNat]
      exact ⟨rfl, Nat.sub_le_sub_right below _⟩
    unfold digitValue? at spelled
    split at spelled
    · next between =>
      cases spelled
      obtain ⟨same, small⟩ := bounds _ _ between
      have small : c.toNat - '0'.toNat < 10 := Nat.lt_succ_of_le small
      exact ⟨by omega, .inl (same.trans (decimal _ small))⟩
    split at spelled
    · next between =>
      cases spelled
      obtain ⟨same, small⟩ := bounds _ _ between
      have small : c.toNat - 'a'.toNat < 6 := Nat.lt_succ_of_le small
      exact ⟨by omega, .inl (same.trans (lower _ small))⟩
    split at spelled
    · next between =>
      cases spelled
      obtain ⟨same, small⟩ := bounds _ _ between
      have small : c.toNat - 'A'.toNat < 6 := Nat.lt_succ_of_le small
      exact ⟨by omega, .inr (same.trans (upper _ small))⟩
    · cases spelled
  · rintro ⟨small, rfl | rfl⟩
    · exact digitValue?_hexDigit small
    · exact digitValue?_upperHexDigit small

/-- What holds of the digits of every value holds of every character with a value. -/
theorem of_digitValue? {P : Char → Nat → Prop}
    (digits : ∀ n < 16, P (hexDigit n) n ∧ P (upperHexDigit n) n)
    (spelled : digitValue? c = some v) : P c v := by
  obtain ⟨small, rfl | rfl⟩ := digitValue?_eq_some_iff.mp spelled
  · exact (digits v small).1
  · exact (digits v small).2

theorem toLower_of_digitValue? (spelled : digitValue? c = some v) : c.toLower = hexDigit v :=
  of_digitValue? (P := fun c v => c.toLower = hexDigit v) (by decide) spelled

theorem digitValue?_toLower (c : Char) : digitValue? c.toLower = digitValue? c := by
  by_cases upper : 'A' ≤ c ∧ c ≤ 'Z'
  · have letters : ∀ n < 26, digitValue? (Char.ofNat ('A'.toNat + n)).toLower =
        digitValue? (Char.ofNat ('A'.toNat + n)) := by decide
    have above : 'A'.toNat ≤ c.toNat := upper.1
    have below : c.toNat ≤ 'Z'.toNat := upper.2
    have small : c.toNat - 'A'.toNat < 26 := Nat.lt_succ_of_le (Nat.sub_le_sub_right below _)
    have same := letters _ small
    rwa [Nat.add_sub_cancel' above, Char.ofNat_toNat] at same
  · have kept : c.toLower = c := dif_neg upper
    rw [kept]

theorem isDigitOf_sixteen_iff : isDigitOf 16 c = true ↔ ∃ v, digitValue? c = some v := by
  constructor
  · intro digit
    obtain ⟨v, spelled, -⟩ := (Option.any_eq_true _ _).mp digit
    exact ⟨v, spelled⟩
  · rintro ⟨v, spelled⟩
    rw [isDigitOf, spelled]
    exact decide_eq_true (digitValue?_eq_some_iff.mp spelled).1

theorem ascii_of_digitValue? (spelled : digitValue? c = some v) : c.toNat < 128 :=
  of_digitValue? (P := fun c _ => c.toNat < 128) (by decide) spelled

theorem not_isBlank_of_digitValue? (spelled : digitValue? c = some v) : isBlank c = false :=
  of_digitValue? (P := fun c _ => isBlank c = false) (by decide) spelled

theorem not_isAlpha_of_isDigitOf (digit : isDigitOf 10 c = true) :
    c.isAlpha = false ∧ c.toLower.isAlpha = false := by
  obtain ⟨v, spelled, small⟩ := (Option.any_eq_true _ _).mp digit
  have noLetter := of_digitValue?
    (P := fun c v => v < 10 → c.isAlpha = false ∧ c.toLower.isAlpha = false) (by decide) spelled
  exact noLetter (of_decide_eq_true small)

theorem toLower_ne_of_isDigitOf (digit : isDigitOf 10 c = true) {letter : Char}
    (isLetter : letter.isAlpha = true) : c.toLower ≠ letter :=
  (ne_of_class (p := Char.isAlpha) isLetter (not_isAlpha_of_isDigitOf digit).2).symm

/-! ### Characters as bytes -/

theorem utf8EncodeChar_ascii (ascii : c.toNat < 128) :
    String.utf8EncodeChar c = [UInt8.ofNat c.toNat] := by
  have small : c.val.toNat ≤ 127 := Nat.le_of_lt_succ ascii
  simp only [String.utf8EncodeChar, small, if_true]
  rfl

theorem ofNat_utf8_ascii (ascii : c.toNat < 128) :
    Char.ofNat (UInt8.ofNat c.toNat).toNat = c := by
  rw [UInt8.toNat_ofNat_of_lt' (Nat.lt_trans ascii (by decide)), Char.ofNat_toNat]

theorem exists_utf8EncodeChar_wide (wide : 128 ≤ c.toNat) :
    ∃ lead later, String.utf8EncodeChar c = lead :: later ∧ 128 ≤ lead.toNat := by
  have large : ¬c.val.toNat ≤ 127 := Nat.not_le.mpr wide
  have high : ∀ n : Nat, 128 ≤ n → n < 256 → 128 ≤ (UInt8.ofNat n).toNat := by
    intro n above below
    rwa [UInt8.toNat_ofNat_of_lt' below]
  simp only [String.utf8EncodeChar, large, if_false]
  split
  · exact ⟨_, _, rfl, high _ (by omega) (by omega)⟩
  split
  · exact ⟨_, _, rfl, high _ (by omega) (by omega)⟩
  · exact ⟨_, _, rfl, high _ (by omega) (by omega)⟩

end HolePunch.Text
