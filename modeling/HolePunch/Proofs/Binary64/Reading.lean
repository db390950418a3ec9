import HolePunch.Binary64.Text
import HolePunch.Proofs.Text.Hexadecimal
import HolePunch.Proofs.Toml.Scalars

/-!
# Texts read as floats

Digits alone are read as the float nearest to the number that they spell (`ofText?_decimal`), and
digits with two points are no float (`ofText?_points`). Beyond the signed range of 64 bits the
floats are the multiples of 2048, so a number from there comes back as the nearest of these
(`toUInt64_ofDecimal`).
-/

namespace HolePunch.Binary64

open Text (decimal isDigitOf signedLimit)

/-! ### Digits read as a float -/

theorem ofWord?_of_head {c : Char} (noInf : c.toLower ≠ 'i') (noNan : c.toLower ≠ 'n')
    (negative : Bool) (s : List Char) : ofWord? negative (c :: s) = none := by
  have inf : "inf".toList = ['i', 'n', 'f'] := by decide
  have infinity : "infinity".toList = ['i', 'n', 'f', 'i', 'n', 'i', 't', 'y'] := by decide
  have nan : "nan".toList = ['n', 'a', 'n'] := by decide
  simp only [ofWord?, List.map_cons, inf, infinity, nan, List.cons.injEq, noInf, noNan,
    false_and, or_self, if_false]

theorem ofText?_digit {c : Char} (digit : isDigitOf 10 c = true) (s : List Char) :
    ofText? (c :: s) = ofDigits? false (c :: s) := by
  have noInf : c.toLower ≠ 'i' := Text.toLower_ne_of_isDigitOf digit (by decide)
  have noNan : c.toLower ≠ 'n' := Text.toLower_ne_of_isDigitOf digit (by decide)
  have noWord := ofWord?_of_head noInf noNan false s
  simp only [ofText?, Toml.splitSign_digit digit, noWord, Option.or_none]

theorem ofText?_of_head {c : Char} (noMinus : c ≠ '-') (noPlus : c ≠ '+') (noPoint : c ≠ '.')
    (noDigit : isDigitOf 10 c = false) (s : List Char) :
    ofText? (c :: s) = ofWord? false (c :: s) := by
  have ends : Text.EndsRun (isDigitOf 10) (c :: s) := Text.endsRun_cons noDigit s
  have unsigned : splitSign (c :: s) = (false, c :: s) := by
    rw [splitSign]
    · exact fun _ same => noMinus (List.cons.inj same).1
    · exact fun _ same => noPlus (List.cons.inj same).1
  have noDigits : ofDigits? false (c :: s) = none := by
    rw [ofDigits?, Text.takeWhile_eq_nil ends, Text.dropWhile_eq_self ends]
    split
    · next same => exact absurd (List.cons.inj same).1 noPoint
    · rfl
  simp only [ofText?, unsigned, noDigits, Option.none_or]

theorem ofText?_decimal (n : Nat) : ofText? (decimal n) = some (ofDecimal false n 0) := by
  obtain ⟨d, ds, digits, every, -⟩ := Toml.exists_decimal n
  have ends : Text.EndsRun (isDigitOf 10) [] := fun _ none => nomatch none
  have front := Text.takeWhile_run (Text.isDigitOf_of_mem_decimal n) ends
  have back := Text.dropWhile_run (Text.isDigitOf_of_mem_decimal n) ends
  rw [List.append_nil] at front back
  have spelled : Text.valueOf 10 (decimal n) = n := Text.valueOf_toDigits (by decide) (by decide) n
  have full : decimal n ≠ [] := Nat.toDigits_ne_nil
  have unsigned : ofText? (decimal n) = ofDigits? false (decimal n) := by
    rw [digits]
    exact ofText?_digit (every d List.mem_cons_self) ds
  simp only [unsigned, ofDigits?, front, back, ofParts, full, false_and, if_false,
    List.append_nil, spelled]
  rfl

theorem ofText?_points {whole fraction : List Char} (full : whole ≠ [])
    (isWhole : ∀ c ∈ whole, isDigitOf 10 c = true)
    (isFraction : ∀ c ∈ fraction, isDigitOf 10 c = true) (rest : List Char) :
    ofText? (whole ++ '.' :: (fraction ++ '.' :: rest)) = none := by
  have point : ∀ s, Text.EndsRun (isDigitOf 10) ('.' :: s) := Text.endsRun_cons (by decide)
  have first := Text.takeWhile_run isWhole (point (fraction ++ '.' :: rest))
  have behind := Text.dropWhile_run isWhole (point (fraction ++ '.' :: rest))
  have second := Text.takeWhile_run isFraction (point rest)
  have left := Text.dropWhile_run isFraction (point rest)
  have noMark : ¬('.' = 'e' ∨ '.' = 'E') := by decide
  have unsigned : ofText? (whole ++ '.' :: (fraction ++ '.' :: rest)) =
      ofDigits? false (whole ++ '.' :: (fraction ++ '.' :: rest)) := by
    cases whole with
    | nil => exact absurd rfl full
    | cons d ds => exact ofText?_digit (isWhole d List.mem_cons_self) _
  simp only [unsigned, ofDigits?, first, behind, second, left, ofParts, full, false_and, if_false,
    noMark]

/-! ### Beyond the signed range -/

/-- The multiple of 2048 that is nearest to a number, the even multiple of two. -/
def nearestMultiple (n : Nat) : Nat :=
  let below := n / 2048
  let excess := n % 2048
  2048 * if excess < 1024 ∨ (excess = 1024 ∧ below % 2 = 0) then below else below + 1

theorem nearestMultiple_bounds (n : Nat) :
    nearestMultiple n ≤ n + 1024 ∧ n ≤ nearestMultiple n + 1024 := by
  rw [nearestMultiple]
  split <;> omega

theorem nearestMultiple_eq_iff (n : Nat) : nearestMultiple n = n ↔ 2048 ∣ n := by
  rw [nearestMultiple]
  split <;> omega

theorem mul_roundDiv (n : Nat) : 2048 * roundDiv n 2048 = nearestMultiple n := by
  rw [roundDiv, nearestMultiple]
  split <;> split <;> omega

theorem mantissaAt_eleven (n : Nat) : mantissaAt n 1 11 = roundDiv n 2048 := by
  have up : powerPart 2 (-11) = 1 := rfl
  have down : powerPart 2 11 = 2048 := rfl
  rw [mantissaAt, up, down, Nat.mul_one, Nat.one_mul]

section

variable {n : Nat} (large : signedLimit ≤ n) (small : n < UInt64.size)

include large small

theorem exponentOf_large : exponentOf n 1 = 11 := by
  have width : n.log2 = 63 := by
    rw [Nat.log2_eq_iff (by rw [signedLimit] at large; omega)]
    exact ⟨large, small⟩
  have guess : max minExponent (((63 : Nat) : Int) - (1 : Nat).log2 - 53) = 10 := by decide
  -- At the exponent that is guessed the mantissa would have 54 bits.
  have wide : mantissaBound ≤ n * powerPart 2 (-10) / (1 * powerPart 2 10) := by
    have up : powerPart 2 (-10) = 1 := rfl
    have down : powerPart 2 10 = 1024 := rfl
    rw [up, down, Nat.mul_one, Nat.one_mul, Nat.le_div_iff_mul_le (by decide)]
    exact large
  rw [exponentOf, width, guess, if_pos wide]
  rfl

theorem ofDecimal_large : ofDecimal false n 0 = ofRatio false n 1 := by
  have short : (Nat.toDigits 10 n).length ≤ 20 :=
    (Nat.length_toDigits_le_iff (by decide) (by decide)).mpr (Nat.lt_trans small (by decide))
  have power : powerPart 10 0 = 1 := rfl
  rw [signedLimit] at large
  rw [ofDecimal, if_neg (by omega), if_neg (by omega), Int.neg_zero, power, Nat.mul_one]

/-- A number beyond the signed range comes back as the nearest multiple of 2048, or as the largest
number if that multiple is too large. -/
theorem toUInt64_ofDecimal :
    (ofDecimal false n 0).toUInt64 =
      UInt64.ofNat (min (nearestMultiple n) (UInt64.size - 1)) := by
  have nonzero : n ≠ 0 := by rw [signedLimit] at large; omega
  rw [ofDecimal_large large small, ofRatio, if_neg nonzero, exponentOf_large large small]
  dsimp only
  rw [mantissaAt_eleven]
  split
  · next carried =>
    -- The mantissa has carried into its 54th bit, so the float is 2 ^ 64.
    rw [← mul_roundDiv, carried]
    decide
  · dsimp only
    have inRange : ¬maxExponent < 11 := by decide
    have whole : powerPart 2 (-11) = 1 := rfl
    have scale : powerPart 2 11 = 2048 := rfl
    have twice : (2 * roundDiv n 2048 * 2048 + 1) / (2 * 1) = nearestMultiple n := by
      rw [← mul_roundDiv]
      omega
    simp only [if_neg inRange, toUInt64, whole, scale, twice, Bool.false_eq_true, if_false]

end

end HolePunch.Binary64
