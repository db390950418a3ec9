import HolePunch.Toml.Printer
import HolePunch.Toml.Text
import HolePunch.Proofs.Text.Hexadecimal

/-!
# Escapes

A character of a basic string is written as it is or as an escape. `escapedChar_cases` says which,
and that the escape is read back as the character.
-/

namespace HolePunch.Toml

/-! ### Numbers of characters -/

theorem valueOf_hex4 {n : Nat} (small : n < 65536) : Text.valueOf 16 (hex4 n) = n := by
  have digit : ∀ m : Nat, Text.digitValue? (Text.upperHexDigit (m % 16)) = some (m % 16) :=
    fun m => Text.digitValue?_upperHexDigit (Nat.mod_lt m (by decide))
  simp only [hex4, List.map_cons, List.map_nil, Text.valueOf, List.foldl_cons, List.foldl_nil,
    digit, Option.getD_some]
  omega

theorem all_isDigitOf_hex4 (n : Nat) : (hex4 n).all (Text.isDigitOf 16) = true := by
  have digit : ∀ m : Nat, Text.isDigitOf 16 (Text.upperHexDigit (m % 16)) = true := by
    intro m
    have small : m % 16 < 16 := Nat.mod_lt m (by decide)
    rw [Text.isDigitOf, Text.digitValue?_upperHexDigit small]
    exact decide_eq_true small
  simp only [hex4, List.map_cons, List.map_nil, List.all_cons, List.all_nil, digit, Bool.and_self]

theorem scalar_hex4 {c : Char} (small : c.toNat < 65536) (rest : List Char) :
    scalar 4 (hex4 c.toNat ++ rest) = some (c, rest) := by
  have front : (hex4 c.toNat ++ rest).take 4 = hex4 c.toNat := rfl
  have back : (hex4 c.toNat ++ rest).drop 4 = rest := rfl
  have valid : (Text.valueOf 16 (hex4 c.toNat)).isValidChar := by
    rw [valueOf_hex4 small]
    exact c.valid
  simp only [scalar, front, back]
  rw [if_pos ⟨rfl, all_isDigitOf_hex4 _, valid⟩, valueOf_hex4 small, Char.ofNat_toNat]

/-! ### Characters of a basic string -/

theorem isPlain_of_not_isControl {c : Char} (plain : isControl c = false) (noEnd : c ≠ '\n') :
    isPlain c = true := by
  have notEnd : (c != '\n') = true := bne_iff_ne.mpr noEnd
  simp only [isControl, notEnd, Bool.and_true, Bool.or_eq_false_iff, Bool.and_eq_false_iff,
    decide_eq_false_iff_not, bne_eq_false_iff_eq, beq_eq_false_iff_ne] at plain
  simp only [isPlain, Bool.or_eq_true, beq_iff_eq, Bool.and_eq_true, decide_eq_true_iff]
  obtain ⟨low | tab, high⟩ := plain
  · by_cases ascii : c.toNat ≤ 0x7e
    · exact .inl (.inr ⟨by omega, ascii⟩)
    · exact .inr (by omega)
  · exact .inl (.inl tab)

/-- What stands behind a backslash is an escape for a character, and no line end. -/
structure Escapes (e : List Char) (c : Char) : Prop where
  escape : ∀ rest, escape (e ++ rest) = some (c, rest)
  noLineEnd : ∀ rest, joinLines (e ++ rest) = none

/-- A character stands for itself, or behind a backslash stands an escape for it. -/
theorem escapedChar_cases (c : Char) :
    (escapedChar c = [c] ∧ c ≠ '\r' ∧ (c = '"' ∨ c = '\n' ∨ isBasic c = true)) ∨
      ∃ e, escapedChar c = '\\' :: e ∧ Escapes e c := by
  unfold escapedChar
  split
  · next same =>
    subst same
    exact .inr ⟨['b'], rfl, fun _ => rfl, fun _ => rfl⟩
  split
  · next same =>
    subst same
    exact .inr ⟨['t'], rfl, fun _ => rfl, fun _ => rfl⟩
  split
  · next same =>
    subst same
    exact .inr ⟨['f'], rfl, fun _ => rfl, fun _ => rfl⟩
  split
  · next same =>
    subst same
    exact .inr ⟨['r'], rfl, fun _ => rfl, fun _ => rfl⟩
  split
  · next same =>
    subst same
    exact .inr ⟨['\\'], rfl, fun _ => rfl, fun _ => rfl⟩
  split
  · next control =>
    have small : c.toNat < 65536 := by
      simp only [isControl, Bool.or_eq_true, Bool.and_eq_true, decide_eq_true_iff,
        beq_iff_eq] at control
      omega
    exact .inr ⟨'u' :: hex4 c.toNat, rfl, scalar_hex4 small, fun _ => rfl⟩
  · next noReturn noBackslash noControl =>
    refine .inl ⟨rfl, noReturn, ?_⟩
    by_cases quote : c = '"'
    · exact .inl quote
    · by_cases lineEnd : c = '\n'
      · exact .inr (.inl lineEnd)
      · have plain := isPlain_of_not_isControl (Bool.eq_false_iff.mpr noControl) lineEnd
        simp [isBasic, plain, quote, noBackslash]

/-! ### Basic strings on one line -/

theorem basicRest_escape {e rest : List Char} {c : Char} (escapes : Escapes e c) :
    basicRest ('\\' :: e ++ rest) = consFound c (basicRest rest) := by
  have found := escapes.escape rest
  rw [List.cons_append, basicRest]
  split
  · next d after again =>
    rw [found] at again
    cases again
    rfl
  · next none => cases found.symm.trans none

theorem basicRest_basic {c : Char} (basic : isBasic c = true) (rest : List Char) :
    basicRest (c :: rest) = consFound c (basicRest rest) := by
  rw [basicRest, if_pos basic]
  · exact Text.ne_of_class basic (by decide)
  · exact Text.ne_of_class basic (by decide)

/-- On one line quotes and line ends are escaped too. -/
theorem basicBody_cons_cases (c : Char) (s : List Char) :
    (basicBody (c :: s) = c :: basicBody s ∧ isBasic c = true) ∨
      ∃ e, basicBody (c :: s) = '\\' :: e ++ basicBody s ∧ Escapes e c := by
  by_cases quote : c = '"'
  · subst quote
    exact .inr ⟨['"'], rfl, fun _ => rfl, fun _ => rfl⟩
  · by_cases lineEnd : c = '\n'
    · subst lineEnd
      exact .inr ⟨['n'], rfl, fun _ => rfl, fun _ => rfl⟩
    · have body : basicBody (c :: s) = escapedChar c ++ basicBody s := by
        rw [basicBody, List.flatMap_cons, if_neg quote, if_neg lineEnd]
        rfl
      rw [body]
      rcases escapedChar_cases c with ⟨same, -, cases⟩ | ⟨e, same, escapes⟩
      · exact .inl ⟨by rw [same]; rfl, (cases.resolve_left quote).resolve_left lineEnd⟩
      · exact .inr ⟨e, by rw [same], escapes⟩

/-- A basic string of any text is read back up to its closing quote. -/
theorem basicRest_basicBody (s rest : List Char) :
    basicRest (basicBody s ++ '"' :: rest) = some (s, rest) := by
  induction s with
  | nil => rw [basicBody, List.flatMap_nil, List.nil_append, basicRest]
  | cons c s ih =>
    rcases basicBody_cons_cases c s with ⟨body, basic⟩ | ⟨e, body, escapes⟩
    · rw [body, List.cons_append, basicRest_basic basic, ih]
      rfl
    · rw [body, List.append_assoc, basicRest_escape escapes, ih]
      rfl

end HolePunch.Toml
