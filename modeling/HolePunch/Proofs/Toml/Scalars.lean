import HolePunch.Proofs.Toml.Strings
import HolePunch.Toml.Parser

/-!
# Values on a line

Strings, truth values and natural numbers are read back as what they are the text of. Digits could
also be a date, a time or a float: up to the end of a line they are none of these.
-/

namespace HolePunch.Toml

open Text (isDigitOf decimal signedLimit)

/-! ### Digits up to the end of a line -/

/-- Decimal digits, perhaps none, and then the end of the line. -/
inductive DigitLine : List Char → Prop where
  | lineEnd (rest : List Char) : DigitLine ('\n' :: rest)
  | digit {c : Char} {s : List Char} (digit : isDigitOf 10 c = true) (more : DigitLine s) :
      DigitLine (c :: s)

variable {c : Char} {s : List Char}

theorem digitLine_append {ds : List Char} (every : ∀ d ∈ ds, isDigitOf 10 d = true)
    (rest : List Char) : DigitLine (ds ++ '\n' :: rest) := by
  induction ds with
  | nil => exact .lineEnd rest
  | cons d ds ih =>
    obtain ⟨first, others⟩ := List.forall_mem_cons.mp every
    exact .digit first (ih others)

theorem exists_of_twoDigits {least most n : Nat} {rest : List Char}
    (read : twoDigits least most s = some (n, rest)) :
    ∃ a b, s = a :: b :: rest ∧ isDigitOf 10 a = true ∧ isDigitOf 10 b = true := by
  unfold twoDigits at read
  split at read
  · next a b rest =>
    dsimp only at read
    split at read
    · next two =>
      cases read
      simp only [Bool.and_eq_true] at two
      exact ⟨a, b, rfl, two.1.1.1, two.1.1.2⟩
    · cases read
  · cases read

namespace DigitLine

theorem tail {rest : List Char} (line : DigitLine (c :: rest)) (digit : isDigitOf 10 c = true) :
    DigitLine rest := by
  cases line with
  | lineEnd => exact absurd digit (by decide)
  | digit _ more => exact more

theorem twoDigits {least most n : Nat} {rest : List Char} (line : DigitLine s)
    (read : twoDigits least most s = some (n, rest)) : DigitLine rest := by
  obtain ⟨a, b, rfl, first, second⟩ := exists_of_twoDigits read
  exact (line.tail first).tail second

/-- A mark that is no digit does not stand there. -/
theorem head_ne {mark : Char} (line : DigitLine (c :: s)) (noDigit : isDigitOf 10 mark = false)
    (noEnd : mark ≠ '\n') : c ≠ mark := by
  cases line with
  | lineEnd => exact noEnd.symm
  | digit digit => exact Text.ne_of_class digit noDigit

theorem char {mark : Char} (line : DigitLine s) (noDigit : isDigitOf 10 mark = false)
    (noEnd : mark ≠ '\n') : Text.Parse.char mark s = none := by
  cases s with
  | nil => rfl
  | cons c s => exact Text.Parse.char_of_ne (line.head_ne noDigit noEnd) s

theorem date (line : DigitLine s) : date s = none := by
  rw [Toml.date]
  cases first : Toml.twoDigits 0 99 s with
  | none => rfl
  | some century =>
    cases second : Toml.twoDigits 0 99 century.2 with
    | none => simp only [Option.bind_eq_bind, Option.bind_some, second, Option.bind_none]
    | some year =>
      have noHyphen : Text.Parse.char '-' year.2 = none :=
        ((line.twoDigits first).twoDigits second).char (by decide) (by decide)
      simp only [Option.bind_eq_bind, Option.bind_some, second, noHyphen, Option.bind_none]

theorem time (line : DigitLine s) : time s = none := by
  rw [Toml.time]
  cases first : Toml.twoDigits 0 23 s with
  | none => rfl
  | some hour =>
    have noColon : Text.Parse.char ':' hour.2 = none :=
      (line.twoDigits first).char (by decide) (by decide)
    simp only [Option.bind_eq_bind, Option.bind_some, noColon, Option.bind_none]

theorem datetime (line : DigitLine s) : datetime s = none := by
  rw [Toml.datetime, line.date, line.time]
  rfl

end DigitLine

/-! ### Numbers -/

theorem digitRun_digits {ds : List Char} (every : ∀ d ∈ ds, isDigitOf 10 d = true)
    (rest : List Char) : digitRun 10 (ds ++ '\n' :: rest) = (ds, '\n' :: rest) := by
  induction ds with
  | nil =>
    unfold digitRun
    exact if_neg (by decide)
  | cons d ds ih =>
    obtain ⟨first, others⟩ := List.forall_mem_cons.mp every
    have line := digitLine_append others rest
    rw [List.cons_append, digitRun, if_pos first, ih others]
    intro e after underscore
    rw [underscore] at line
    exact line.head_ne (by decide) (by decide) rfl

/-- A number starts with a digit, and with a zero only if it is zero. -/
theorem exists_decimal (n : Nat) :
    ∃ d ds, decimal n = d :: ds ∧ (∀ e ∈ d :: ds, isDigitOf 10 e = true) ∧
      (d = '0' → n = 0) := by
  have every := Text.isDigitOf_of_mem_decimal n
  cases digits : decimal n with
  | nil => exact absurd digits Nat.toDigits_ne_nil
  | cons d ds =>
    rw [digits] at every
    refine ⟨d, ds, rfl, every, ?_⟩
    rintro rfl
    have zero : (decimal n).head? = some '0' := by rw [digits]; rfl
    exact Text.eq_zero_of_head?_toDigits (by decide) (by decide) zero

theorem splitSign_digit (digit : isDigitOf 10 c = true) (s : List Char) :
    Binary64.splitSign (c :: s) = (false, c :: s) := by
  rw [Binary64.splitSign]
  · rintro _ ⟨⟩
    exact absurd digit (by decide)
  · rintro _ ⟨⟩
    exact absurd digit (by decide)

theorem wholePart_decimal (n : Nat) (rest : List Char) :
    wholePart (decimal n ++ '\n' :: rest) = some ((false, decimal n), '\n' :: rest) := by
  obtain ⟨d, ds, digits, every, zero⟩ := exists_decimal n
  by_cases first : d = '0'
  · rw [zero first]
    rfl
  · have run := digitRun_digits every rest
    rw [digits]
    unfold wholePart
    rw [List.cons_append, splitSign_digit (every d List.mem_cons_self)]
    dsimp only
    split
    · next same =>
      cases same
      exact absurd rfl first
    · rw [Toml.digits, ← List.cons_append, run]
      rfl

theorem floatInDigits_decimal (n : Nat) (rest : List Char) :
    floatInDigits (decimal n ++ '\n' :: rest) = none := by
  rw [floatInDigits, wholePart_decimal]
  rfl

theorem floatInWords_digit (digit : isDigitOf 10 c = true) (s : List Char) :
    floatInWords (c :: s) = none := by
  have noInf : c ≠ 'i' := Text.ne_of_class digit (by decide)
  have noNan : c ≠ 'n' := Text.ne_of_class digit (by decide)
  have inf : "inf".toList = ['i', 'n', 'f'] := by decide
  have nan : "nan".toList = ['n', 'a', 'n'] := by decide
  simp only [floatInWords, splitSign_digit digit, inf, nan, Text.Parse.word, if_neg noInf,
    if_neg noNan, Option.or_none]

/-- A zero in front is the whole number, so no mark of a base follows it. -/
theorem decimal_ne_mark (n : Nat) {mark : Char} (noEnd : mark ≠ '\n') (rest after : List Char) :
    decimal n ++ '\n' :: rest ≠ '0' :: mark :: after := by
  obtain ⟨d, ds, digits, -, zero⟩ := exists_decimal n
  rw [digits]
  intro same
  have isZero : decimal n = ['0'] := by
    rw [zero (List.cons.inj same).1]
    rfl
  rw [digits] at isZero
  cases isZero
  cases same
  exact noEnd rfl

theorem integer_decimal {n : Nat} (small : n < signedLimit) (rest : List Char) :
    integer (decimal n ++ '\n' :: rest) = some ((n : Int), '\n' :: rest) := by
  have spelled : Text.valueOf 10 (decimal n) = n := Text.valueOf_toDigits (by decide) (by decide) n
  have low : -(signedLimit : Int) ≤ n := by omega
  have high : (n : Int) < signedLimit := by omega
  have range : Text.inSigned64? (n : Int) = some (n : Int) := if_pos ⟨low, high⟩
  rw [integer, wholePart_decimal, Option.bind_eq_bind, Option.bind_some]
  · -- rewriting only: to evaluate the check of the range is to count up to its bounds
    dsimp only
    rw [spelled, if_neg (by decide), range, Option.bind_eq_bind, Option.bind_some, Option.pure_def]
  · exact fun after => decimal_ne_mark n (by decide) rest after
  · exact fun after => decimal_ne_mark n (by decide) rest after
  · exact fun after => decimal_ne_mark n (by decide) rest after

theorem numeric_decimal {n : Nat} (small : n < signedLimit) (rest : List Char) :
    numeric (decimal n ++ '\n' :: rest) = some (.integer n, '\n' :: rest) := by
  obtain ⟨d, ds, digits, every, -⟩ := exists_decimal n
  have line := digitLine_append every rest
  rw [← digits] at line
  have noWords : floatInWords (decimal n ++ '\n' :: rest) = none := by
    rw [digits]
    exact floatInWords_digit (every d List.mem_cons_self) _
  rw [numeric, line.datetime, floatInDigits_decimal, noWords, integer_decimal small]
  rfl

/-! ### Values -/

theorem value_decimal {n : Nat} (small : n < signedLimit) (depth : Nat) (rest : List Char) :
    value depth (decimal n ++ '\n' :: rest) = some (.integer n, '\n' :: rest) := by
  obtain ⟨d, ds, digits, every, -⟩ := exists_decimal n
  have read := numeric_decimal small rest
  rw [digits, List.cons_append] at read ⊢
  rw [value, read]
  all_goals
    rintro _ ⟨⟩
    exact absurd (every _ List.mem_cons_self) (by decide)

theorem value_booleanText (b : Bool) (depth : Nat) (rest : List Char) :
    value depth (booleanText b ++ rest) = some (.boolean b, rest) := by
  have read := Text.Parse.word_append (Value.boolean b) (booleanText b) rest
  cases b with
  | false =>
    have letters : booleanText false = ['f', 'a', 'l', 's', 'e'] := by decide
    rw [letters] at read
    rw [letters, List.cons_append, value]
    exact read
  | true =>
    have letters : booleanText true = ['t', 'r', 'u', 'e'] := by decide
    rw [letters] at read
    rw [letters, List.cons_append, value]
    exact read

theorem exists_stringText (s : List Char) :
    ∃ t, stringText s = '"' :: t ∨ stringText s = '\'' :: t := by
  rw [stringText]
  cases formOf s with
  | basic => exact ⟨_, .inl rfl⟩
  | literal => exact ⟨_, .inr rfl⟩
  | multilineBasic => exact ⟨_, .inl rfl⟩
  | multilineLiteral => exact ⟨_, .inr rfl⟩

theorem value_stringText (s : List Char) (depth : Nat) (rest : List Char) :
    value depth (stringText s ++ '\n' :: rest) =
      some (.string (String.ofList s), '\n' :: rest) := by
  have read := string_stringText s rest
  obtain ⟨t, start | start⟩ := exists_stringText s
  · rw [start, List.cons_append] at read ⊢
    rw [value, read]
    rfl
  · rw [start, List.cons_append] at read ⊢
    rw [value, read]
    rfl

end HolePunch.Toml
