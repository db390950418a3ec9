import HolePunch.Text.Digits

/-!
# Numbers in digits

The digits of a number spell it (`valueOf_toDigits`), do not start with a zero unless it is zero
(`eq_zero_of_head?_toDigits`), and are read off the front of a text up to where they end.
-/

namespace HolePunch.Text

/-! ### Runs of characters -/

variable {p : Char → Bool} {run rest : List Char}

/-- A character of a class is none that the class leaves out. -/
theorem ne_of_class {c d : Char} (inside : p c = true) (outside : p d = false) : c ≠ d := by
  rintro rfl
  cases inside.symm.trans outside

/-- A run of characters of a class ends in front of the text. -/
def EndsRun (p : Char → Bool) (rest : List Char) : Prop := ∀ c, rest.head? = some c → p c = false

theorem endsRun_cons {c : Char} (other : p c = false) (rest : List Char) : EndsRun p (c :: rest) := by
  intro d head
  cases head
  exact other

theorem takeWhile_eq_nil (ends : EndsRun p rest) : rest.takeWhile p = [] := by
  cases rest with
  | nil => rfl
  | cons c rest => exact List.takeWhile_cons_of_neg (by rw [ends c rfl]; decide)

theorem dropWhile_eq_self (ends : EndsRun p rest) : rest.dropWhile p = rest := by
  cases rest with
  | nil => rfl
  | cons c rest => exact List.dropWhile_cons_of_neg (by rw [ends c rfl]; decide)

theorem takeWhile_run (every : ∀ c ∈ run, p c = true) (ends : EndsRun p rest) :
    (run ++ rest).takeWhile p = run := by
  rw [List.takeWhile_append_of_pos every, takeWhile_eq_nil ends, List.append_nil]

theorem dropWhile_run (every : ∀ c ∈ run, p c = true) (ends : EndsRun p rest) :
    (run ++ rest).dropWhile p = rest := by
  rw [List.dropWhile_append_of_pos every, dropWhile_eq_self ends]

/-- Two runs with different ends are the same run with the same end if they make the same text. -/
theorem run_append_inj {run' rest' : List Char} (every : ∀ c ∈ run, p c = true)
    (every' : ∀ c ∈ run', p c = true) (ends : EndsRun p rest) (ends' : EndsRun p rest')
    (same : run ++ rest = run' ++ rest') : run = run' ∧ rest = rest' := by
  have front := congrArg (List.takeWhile p) same
  rw [takeWhile_run every ends, takeWhile_run every' ends'] at front
  subst front
  exact ⟨rfl, List.append_cancel_left same⟩

/-! ### Digits of a number -/

theorem digitValue?_digitChar {n : Nat} (small : n < 16) :
    digitValue? (Nat.digitChar n) = some n := by
  revert small
  revert n
  decide

theorem valueOf_concat (base : Nat) (digits : List Char) (c : Char) :
    valueOf base (digits ++ [c]) = base * valueOf base digits + (digitValue? c).getD 0 := by
  rw [valueOf, List.foldl_append]
  rfl

theorem isDigitOf_sixteen_of_ten {c : Char} (digit : isDigitOf 10 c = true) :
    isDigitOf 16 c = true := by
  rw [isDigitOf, Option.any_eq_true] at digit ⊢
  obtain ⟨v, spelled, small⟩ := digit
  rw [decide_eq_true_iff] at small
  exact ⟨v, spelled, decide_eq_true (by omega)⟩

theorem EndsRun.decimal {rest : List Char} (ends : EndsRun (isDigitOf 16) rest) :
    EndsRun (isDigitOf 10) rest := by
  intro c head
  cases digit : isDigitOf 10 c with
  | false => rfl
  | true => cases (ends c head).symm.trans (isDigitOf_sixteen_of_ten digit)

section

variable {base : Nat} (low : 1 < base) (high : base ≤ 16) (n : Nat)

include low high

theorem isDigitOf_of_mem_toDigits : ∀ c ∈ Nat.toDigits base n, isDigitOf base c = true := by
  have last : ∀ d < base, isDigitOf base (Nat.digitChar d) = true := by
    intro d small
    rw [isDigitOf, digitValue?_digitChar (by omega)]
    exact decide_eq_true small
  induction n using Nat.strongRecOn with
  | ind n ih =>
    rw [Nat.toDigits_eq_if low]
    split
    · next small =>
      rw [List.forall_mem_singleton]
      exact last n small
    · next large =>
      have shorter : n / base < n := Nat.div_lt_self (by omega) low
      rw [List.forall_mem_append, List.forall_mem_singleton]
      exact ⟨ih _ shorter, last _ (Nat.mod_lt n (by omega))⟩

theorem valueOf_toDigits : valueOf base (Nat.toDigits base n) = n := by
  induction n using Nat.strongRecOn with
  | ind n ih =>
    rw [Nat.toDigits_eq_if low]
    split
    · next small =>
      rw [← List.nil_append [_], valueOf_concat, digitValue?_digitChar (by omega)]
      exact Nat.zero_add n
    · next large =>
      have shorter : n / base < n := Nat.div_lt_self (by omega) low
      have digit : n % base < 16 := Nat.lt_of_lt_of_le (Nat.mod_lt n (by omega)) high
      rw [valueOf_concat, ih _ shorter, digitValue?_digitChar digit]
      exact Nat.div_add_mod n base

theorem eq_zero_of_head?_toDigits {n : Nat} (zero : (Nat.toDigits base n).head? = some '0') :
    n = 0 := by
  induction n using Nat.strongRecOn with
  | ind n ih =>
    rw [Nat.toDigits_eq_if low] at zero
    split at zero
    · next small =>
      have spelled := digitValue?_digitChar (Nat.lt_of_lt_of_le small high)
      rw [Option.some.inj zero] at spelled
      exact (Option.some.inj spelled).symm
    · next large =>
      have shorter : n / base < n := Nat.div_lt_self (by omega) low
      have front : (Nat.toDigits base (n / base)).head? = some '0' := by
        cases isFront : Nat.toDigits base (n / base) with
        | nil => exact absurd isFront Nat.toDigits_ne_nil
        | cons c cs =>
          rw [isFront] at zero
          exact zero
      have below : n < base := by
        rw [← Nat.div_eq_zero_iff_lt (by omega)]
        exact ih _ shorter front
      exact absurd below large

end

theorem isDigitOf_of_mem_decimal (n : Nat) : ∀ c ∈ decimal n, isDigitOf 10 c = true :=
  isDigitOf_of_mem_toDigits (by decide) (by decide) n

theorem decimal_inj {m n : Nat} (same : decimal m = decimal n) : m = n := by
  have spelled := congrArg (valueOf 10) same
  rwa [decimal, decimal, valueOf_toDigits (by decide) (by decide),
    valueOf_toDigits (by decide) (by decide)] at spelled

end HolePunch.Text
