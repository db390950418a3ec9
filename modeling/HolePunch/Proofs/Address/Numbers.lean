import HolePunch.Address.Parser
import HolePunch.Address.Printer
import HolePunch.Proofs.Text.Digits

/-!
# Reading the numbers of an address

`number_toDigits` says that a number in its fewest digits is read back where the digits end. From it
follow the parts of an address: octets, groups, ports and scopes.
-/

namespace HolePunch.Address

open Text (EndsRun endsRun_cons)
open Text.Parse (char_cons char_of_ne)

theorem number_toDigits {form : NumberForm} {bound n : Nat} {rest : List Char}
    (low : 1 < form.base) (high : form.base ≤ 16) (small : n < bound)
    (fits : ∀ most, form.maxDigits = some most → 0 < most ∧ n < Nat.pow form.base most)
    (ends : EndsRun (Text.isDigitOf form.base) rest) :
    number form bound (Nat.toDigits form.base n ++ rest) = some (n, rest) := by
  have digits := Text.isDigitOf_of_mem_toDigits low high n
  have notLong : ¬form.maxDigits.any (· < (Nat.toDigits form.base n).length) = true := by
    cases limit : form.maxDigits with
    | none => exact nofun
    | some most =>
      obtain ⟨some, below⟩ := fits most limit
      have short := (Nat.length_toDigits_le_iff low some).mpr below
      rw [Option.any_some, decide_eq_true_iff]
      omega
  have notPadded : ¬(!form.leadingZeros && (Nat.toDigits form.base n).head? == some '0' &&
      decide (1 < (Nat.toDigits form.base n).length)) = true := by
    rw [Bool.and_eq_true, Bool.and_eq_true, beq_iff_eq, decide_eq_true_iff]
    rintro ⟨⟨-, zero⟩, long⟩
    have isZero : n = 0 := Text.eq_zero_of_head?_toDigits low high zero
    rw [isZero, Nat.toDigits_of_lt_base (by omega)] at long
    exact absurd long (by decide)
  simp only [number, Text.takeWhile_run digits ends, Text.dropWhile_run digits ends,
    Text.valueOf_toDigits low high]
  rw [if_neg Nat.toDigits_ne_nil, if_neg notLong, if_neg notPadded, if_pos small]

/-- A number is not read where no digit stands. -/
theorem number_eq_none {form : NumberForm} {bound : Nat} {s : List Char}
    (ends : EndsRun (Text.isDigitOf form.base) s) : number form bound s = none := by
  simp only [number, Text.takeWhile_eq_nil ends, if_true]

theorem separated_cons {α : Type} (separator : Char) (part : Text.Parse α) (rest : List Char) :
    separated separator false part (separator :: rest) = part rest := by
  simp only [separated, char_cons, Bool.false_eq_true, if_false, Option.bind_some]

/-! ### IPv4 addresses and ports -/

theorem octet_text (a : UInt8) {rest : List Char} (ends : EndsRun (Text.isDigitOf 10) rest) :
    octet (Text.decimal a.toNat ++ rest) = some (a, rest) := by
  have small := a.toNat_lt
  have read : number octetForm 256 (Text.decimal a.toNat ++ rest) = some (a.toNat, rest) := by
    apply number_toDigits (by decide) (by decide) small _ ends
    rintro most same
    cases same
    exact ⟨by decide, Nat.lt_trans small (by decide)⟩
  simp only [octet, read, Option.map_some, UInt8.ofNat_toNat]

theorem ipv4_text (ip : Ipv4) {rest : List Char} (ends : EndsRun (Text.isDigitOf 10) rest) :
    ipv4 (ip.text ++ rest) = some (ip, rest) := by
  have dot : ∀ s, EndsRun (Text.isDigitOf 10) ('.' :: s) := endsRun_cons (by decide)
  simp only [Ipv4.text, List.append_assoc, List.cons_append, ipv4]
  rw [octet_text ip.a (dot _)]
  simp only [bind, Option.bind_some, separated_cons]
  rw [octet_text ip.b (dot _)]
  simp only [Option.bind_some, separated_cons]
  rw [octet_text ip.c (dot _)]
  simp only [Option.bind_some, separated_cons]
  rw [octet_text ip.d ends]
  rfl

theorem port_text (p : UInt16) : port (':' :: Text.decimal p.toNat) = some (p, []) := by
  have read : number countForm 65536 (Text.decimal p.toNat ++ []) = some (p.toNat, []) :=
    number_toDigits (by decide) (by decide) p.toNat_lt nofun nofun
  rw [List.append_nil] at read
  simp only [port, char_cons, read, bind, Option.bind_some, UInt16.ofNat_toNat]
  rfl

theorem scope_text (n : UInt32) {rest : List Char} (ends : EndsRun (Text.isDigitOf 10) rest) :
    scope ('%' :: Text.decimal n.toNat ++ rest) = some (n, rest) := by
  have read : number countForm UInt32.size (Text.decimal n.toNat ++ rest) = some (n.toNat, rest) :=
    number_toDigits (by decide) (by decide) n.toNat_lt nofun ends
  simp only [scope, List.cons_append, char_cons, read, bind, Option.bind_some, UInt32.ofNat_toNat]
  rfl

/-! ### Groups -/

theorem group_text (g : UInt16) {rest : List Char} (ends : EndsRun (Text.isDigitOf 16) rest) :
    group (Text.hexNat g.toNat ++ rest) = some (g, rest) := by
  have small := g.toNat_lt
  have read : number groupForm 65536 (Text.hexNat g.toNat ++ rest) = some (g.toNat, rest) := by
    apply number_toDigits (by decide) (by decide) small _ ends
    rintro most same
    cases same
    exact ⟨by decide, small⟩
  simp only [group, read, Option.map_some, UInt16.ofNat_toNat]

theorem separated_dot_eq_none {α : Type} {part : Text.Parse α} {s : List Char}
    (noDot : s.head? ≠ some '.') : separated '.' false part s = none := by
  cases s with
  | nil => rfl
  | cons c rest =>
    have other : c ≠ '.' := fun same => noDot (congrArg some same)
    simp only [separated, char_of_ne other, Bool.false_eq_true, if_false, Option.bind_none]

/-- An IPv4 address has a dot behind its first digits. -/
theorem ipv4_eq_none {s : List Char} (noDot : (s.dropWhile (Text.isDigitOf 10)).head? ≠ some '.') :
    ipv4 s = none := by
  simp only [ipv4]
  cases first : octet s with
  | none => rfl
  | some read =>
    obtain ⟨a, rest⟩ := read
    have isRest : rest = s.dropWhile (Text.isDigitOf 10) := by
      simp only [octet, number] at first
      repeat' split at first
      all_goals simp only [Option.map_none, Option.map_some, reduceCtorEq] at first
      cases first
      rfl
    simp only [bind, Option.bind_some]
    rw [isRest, separated_dot_eq_none noDot]
    rfl

/-- A group in hexadecimal with a colon or the end of an address behind it is no IPv4 address. -/
theorem ipv4_hexNat_eq_none (n : Nat) {rest : List Char} (noDot : rest.head? ≠ some '.')
    (ends : EndsRun (Text.isDigitOf 16) rest) : ipv4 (Text.hexNat n ++ rest) = none := by
  have digits := Text.isDigitOf_of_mem_toDigits (show 1 < 16 by decide) (by decide) n
  apply ipv4_eq_none
  rw [List.dropWhile_append]
  split
  · rwa [Text.dropWhile_eq_self ends.decimal]
  · next left =>
    cases isLeft : (Text.hexNat n).dropWhile (Text.isDigitOf 10) with
    | nil =>
      rw [isLeft] at left
      exact absurd rfl left
    | cons c cs =>
      -- What is left of the group starts with one of its digits, which is no dot.
      have member : c ∈ Text.hexNat n :=
        (List.dropWhile_sublist _).subset (isLeft ▸ List.mem_cons_self)
      intro dot
      rw [Option.some.inj dot] at member
      exact absurd (digits '.' member) (by decide)

end HolePunch.Address
