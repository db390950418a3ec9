import HolePunch.Proofs.Address.RoundTrip
import HolePunch.Proofs.Binary64.Reading
import HolePunch.Settings.Load

/-!
# The type of a variable

The type of a variable is guessed from its text, and the value is converted to the type of the
setting afterwards. Truth values and addresses survive that (`toBoolean?_ofVariable`,
`toAddress?_ofVariable`). A number is rounded beyond the signed range (`toUnsigned?_ofVariable`),
and a level that reads as a truth value or as a number is spelled anew (`toText?_ofVariable`).
-/

namespace HolePunch.Settings

open Text (decimal isDigitOf signedLimit)

/-! ### Guessing the type of a text -/

/-- The text is no truth value, in any letter case. -/
def NoBoolean (s : String) : Prop := s.toLower ≠ "true" ∧ s.toLower ≠ "false"

theorem noBoolean_of_head {s : String} {c : Char} {rest : List Char} (starts : s.toList = c :: rest)
    (noTrue : c.toLower ≠ 't') (noFalse : c.toLower ≠ 'f') : NoBoolean s := by
  have lower : s.toLower.toList = c.toLower :: rest.map Char.toLower := by
    rw [← List.map_cons, ← starts]
    exact String.toList_map
  have isTrue : "true".toList = ['t', 'r', 'u', 'e'] := by decide
  have isFalse : "false".toList = ['f', 'a', 'l', 's', 'e'] := by decide
  constructor
  · intro same
    rw [same, isTrue] at lower
    exact noTrue (List.cons.inj lower).1.symm
  · intro same
    rw [same, isFalse] at lower
    exact noFalse (List.cons.inj lower).1.symm

theorem noBoolean_of_digit {s : String} {c : Char} {rest : List Char}
    (starts : s.toList = c :: rest) (digit : isDigitOf 10 c = true) : NoBoolean s :=
  noBoolean_of_head starts (Text.toLower_ne_of_isDigitOf digit (by decide))
    (Text.toLower_ne_of_isDigitOf digit (by decide))

section

variable {s : String} (plain : NoBoolean s)

include plain

theorem ofVariable_integer {i : Int} (read : Text.signed64? s.toList = some i) :
    ofVariable s = .integer i := by
  simp only [ofVariable, if_neg plain.1, if_neg plain.2, read]

theorem ofVariable_float {x : Binary64} (noInteger : Text.signed64? s.toList = none)
    (read : Binary64.ofText? s.toList = some x) : ofVariable s = .float x := by
  simp only [ofVariable, if_neg plain.1, if_neg plain.2, noInteger, read]

theorem ofVariable_text (noInteger : Text.signed64? s.toList = none)
    (noFloat : Binary64.ofText? s.toList = none) : ofVariable s = .text s := by
  simp only [ofVariable, if_neg plain.1, if_neg plain.2, noInteger, noFloat]

end

theorem toBoolean?_ofVariable (b : Bool) :
    (ofVariable (if b then "true" else "false")).toBoolean? = some b := by
  have isTrue : "true".toLower = "true" := by decide +kernel
  have isFalse : "false".toLower = "false" := by decide +kernel
  have differ : ¬"false" = "true" := by decide
  cases b with
  | false => simp only [Bool.false_eq_true, if_false, ofVariable, isFalse, if_neg differ, if_true,
      Node.toBoolean?]
  | true => simp only [if_true, ofVariable, isTrue, Node.toBoolean?]

/-! ### Numbers -/

/-- What becomes of a number: beyond the signed range it is the nearest float, or the largest number
where that float is too large. -/
def rounded (n : UInt64) : UInt64 :=
  if n.toNat < signedLimit then n
  else UInt64.ofNat (min (Binary64.nearestMultiple n.toNat) (UInt64.size - 1))

/-- The number is in the signed range, or the same number is a float, or it is the largest. -/
def IsKept (n : UInt64) : Prop :=
  n.toNat < signedLimit ∨ 2048 ∣ n.toNat ∨ n.toNat = UInt64.size - 1

theorem toNat_rounded {n : UInt64} (large : signedLimit ≤ n.toNat) :
    (rounded n).toNat = min (Binary64.nearestMultiple n.toNat) (UInt64.size - 1) := by
  rw [rounded, if_neg (Nat.not_lt.mpr large), UInt64.toNat_ofNat']
  exact Nat.mod_eq_of_lt (by rw [UInt64.size]; omega)

theorem rounded_eq_iff (n : UInt64) : rounded n = n ↔ IsKept n := by
  by_cases small : n.toNat < signedLimit
  · rw [rounded, if_pos small]
    exact ⟨fun _ => .inl small, fun _ => rfl⟩
  · have large : signedLimit ≤ n.toNat := Nat.le_of_not_lt small
    have below : n.toNat < UInt64.size := n.toNat_lt
    have same := Binary64.nearestMultiple_eq_iff n.toNat
    rw [← UInt64.toNat_inj, toNat_rounded large, IsKept]
    constructor
    · intro kept
      omega
    · rintro (isSmall | multiple | largest)
      · exact absurd isSmall small
      · rw [same.mpr multiple]
        omega
      · rw [largest]
        decide

theorem signed64?_unsigned {c : Char} (noMinus : c ≠ '-') (noPlus : c ≠ '+') (rest : List Char) :
    Text.signed64? (c :: rest) =
      ((Text.digitsNat? (c :: rest)).map Int.ofNat).bind Text.inSigned64? := by
  unfold Text.signed64?
  split
  · next same => exact absurd (List.cons.inj same).1 noMinus
  · next same => exact absurd (List.cons.inj same).1 noPlus
  · rfl

theorem signed64?_decimal (n : Nat) : Text.signed64? (decimal n) = Text.inSigned64? n := by
  obtain ⟨d, ds, digits, every, -⟩ := Toml.exists_decimal n
  have all : (decimal n).all (isDigitOf 10) = true :=
    List.all_eq_true.mpr (Text.isDigitOf_of_mem_decimal n)
  have read : Text.digitsNat? (decimal n) = some n := by
    rw [Text.digitsNat?, if_pos ⟨Nat.toDigits_ne_nil, all⟩]
    exact congrArg some (Text.valueOf_toDigits (by decide) (by decide) n)
  have first := every d List.mem_cons_self
  have noMinus : d ≠ '-' := Text.ne_of_class first (by decide)
  have noPlus : d ≠ '+' := Text.ne_of_class first (by decide)
  rw [digits] at read ⊢
  rw [signed64?_unsigned noMinus noPlus, read, Option.map_some, Option.bind_some,
    Int.ofNat_eq_natCast]

theorem signed64?_eq_none {c d : Char} {rest : List Char} (noMinus : c ≠ '-') (noPlus : c ≠ '+')
    (member : d ∈ c :: rest) (noDigit : isDigitOf 10 d = false) :
    Text.signed64? (c :: rest) = none := by
  have refused : Text.digitsNat? (c :: rest) = none := by
    apply if_neg
    rintro ⟨-, all⟩
    rw [List.all_eq_true.mp all d member] at noDigit
    cases noDigit
  rw [signed64?_unsigned noMinus noPlus, refused]
  rfl

theorem toUnsigned?_ofVariable (n : UInt64) :
    (ofVariable (String.ofList (decimal n.toNat))).toUnsigned? = some (rounded n) ∧
      (ofVariable (String.ofList (decimal n.toNat))).toOptionalUnsigned? =
        some (some (rounded n)) := by
  obtain ⟨d, ds, digits, every, -⟩ := Toml.exists_decimal n.toNat
  have text : (String.ofList (decimal n.toNat)).toList = decimal n.toNat := String.toList_ofList
  have plain : NoBoolean (String.ofList (decimal n.toNat)) :=
    noBoolean_of_digit (text.trans digits) (every d List.mem_cons_self)
  have integer := signed64?_decimal n.toNat
  by_cases small : n.toNat < signedLimit
  · have inRange : Text.inSigned64? (n.toNat : Int) = some (n.toNat : Int) :=
      if_pos ⟨by omega, by omega⟩
    rw [inRange, ← text] at integer
    have low : (0 : Int) ≤ n.toNat := by omega
    have read : (Node.integer n.toNat).toUnsigned? = some n := by
      rw [Node.toUnsigned?, if_pos low, Int.toNat_natCast, UInt64.ofNat_toNat]
    rw [ofVariable_integer plain integer, rounded, if_pos small]
    exact ⟨read, congrArg (Option.map some) read⟩
  · have outOfRange : Text.inSigned64? (n.toNat : Int) = none := if_neg (by omega)
    have float := Binary64.ofText?_decimal n.toNat
    rw [outOfRange, ← text] at integer
    rw [← text] at float
    have read : (Node.float (Binary64.ofDecimal false n.toNat 0)).toUnsigned? =
        some (rounded n) := by
      rw [Node.toUnsigned?, rounded, if_neg small,
        Binary64.toUInt64_ofDecimal (Nat.le_of_not_lt small) n.toNat_lt]
    rw [ofVariable_float plain integer float]
    exact ⟨read, congrArg (Option.map some) read⟩

/-! ### Addresses -/

theorem exists_text_v4 (ip : Ipv4) (port : UInt16) :
    ∃ rest, (SocketAddr.v4 ip port).text =
      decimal ip.a.toNat ++ '.' :: (decimal ip.b.toNat ++ '.' :: rest) := by
  simp only [SocketAddr.text, Ipv4.text, List.append_assoc, List.cons_append]
  exact ⟨_, rfl⟩

theorem exists_text_v6 (ip : Ipv6) (port : UInt16) (zone : UInt32) :
    ∃ rest, (SocketAddr.v6 ip port zone).text = '[' :: rest := by
  simp only [SocketAddr.text, List.cons_append]
  exact ⟨_, rfl⟩

theorem ofVariable_address (addr : SocketAddr) :
    ofVariable (String.ofList addr.text) = .text (String.ofList addr.text) := by
  have text : (String.ofList addr.text).toList = addr.text := String.toList_ofList
  cases addr with
  | v4 ip port =>
    obtain ⟨rest, spelled⟩ := exists_text_v4 ip port
    obtain ⟨d, ds, digits, every, -⟩ := Toml.exists_decimal ip.a.toNat
    have first := every d List.mem_cons_self
    have starts : (SocketAddr.v4 ip port).text =
        d :: (ds ++ '.' :: (decimal ip.b.toNat ++ '.' :: rest)) := by
      rw [spelled, digits, List.cons_append]
    have point : '.' ∈ d :: (ds ++ '.' :: (decimal ip.b.toNat ++ '.' :: rest)) :=
      List.mem_cons_of_mem d (List.mem_append_right ds List.mem_cons_self)
    apply ofVariable_text (noBoolean_of_digit (text.trans starts) first)
    · rw [text, starts]
      exact signed64?_eq_none (Text.ne_of_class first (by decide))
        (Text.ne_of_class first (by decide)) point (by decide)
    · -- One point would make a float of the first two numbers.
      rw [text, spelled]
      exact Binary64.ofText?_points Nat.toDigits_ne_nil
        (Text.isDigitOf_of_mem_decimal ip.a.toNat) (Text.isDigitOf_of_mem_decimal ip.b.toNat) rest
  | v6 ip port zone =>
    obtain ⟨rest, spelled⟩ := exists_text_v6 ip port zone
    apply ofVariable_text (noBoolean_of_head (text.trans spelled) (by decide) (by decide))
    · rw [text, spelled]
      exact signed64?_eq_none (by decide) (by decide) List.mem_cons_self (by decide)
    · rw [text, spelled,
        Binary64.ofText?_of_head (by decide) (by decide) (by decide) (by decide)]
      exact Binary64.ofWord?_of_head (by decide) (by decide) false rest

theorem toAddress?_ofVariable (addr : SocketAddr) :
    (ofVariable (String.ofList addr.text)).toAddress? = some addr := by
  rw [ofVariable_address, Node.toAddress?, Node.toText?, Option.bind_some, String.toList_ofList,
    SocketAddr.ofText?_text]

/-! ### Levels -/

/-- What becomes of a level: a truth value, an integer or a float is spelled as such, and any other
text stays. -/
def respelled (level : String) : String :=
  if level.toLower = "true" ∨ level.toLower = "false" then level.toLower
  else
    match Text.signed64? level.toList, Binary64.ofText? level.toList with
    | some i, _ => String.ofList (Text.decimalInt i)
    | none, some x => String.ofList x.text
    | none, none => level

theorem toText?_ofVariable (s : String) : (ofVariable s).toText? = some (respelled s) := by
  by_cases boolean : s.toLower = "true" ∨ s.toLower = "false"
  · rw [respelled, if_pos boolean]
    have differ : ¬"false" = "true" := by decide
    rcases boolean with isTrue | isFalse
    · simp only [ofVariable, isTrue, if_true, Node.toText?]
    · simp only [ofVariable, isFalse, if_neg differ, if_true, Node.toText?, Bool.false_eq_true,
        if_false]
  · have plain : NoBoolean s := not_or.mp boolean
    rw [respelled, if_neg boolean]
    cases integer : Text.signed64? s.toList with
    | some i => rw [ofVariable_integer plain integer, Node.toText?]
    | none =>
      cases float : Binary64.ofText? s.toList with
      | some x => rw [ofVariable_float plain integer float, Node.toText?]
      | none => rw [ofVariable_text plain integer float, Node.toText?]

end HolePunch.Settings
