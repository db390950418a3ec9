/-!
# Double-precision numbers

The values of the binary64 format, held exactly: a sign, a mantissa and a power of two. `ofRatio`
rounds a quotient to the nearest of them, to the even mantissa when two are equally near.
-/

namespace HolePunch

/-- A value of the binary64 format; a finite one is `mantissa * 2 ^ exponent`. -/
inductive Binary64 where
  | nan
  | infinite (negative : Bool)
  | finite (negative : Bool) (mantissa : Nat) (exponent : Int)
  deriving DecidableEq, Repr

namespace Binary64

/-- The least exponent. -/
def minExponent : Int := -1074

def maxExponent : Int := 971

/-- Mantissas have 53 bits, so they are below this number. -/
def mantissaBound : Nat := 9007199254740992

def zero (negative : Bool) : Binary64 := .finite negative 0 minExponent

/-- The power of a base for an exponent above zero, and one otherwise. -/
def powerPart (base : Nat) (n : Int) : Nat := Nat.pow base n.toNat

/-- The nearest integer to a quotient, the even one of two. -/
def roundDiv (num den : Nat) : Nat :=
  let q := num / den
  let twice := 2 * (num % den)
  if den < twice ∨ (twice = den ∧ q % 2 = 1) then q + 1 else q

/-- The nearest mantissa for a quotient at an exponent. -/
def mantissaAt (num den : Nat) (exponent : Int) : Nat :=
  roundDiv (num * powerPart 2 (-exponent)) (den * powerPart 2 exponent)

/-- The exponent at which the mantissa of a quotient has its full width, or the least one. -/
def exponentOf (num den : Nat) : Int :=
  let guess := max minExponent ((num.log2 : Int) - den.log2 - 53)
  let whole := num * powerPart 2 (-guess) / (den * powerPart 2 guess)
  if mantissaBound ≤ whole then guess + 1 else guess

/-- The nearest value to a quotient. -/
def ofRatio (negative : Bool) (num den : Nat) : Binary64 :=
  if num = 0 then
    zero negative
  else
    let exponent := exponentOf num den
    let mantissa := mantissaAt num den exponent
    let (mantissa, exponent) :=
      if mantissa = mantissaBound then (mantissaBound / 2, exponent + 1) else (mantissa, exponent)
    if maxExponent < exponent then .infinite negative else .finite negative mantissa exponent

/-- The nearest value to `digits * 10 ^ power`. Powers far outside the range are not computed. -/
def ofDecimal (negative : Bool) (digits : Nat) (power : Int) : Binary64 :=
  let magnitude : Int := (Nat.toDigits 10 digits).length + power
  if digits = 0 ∨ magnitude < -330 then zero negative
  else if 310 < magnitude then .infinite negative
  else ofRatio negative (digits * powerPart 10 power) (powerPart 10 (-power))

def isZero : Binary64 → Bool
  | .finite _ mantissa _ => mantissa == 0
  | _ => false

/-- The nearest whole number of 64 bits, a half away from zero; NaN gives zero. -/
def toUInt64 : Binary64 → UInt64
  | .nan => 0
  | .infinite negative => if negative then 0 else UInt64.ofNat (UInt64.size - 1)
  | .finite negative mantissa exponent =>
    let den := powerPart 2 (-exponent)
    let nearest := (2 * mantissa * powerPart 2 exponent + den) / (2 * den)
    if negative then 0 else UInt64.ofNat (min nearest (UInt64.size - 1))

end Binary64

end HolePunch
