import HolePunch.Binary64.Basic
import HolePunch.Text.Digits

/-!
# Double-precision numbers as text

A number is written with the fewest digits that read back as it, of those the nearest, and always
positionally, without an exponent. A text is read as decimal digits with an optional point and an
optional exponent, or as a word for infinity or for NaN.
-/

namespace HolePunch.Binary64

/-! ### Writing -/

/-- A multiple of a power of ten: `factor * 10 ^ power`. -/
structure Decimal where
  factor : Nat
  power : Int
  deriving DecidableEq, Repr

/-- The decimal of the grid `10 ^ power` that reads back as the value and is nearest to it, the
larger of two equally near. Distances are counted in quarters of the last place. -/
def onGrid (mantissa : Nat) (exponent power : Int) : Option Decimal :=
  let scale (quarters : Nat) : Nat :=
    quarters * powerPart 2 (exponent - 2) * powerPart 10 (-power)
  let unit := powerPart 10 power * powerPart 2 (2 - exponent)
  let value := scale (4 * mantissa)
  let narrow := mantissa = mantissaBound / 2 ∧ minExponent < exponent
  let low := scale (4 * mantissa - if narrow then 1 else 2)
  let high := scale (4 * mantissa + 2)
  let inside (x : Nat) : Bool :=
    if mantissa % 2 = 0 then low ≤ x * unit && x * unit ≤ high
    else low < x * unit && x * unit < high
  let below := value / unit
  let above := below + 1
  let preferAbove := above * unit - value ≤ value - below * unit
  if inside above && (preferAbove || !inside below) then some ⟨above, power⟩
  else if inside below then some ⟨below, power⟩
  else none

def gridPowers : List Int := (List.range 640).map fun (i : Nat) => 310 - (i : Int)

/-- The decimal with the fewest digits that reads back as a value. -/
def shortest (mantissa : Nat) (exponent : Int) : Decimal :=
  (gridPowers.findSome? (onGrid mantissa exponent)).getD ⟨0, 0⟩

def Decimal.text (d : Decimal) : List Char :=
  let digits := Text.decimal d.factor
  if 0 ≤ d.power then
    digits ++ List.replicate d.power.toNat '0'
  else
    let places := (-d.power).toNat
    let padded := List.replicate (places + 1 - digits.length) '0' ++ digits
    padded.take (padded.length - places) ++ '.' :: padded.drop (padded.length - places)

def text : Binary64 → List Char
  | .nan => "NaN".toList
  | .infinite negative => if negative then "-inf".toList else "inf".toList
  | .finite negative mantissa exponent =>
    let magnitude := if mantissa = 0 then ['0'] else (shortest mantissa exponent).text
    if negative then '-' :: magnitude else magnitude

/-! ### Reading -/

def splitSign : List Char → Bool × List Char
  | '-' :: rest => (true, rest)
  | '+' :: rest => (false, rest)
  | s => (false, s)

/-- The value of the digits after an exponent mark. -/
def exponent? (s : List Char) : Option Int :=
  let (negative, digits) := splitSign s
  (Text.digitsNat? digits).map fun n => if negative then -(n : Int) else n

def ofParts (negative : Bool) (whole fraction rest : List Char) : Option Binary64 :=
  let value (power : Int) : Binary64 :=
    ofDecimal negative (Text.valueOf 10 (whole ++ fraction)) (power - fraction.length)
  if whole = [] ∧ fraction = [] then none
  else
    match rest with
    | [] => some (value 0)
    | mark :: s => if mark = 'e' ∨ mark = 'E' then (exponent? s).map value else none

def ofDigits? (negative : Bool) (s : List Char) : Option Binary64 :=
  let whole := s.takeWhile (Text.isDigitOf 10)
  match s.dropWhile (Text.isDigitOf 10) with
  | '.' :: rest =>
    ofParts negative whole (rest.takeWhile (Text.isDigitOf 10)) (rest.dropWhile (Text.isDigitOf 10))
  | rest => ofParts negative whole [] rest

/-- The number that a word stands for, in any case. -/
def ofWord? (negative : Bool) (s : List Char) : Option Binary64 :=
  let word := s.map Char.toLower
  if word = "inf".toList ∨ word = "infinity".toList then some (.infinite negative)
  else if word = "nan".toList then some .nan
  else none

def ofText? (s : List Char) : Option Binary64 :=
  let (negative, rest) := splitSign s
  (ofDigits? negative rest).or (ofWord? negative rest)

end HolePunch.Binary64
