/-!
# Digits

Numbers in text: decimal and hexadecimal digits, the number that a run of digits spells, and
columns of a fixed width. Texts that are read or proved about are lists of characters.
-/

namespace HolePunch.Text

def decimal (n : Nat) : List Char := Nat.toDigits 10 n

/-- The decimal digits of an integer, with a minus sign below zero. -/
def decimalInt : Int → List Char
  | .ofNat n => decimal n
  | .negSucc n => '-' :: decimal (n + 1)

/-- The value of a character as a digit up to `f`, in either case. -/
def digitValue? (c : Char) : Option Nat :=
  if '0' ≤ c ∧ c ≤ '9' then some (c.toNat - '0'.toNat)
  else if 'a' ≤ c ∧ c ≤ 'f' then some (c.toNat - 'a'.toNat + 10)
  else if 'A' ≤ c ∧ c ≤ 'F' then some (c.toNat - 'A'.toNat + 10)
  else none

/-- True of the digits of a base up to sixteen. -/
def isDigitOf (base : Nat) (c : Char) : Bool := (digitValue? c).any (· < base)

/-- The number that digits of a base spell; other characters count as zero. -/
def valueOf (base : Nat) (digits : List Char) : Nat :=
  digits.foldl (fun n c => base * n + (digitValue? c).getD 0) 0

def hexDigit (n : Nat) : Char := Nat.digitChar n

def upperHexDigit (n : Nat) : Char := (Nat.digitChar n).toUpper

/-- A number in lower-case hexadecimal, without leading zeros. -/
def hexNat (n : Nat) : List Char := Nat.toDigits 16 n

def hexByte (b : UInt8) : List Char := [hexDigit (b.toNat / 16), hexDigit (b.toNat % 16)]

/-- A byte after `0x`, in two lower-case hexadecimal digits. -/
def tagText (b : UInt8) : String := "0x" ++ String.ofList (hexByte b)

/-- Blanks before a text, up to a width. -/
def padLeft (width : Nat) (s : List Char) : List Char :=
  List.replicate (width - s.length) ' ' ++ s

/-- Blanks after a text, up to a width. -/
def padRight (width : Nat) (s : List Char) : List Char :=
  s ++ List.replicate (width - s.length) ' '

/-- A non-empty run of digits, alone, as a number. -/
def digitsNat? (s : List Char) : Option Nat :=
  if s ≠ [] ∧ s.all (isDigitOf 10) then some (valueOf 10 s) else none

/-- A number of at most `max`, in decimal with an optional plus sign. -/
def unsigned? (max : Nat) (s : List Char) : Option Nat :=
  let digits := match s with
    | '+' :: rest => rest
    | s => s
  (digitsNat? digits).filter (· ≤ max)

/-- The first natural number that is too large for a signed 64-bit integer. -/
def signedLimit : Nat := 9223372036854775808

/-- The integer, if it is in the signed 64-bit range. -/
def inSigned64? (i : Int) : Option Int :=
  if -(signedLimit : Int) ≤ i ∧ i < signedLimit then some i else none

/-- An integer of the signed 64-bit range, in decimal with an optional sign. -/
def signed64? (s : List Char) : Option Int :=
  let value : Option Int := match s with
    | '-' :: rest => (digitsNat? rest).map fun n => -(n : Int)
    | '+' :: rest => (digitsNat? rest).map Int.ofNat
    | s => (digitsNat? s).map Int.ofNat
  value.bind inSigned64?

end HolePunch.Text
