import HolePunch.Text.Blank
import HolePunch.Wire.Word
import HolePunch.Text.Digits

/-!
# Bytes as hexadecimal text

Two digits for each byte, in lower case when written and in either case when read. A reader that is
meant for people also drops white space and one `0x` in front.
-/

namespace HolePunch.HexText

inductive Error where
  /-- The last byte has one digit. -/
  | oddLength
  /-- A byte of the text is no digit. -/
  | invalid (byte : UInt8) (position : Nat)
  deriving DecidableEq, Repr

/-- A byte as a quoted character of Latin-1, with an escape where it is not printable. -/
def quotedByte (b : UInt8) : String :=
  let n := b.toNat
  let body :=
    if n = 0 then "\\0"
    else if n = 9 then "\\t"
    else if n = 10 then "\\n"
    else if n = 13 then "\\r"
    else if n = 39 then "\\'"
    else if n = 92 then "\\\\"
    else if n < 32 || (127 ≤ n && n ≤ 160) || n = 173 then
      "\\u\x7b" ++ String.ofList (Text.hexNat n) ++ "\x7d"
    else String.singleton (Char.ofNat n)
  "'" ++ body ++ "'"

def Error.message : Error → String
  | .oddLength => "Odd number of digits"
  | .invalid byte position => s!"Invalid character {quotedByte byte} at position {position}"

def encode (bytes : Bytes) : List Char := bytes.flatMap Text.hexByte

def digit (byte : UInt8) (position : Nat) : Except Error Nat :=
  match Text.digitValue? (Char.ofNat byte.toNat) with
  | some value => .ok value
  | none => .error (.invalid byte position)

def decodePairs (position : Nat) : Bytes → Except Error Bytes
  | high :: low :: rest => do
    let h ← digit high position
    let l ← digit low (position + 1)
    let bytes ← decodePairs (position + 2) rest
    return UInt8.ofNat (16 * h + l) :: bytes
  | _ => .ok []

/-- The bytes that a text spells; the parity of its length comes first. -/
def decode (text : List Char) : Except Error Bytes :=
  let bytes := Text.utf8 text
  if bytes.length % 2 = 1 then .error .oddLength else decodePairs 0 bytes

/-- The text without one `0x` or `0X` in front. -/
def withoutMark : List Char → List Char
  | '0' :: 'x' :: rest => rest
  | '0' :: 'X' :: rest => rest
  | text => text

/-- The text without white space and then without one `0x` or `0X` in front. -/
def clean (text : List Char) : List Char := withoutMark (Text.withoutBlanks text)

end HolePunch.HexText
