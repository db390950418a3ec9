import HolePunch.Binary64.Text
import HolePunch.Toml.Blank
import HolePunch.Toml.Value

/-!
# TOML numbers and dates

Digits may be separated by single underscores. A decimal number starts with a zero only if that is
its whole part; other bases have no sign. Integers are in the signed 64-bit range, and a float that
is too large above zero is refused. A date must be a day of the calendar.
-/

namespace HolePunch.Toml

open Text (Parse)

/-! ### Numbers -/

/-- Digits of a base, where a single underscore may stand between two. -/
def digitRun (base : Nat) : List Char → List Char × List Char
  | c :: rest =>
    if Text.isDigitOf base c then
      match rest with
      | '_' :: d :: rest' =>
        if Text.isDigitOf base d then
          let (digits, after) := digitRun base (d :: rest')
          (c :: digits, after)
        else
          ([c], '_' :: d :: rest')
      | rest =>
        let (digits, after) := digitRun base rest
        (c :: digits, after)
    else
      ([], c :: rest)
  | [] => ([], [])

/-- At least one digit of a base. -/
def digits (base : Nat) : Parse (List Char) := fun s =>
  match digitRun base s with
  | ([], _) => none
  | found => some found

/-- The whole part of a decimal number: a sign, and a zero or digits that start with none. -/
def wholePart : Parse (Bool × List Char) := fun s =>
  let (negative, rest) := Binary64.splitSign s
  match rest with
  | '0' :: rest => some ((negative, ['0']), rest)
  | rest => (digits 10 rest).map fun (ds, after) => ((negative, ds), after)

def basedInteger (base : Nat) : Parse Int := fun s => do
  let (ds, rest) ← digits base s
  let i ← Text.inSigned64? (Text.valueOf base ds)
  return (i, rest)

/-- An integer, in decimal or in another base after its mark. -/
def integer : Parse Int
  | '0' :: 'x' :: rest => basedInteger 16 rest
  | '0' :: 'o' :: rest => basedInteger 8 rest
  | '0' :: 'b' :: rest => basedInteger 2 rest
  | s => do
    let ((negative, ds), rest) ← wholePart s
    let n := Text.valueOf 10 ds
    let i ← Text.inSigned64? (if negative then -(n : Int) else n)
    return (i, rest)

/-- The digits after a point. -/
def fraction : Parse (List Char)
  | '.' :: rest => digits 10 rest
  | _ => none

/-- The exponent after its mark. -/
def exponent : Parse Int
  | mark :: rest =>
    if mark = 'e' ∨ mark = 'E' then do
      let (negative, rest) := Binary64.splitSign rest
      let (ds, rest) ← digits 10 rest
      let n := Text.valueOf 10 ds
      return (if negative then -(n : Int) else n, rest)
    else none
  | [] => none

/-- A float in digits: it has a fraction, an exponent or both. -/
def floatInDigits : Parse Binary64 := fun s => do
  let ((negative, whole), rest) ← wholePart s
  let value (fraction : List Char) (power : Int) : Binary64 :=
    Binary64.ofDecimal negative (Text.valueOf 10 (whole ++ fraction)) (power - fraction.length)
  let (x, rest) ← match fraction rest with
    | some (ds, rest) =>
      let (power, rest) := (exponent rest).getD (0, rest)
      some (value ds power, rest)
    | none => (exponent rest).map fun (power, rest) => (value [] power, rest)
  if x = .infinite false then none else return (x, rest)

/-- Infinity or NaN, with a sign or without. -/
def floatInWords : Parse Binary64 := fun s =>
  let (negative, rest) := Binary64.splitSign s
  (Text.Parse.word (Binary64.infinite negative) "inf".toList rest).or
    (Text.Parse.word Binary64.nan "nan".toList rest)

/-! ### Dates and times -/

/-- A number in exactly two digits, in a range. -/
def twoDigits (least most : Nat) : Parse Nat
  | a :: b :: rest =>
    let n := Text.valueOf 10 [a, b]
    if Text.isDigitOf 10 a && Text.isDigitOf 10 b && least ≤ n && n ≤ most then some (n, rest)
    else none
  | _ => none

def isLeapYear (year : Nat) : Bool := year % 4 == 0 && (year % 100 != 0 || year % 400 == 0)

def daysIn (year month : Nat) : Nat :=
  if month = 2 then if isLeapYear year then 29 else 28
  else if month ∈ [4, 6, 9, 11] then 30
  else 31

def date : Parse Date := fun s => do
  let (century, s) ← twoDigits 0 99 s
  let (year, s) ← twoDigits 0 99 s
  let year := 100 * century + year
  let ((), s) ← Text.Parse.char '-' s
  let (month, s) ← twoDigits 1 12 s
  let ((), s) ← Text.Parse.char '-' s
  let (day, s) ← twoDigits 1 31 s
  if day ≤ daysIn year month then return (⟨year, month, day⟩, s) else none

/-- The nanoseconds after a point; more than nine digits are cut off. -/
def secondFraction : Parse Nat
  | '.' :: rest =>
    let ds := rest.takeWhile (Text.isDigitOf 10)
    if ds = [] then none
    else
      let kept := ds.take 9
      let scale := Nat.pow 10 (9 - kept.length)
      some (Text.valueOf 10 kept * scale, rest.dropWhile (Text.isDigitOf 10))
  | _ => none

def time : Parse Time := fun s => do
  let (hour, s) ← twoDigits 0 23 s
  let ((), s) ← Text.Parse.char ':' s
  let (minute, s) ← twoDigits 0 59 s
  let ((), s) ← Text.Parse.char ':' s
  let (second, s) ← twoDigits 0 60 s
  let (nanosecond, s) := (secondFraction s).getD (0, s)
  return (⟨hour, minute, second, nanosecond⟩, s)

def offset : Parse Offset
  | 'Z' :: rest => some (.utc, rest)
  | 'z' :: rest => some (.utc, rest)
  | sign :: rest =>
    if sign = '+' ∨ sign = '-' then do
      let (hours, rest) ← twoDigits 0 23 rest
      let ((), rest) ← Text.Parse.char ':' rest
      let (minutes, rest) ← twoDigits 0 59 rest
      let n : Int := 60 * hours + minutes
      return (.minutes (if sign = '-' then -n else n), rest)
    else none
  | [] => none

/-- What follows a date: a `T` or a blank, a time, and perhaps an offset. -/
def timeAfterDate : Parse (Time × Option Offset)
  | mark :: rest =>
    if mark = 'T' ∨ mark = 't' ∨ mark = ' ' then do
      let (t, rest) ← time rest
      match offset rest with
      | some (o, rest) => return ((t, some o), rest)
      | none => return ((t, none), rest)
    else none
  | [] => none

/-- A date, a time, or both. -/
def datetime : Parse Datetime := fun s =>
  match date s with
  | some (d, rest) =>
    match timeAfterDate rest with
    | some ((t, o), rest) => some (⟨some d, some t, o⟩, rest)
    | none => some (⟨some d, none, none⟩, rest)
  | none => (time s).map fun (t, rest) => (⟨none, some t, none⟩, rest)

/-- A number or a date, which start alike. -/
def numeric : Parse Value := fun s =>
  ((datetime s).map fun (d, rest) => (Value.datetime d, rest)).or <|
  ((floatInDigits s).map fun (x, rest) => (Value.float x, rest)).or <|
  ((floatInWords s).map fun (x, rest) => (Value.float x, rest)).or <|
  (integer s).map fun (i, rest) => (Value.integer i, rest)

end HolePunch.Toml
