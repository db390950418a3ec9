import HolePunch.Binary64.Basic
import HolePunch.Text.Digits

/-!
# TOML values

A document is a table: keys in the order in which they came, each once. A table also remembers how
it was defined, because that decides what may still be added to it.
-/

namespace HolePunch.Toml

structure Date where
  year : Nat
  month : Nat
  day : Nat
  deriving DecidableEq, Repr

/-- A time of day; a second may be a leap second. -/
structure Time where
  hour : Nat
  minute : Nat
  second : Nat
  nanosecond : Nat
  deriving DecidableEq, Repr

inductive Offset where
  | utc
  | minutes (n : Int)
  deriving DecidableEq, Repr

/-- A date, a time, or both with or without an offset. -/
structure Datetime where
  date : Option Date
  time : Option Time
  offset : Option Offset
  deriving DecidableEq, Repr

inductive TableForm where
  /-- By a header of its own, or as the document. -/
  | header
  /-- By a header of a table inside it. -/
  | implied
  /-- By a dotted key. -/
  | dotted
  /-- Between braces. -/
  | braced
  deriving DecidableEq, Repr

inductive Value where
  | string (s : String)
  | integer (i : Int)
  | float (x : Binary64)
  | boolean (b : Bool)
  | datetime (d : Datetime)
  | array (items : List Value)
  /-- Tables that were added one at a time by headers in double brackets. -/
  | tables (items : List Value)
  | table (form : TableForm) (entries : List (String × Value))

abbrev Entries := List (String × Value)

/-- A number in at least `width` digits. -/
def paddedDecimal (width n : Nat) : List Char :=
  List.replicate (width - (Text.decimal n).length) '0' ++ Text.decimal n

/-- Year, month and day between hyphens. -/
def Date.text (d : Date) : List Char :=
  paddedDecimal 4 d.year ++ '-' :: paddedDecimal 2 d.month ++ '-' :: paddedDecimal 2 d.day

/-- The fraction of a second, without the zeros at the end, or nothing. -/
def fractionText (nanosecond : Nat) : List Char :=
  if nanosecond = 0 then []
  else '.' :: ((paddedDecimal 9 nanosecond).reverse.dropWhile (· == '0')).reverse

/-- Hour, minute and second between colons, and the fraction. -/
def Time.text (t : Time) : List Char :=
  paddedDecimal 2 t.hour ++ ':' :: paddedDecimal 2 t.minute ++ ':' :: paddedDecimal 2 t.second ++
    fractionText t.nanosecond

/-- `Z`, or a sign with hours and minutes. -/
def Offset.text : Offset → List Char
  | .utc => ['Z']
  | .minutes n =>
    (if n < 0 then '-' else '+') :: paddedDecimal 2 (n.natAbs / 60) ++
      ':' :: paddedDecimal 2 (n.natAbs % 60)

/-- The parts that are there, a date and a time with a `T` between them. -/
def Datetime.text (d : Datetime) : List Char :=
  let date := (d.date.map Date.text).getD []
  let time := (d.time.map Time.text).getD []
  let mark := if d.date.isSome && d.time.isSome then ['T'] else []
  date ++ mark ++ time ++ (d.offset.map Offset.text).getD []

end HolePunch.Toml
