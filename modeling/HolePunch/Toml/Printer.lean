import HolePunch.Text.Digits

/-!
# Writing TOML

A string is written in the first form that shows it as it is: basic, literal, and then the two forms
on several lines. If none does it is written with escapes, on several lines if it has line ends.
Tabs are escaped in basic strings, and in one on several lines every third quote of a run is.
-/

namespace HolePunch.Toml

inductive StringForm where
  | basic
  | literal
  | multilineBasic
  | multilineLiteral
  deriving DecidableEq, Repr

/-- True of what only an escape can show: control characters, tabs and line feeds apart. -/
def isControl (c : Char) : Bool :=
  (c.toNat < 0x20 && c != '\t' && c != '\n') || c.toNat == 0x7f

def hasThree (c : Char) : List Char → Bool
  | x :: y :: z :: rest => (x == c && y == c && z == c) || hasThree c (y :: z :: rest)
  | _ => false

/-- The first form that suits a text. -/
def formOf (s : List Char) : StringForm :=
  let control := s.any isControl
  let manyLines := s.contains '\n'
  if !control && !manyLines && !s.contains '\\' && !s.contains '"' then .basic
  else if !control && !manyLines && !s.contains '\'' then .literal
  else if !control && !s.contains '\\' && !hasThree '"' s then .multilineBasic
  else if !control && !hasThree '\'' s then .multilineLiteral
  else if manyLines then .multilineBasic
  else .basic

def hex4 (n : Nat) : List Char :=
  [n / 4096, n / 256, n / 16, n].map fun d => Text.upperHexDigit (d % 16)

/-- A character of a basic string, where quotes and line ends are left to the caller. -/
def escapedChar (c : Char) : List Char :=
  if c = '\x08' then ['\\', 'b']
  else if c = '\t' then ['\\', 't']
  else if c = '\x0c' then ['\\', 'f']
  else if c = '\r' then ['\\', 'r']
  else if c = '\\' then ['\\', '\\']
  else if isControl c then '\\' :: 'u' :: hex4 c.toNat
  else [c]

def basicBody (s : List Char) : List Char :=
  s.flatMap fun c =>
    if c = '"' then ['\\', '"'] else if c = '\n' then ['\\', 'n'] else escapedChar c

/-- The inside of a basic string on several lines, after so many quotes that were not escaped. -/
def multilineBody (quotes : Nat) : List Char → List Char
  | [] => []
  | c :: rest =>
    if c = '"' then
      if quotes = 2 then '\\' :: '"' :: multilineBody 0 rest
      else '"' :: multilineBody (quotes + 1) rest
    else escapedChar c ++ multilineBody 0 rest

/-- A delimiter of three quotes on both sides of a text, where a text with line ends starts on a
line of its own. -/
def betweenThree (quote : Char) (s body : List Char) : List Char :=
  let quotes := List.replicate 3 quote
  quotes ++ (if s.contains '\n' then ['\n'] else []) ++ body ++ quotes

def stringIn (form : StringForm) (s : List Char) : List Char :=
  match form with
  | .basic => '"' :: basicBody s ++ ['"']
  | .literal => '\'' :: s ++ ['\'']
  | .multilineBasic => betweenThree '"' s (multilineBody 0 s)
  | .multilineLiteral => betweenThree '\'' s s

def stringText (s : List Char) : List Char := stringIn (formOf s) s

def booleanText (b : Bool) : List Char := (if b then "true" else "false").toList

def keyLine (key : String) (value : List Char) : List Char :=
  key.toList ++ ' ' :: '=' :: ' ' :: value ++ ['\n']

def headerLine (key : String) : List Char := '[' :: key.toList ++ [']', '\n']

end HolePunch.Toml
