import HolePunch.Toml.Scalar
import HolePunch.Toml.Table
import HolePunch.Toml.Text

/-!
# TOML documents

A document is read line by line: keys with values, headers, comments and blank lines. `parse` gives
the table that the document defines. Arrays and tables between braces may be nested up to a limit,
and so may the parts of a dotted key.
-/

namespace HolePunch.Toml

open Text (Parse)

/-- Arrays and braces may be nested so deep, and dotted keys have at most so many parts. -/
def nestingLimit : Nat := 79

/-! ### Keys -/

/-- True of what a key without quotes is made of. -/
def isBare (c : Char) : Bool := c.isAlphanum || c == '_' || c == '-'

/-- A key without dots: bare, or in quotes on one line. -/
def simpleKey : Parse String := fun s =>
  match s with
  | '"' :: rest => (basicRest rest).map fun (cs, rest) => (String.ofList cs, rest)
  | '\'' :: rest => (literalRest rest).map fun (cs, rest) => (String.ofList cs, rest)
  | s =>
    let bare := s.takeWhile isBare
    if bare = [] then none else some (String.ofList bare, s.dropWhile isBare)

/-- A key of at most so many parts between dots, and the blanks after it. -/
def dottedKey : (parts : Nat) → Parse KeyPath
  | 0, _ => none
  | parts + 1, s => do
    let (key, rest) ← simpleKey (skipBlanks s)
    match skipBlanks rest with
    | '.' :: rest =>
      let (path, rest) ← dottedKey parts rest
      return (⟨key :: path.parents, path.key⟩, rest)
    | rest => return (⟨[], key⟩, rest)

def keyPath : Parse KeyPath := dottedKey nestingLimit

/-! ### Values -/

/-- The items of an array up to the closing bracket, at most so many; a comma may follow the
last. -/
def arrayRest (item : Parse Value) : (most : Nat) → Parse (List Value)
  | 0, _ => none
  | most + 1, s =>
    match skipFiller false s with
    | ']' :: rest => some ([], rest)
    | s => do
      let (v, rest) ← item s
      match skipFiller false rest with
      | ']' :: rest => return ([v], rest)
      | ',' :: rest => do
        let (vs, rest) ← arrayRest item most rest
        return (v :: vs, rest)
      | _ => none

/-- A key, an equals sign and a value. -/
def pair (item : Parse Value) : Parse (KeyPath × Value) := fun s => do
  let (path, rest) ← keyPath s
  let ((), rest) ← Text.Parse.char '=' rest
  let (v, rest) ← item (skipBlanks rest)
  return ((path, v), rest)

/-- At least one and at most so many pairs up to the closing brace. -/
def pairsRest (item : Parse Value) : (most : Nat) → Parse (List (KeyPath × Value))
  | 0, _ => none
  | most + 1, s => do
    let (p, rest) ← pair item s
    match skipBlanks rest with
    | '}' :: rest => return ([p], rest)
    | ',' :: rest => do
      let (ps, rest) ← pairsRest item most rest
      return (p :: ps, rest)
    | _ => none

/-- The table between braces, after the opening one. -/
def bracedRest (item : Parse Value) : Parse Value := fun s => do
  let (pairs, rest) ← match skipBlanks s with
    | '}' :: rest => some ([], rest)
    | s => pairsRest item s.length s
  let entries ← Entries.ofPairs pairs
  return (.table .braced entries, rest)

/-- A value with arrays and braces nested at most so deep. -/
def value : (depth : Nat) → Parse Value
  | depth, s =>
    match s with
    | '[' :: rest =>
      match depth with
      | 0 => none
      | depth + 1 =>
        (arrayRest (value depth) rest.length rest).map fun (vs, rest) => (.array vs, rest)
    | '{' :: rest =>
      match depth with
      | 0 => none
      | depth + 1 => bracedRest (value depth) rest
    | 't' :: _ => Text.Parse.word (.boolean true) "true".toList s
    | 'f' :: _ => Text.Parse.word (.boolean false) "false".toList s
    | '"' :: _ => (string s).map fun (cs, rest) => (.string (String.ofList cs), rest)
    | '\'' :: _ => (string s).map fun (cs, rest) => (.string (String.ofList cs), rest)
    | s => numeric s

/-! ### Lines -/

inductive Section where
  /-- The document itself, before the first header. -/
  | top
  /-- The table of a header. -/
  | table (path : KeyPath)
  /-- A new item of an array of tables. -/
  | item (path : KeyPath)
  deriving DecidableEq, Repr

/-- What is known after some lines: the finished part of the document, and the section at hand with
its entries. -/
structure Progress where
  document : Entries
  current : Section
  entries : Entries

namespace Progress

/-- Before the first line. -/
def start : Progress := ⟨[], .top, []⟩

def close (p : Progress) : Option Entries :=
  match p.current with
  | .top => some p.entries
  | .table path => p.document.closeTable path p.entries
  | .item path => p.document.closeItem path p.entries

def openSection (p : Progress) : Section → Option Progress
  | .table path => do
    let (document, known) ← (← p.close).openTable path
    return ⟨document, .table path, known⟩
  | header => do return ⟨← p.close, header, []⟩

def add (p : Progress) (path : KeyPath) (v : Value) : Option Progress := do
  return { p with entries := ← p.entries.insert path v }

end Progress

/-- A header, if the text starts with a bracket. -/
def header : Parse Section
  | '[' :: '[' :: rest => do
    let (path, rest) ← keyPath rest
    Text.Parse.word (.item path) "]]".toList rest
  | '[' :: rest => do
    let (path, rest) ← keyPath rest
    Text.Parse.word (.table path) "]".toList rest
  | _ => none

/-- True of a character that a line without a key or a header starts with. -/
def startsEmptyLine (c : Char) : Bool := c == '#' || c == '\n' || c == '\r'

def line (p : Progress) (s : List Char) : Option (Progress × List Char) :=
  match s with
  | '[' :: _ => do
    let (found, rest) ← header s
    return (← p.openSection found, ← endLine rest)
  | c :: _ =>
    if startsEmptyLine c then do
      return (p, ← endLine s)
    else do
      let ((path, v), rest) ← pair (value nestingLimit) s
      return (← p.add path v, ← endLine rest)
  | [] => some (p, [])

/-- Reads at most so many lines, to the end of the text. -/
def lines : (most : Nat) → Progress → List Char → Option Progress
  | most, p, s =>
    match skipBlanks s with
    | [] => some p
    | s =>
      match most with
      | 0 => none
      | most + 1 => do
        let (p, rest) ← line p s
        lines most p rest

/-- The text after a byte order mark at its front, if there is one. -/
def dropByteOrderMark : List Char → List Char
  | '\ufeff' :: rest => rest
  | s => s

/-- The table that a document defines, or nothing if it is not a TOML document. -/
def parse (s : List Char) : Option Entries := do
  let text := dropByteOrderMark s
  let progress ← lines text.length .start text
  progress.close

end HolePunch.Toml
