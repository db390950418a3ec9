import HolePunch.Binary64.Text
import HolePunch.Text.Alphanumeric
import HolePunch.Text.Blank

/-!
# Log filters

A filter is a list of directives between commas. A directive is a level, or a target, a span in
brackets or both, and may end in an equals sign and a level; a span may have fields in braces. Only
whether a text is a filter is decided here.
-/

namespace HolePunch.LogFilter

def levelNames : List String := ["off", "error", "warn", "info", "debug", "trace"]

/-- True of a level: a name in any case, or a number from nothing to everything. -/
def isLevel (s : List Char) : Bool :=
  levelNames.contains (String.ofList s).toLower || (Text.unsigned? 5 s).isSome

/-! ### Patterns of fields -/

structure PatternState where
  /-- How many groups are open. -/
  groups : Nat
  /-- True after something that can be repeated. -/
  operand : Bool
  /-- True inside a class of characters. -/
  inClass : Bool
  /-- True after a backslash. -/
  escaped : Bool

/-- The state after a character, if the pattern can go on. -/
def PatternState.step (p : PatternState) (c : Char) : Option PatternState :=
  if p.escaped then some { p with escaped := false, operand := true }
  else if c = '\\' then some { p with escaped := true }
  else if p.inClass then some { p with inClass := c != ']', operand := true }
  else if c = '[' then some { p with inClass := true }
  else if c = '(' then some { p with groups := p.groups + 1, operand := false }
  else if c = ')' then
    if p.groups = 0 then none else some { p with groups := p.groups - 1, operand := true }
  else if c = '|' then some { p with operand := false }
  else if c = '*' ∨ c = '+' ∨ c = '?' then if p.operand then some p else none
  else if c = '\x7b' then none
  else some { p with operand := true }

/-- True of a pattern whose groups and classes are closed and whose repetitions repeat something. -/
def isPattern (s : List Char) : Bool :=
  match s.foldlM PatternState.step ⟨0, false, false, false⟩ with
  | some p => p.groups == 0 && !p.inClass && !p.escaped
  | none => false

/-- True of a value that a field can be compared with: a truth value, a number or a pattern. -/
def isFieldValue (s : List Char) : Bool :=
  s == "true".toList || s == "false".toList || (Binary64.ofText? s).isSome || isPattern s

/-- True of a field: a name, and perhaps a value after an equals sign. -/
def isField (s : List Char) : Bool :=
  match (s.dropWhile (· != '=')).drop 1 with
  | [] => !s.isEmpty
  | value => isFieldValue (value.takeWhile (· != '='))

/-! ### Directives -/

inductive Place where
  | start
  /-- In a level or a target. -/
  | target
  /-- In a span, before its fields. -/
  | span
  /-- In a field, after these characters, the last one first. -/
  | field (read : List Char)
  /-- After the fields. -/
  | fields
  /-- After a span. -/
  | spanEnd
  /-- After the equals sign, and these characters, the last one first. -/
  | level (read : List Char)

/-- The place after a character, if the directive can go on. -/
def Place.step (place : Place) (c : Char) : Option Place :=
  match place with
  | .start =>
    if c = '[' then some .span
    else if c ∈ ['-', ':', '_'] ∨ Text.isAlphanumeric c then some .target
    else none
  | .target => if c = '=' then some (.level []) else if c = '[' then some .span else some .target
  | .span =>
    if c = ']' then some .spanEnd else if c = '\x7b' then some (.field []) else some .span
  | .field read =>
    if c = '\x7d' then if isField read.reverse then some .fields else none
    else some (.field (c :: read))
  | .fields => if c = ']' then some .spanEnd else none
  | .spanEnd => if c = '=' then some (.level []) else none
  | .level read => some (.level (c :: read))

/-- True of a directive. White space around one is not part of it, except that a level must stand
alone. -/
def isDirective (s : List Char) : Bool :=
  let body := Text.trim s
  match body.foldlM Place.step .start with
  | some .target | some .spanEnd => true
  | some (.level read) => s == body && (read.isEmpty || isLevel read.reverse)
  | _ => false

def parts (s : List Char) : List (List Char) :=
  s.foldr (fun c found =>
    if c = ',' then [] :: found
    else match found with
      | part :: rest => (c :: part) :: rest
      | [] => [[c]]) [[]]

def isFilter (s : List Char) : Bool := s.isEmpty || (parts s).all isDirective

end HolePunch.LogFilter
