import HolePunch.Text.Digits
import HolePunch.Toml.Blank

/-!
# TOML strings

The four forms of a string: basic and literal, each on one line or on several. Only basic strings
have escapes. A string on several lines may start with a line end, which is dropped, and may end in
up to two quotes of its own before the three that close it.
-/

namespace HolePunch.Toml

open Text (Parse)

def isBasic (c : Char) : Bool := isPlain c && c != '"' && c != '\\'

/-- True of what may stand in a literal string. -/
def isLiteral (c : Char) : Bool := isPlain c && c != '\''

/-- The character whose number is written in so many hexadecimal digits. -/
def scalar (width : Nat) : Parse Char := fun s =>
  let digits := s.take width
  let value := Text.valueOf 16 digits
  if digits.length = width ∧ digits.all (Text.isDigitOf 16) ∧ value.isValidChar then
    some (Char.ofNat value, s.drop width)
  else
    none

/-- The character that an escape stands for, after the backslash. -/
def escape : Parse Char
  | 'b' :: rest => some ('\x08', rest)
  | 't' :: rest => some ('\t', rest)
  | 'n' :: rest => some ('\n', rest)
  | 'f' :: rest => some ('\x0c', rest)
  | 'r' :: rest => some ('\r', rest)
  | '"' :: rest => some ('"', rest)
  | '\\' :: rest => some ('\\', rest)
  | 'u' :: rest => scalar 4 rest
  | 'U' :: rest => scalar 8 rest
  | _ => none

/-- The text after a line end and the blank lines that follow it, after a backslash. -/
def joinLines (s : List Char) : Option (List Char) :=
  match skipBlanks s with
  | '\n' :: rest => some (skipLines rest)
  | '\r' :: '\n' :: rest => some (skipLines rest)
  | _ => none

theorem length_scalar_le {width : Nat} {s rest : List Char} {c : Char}
    (h : scalar width s = some (c, rest)) : rest.length ≤ s.length := by
  unfold scalar at h
  dsimp only at h
  split at h
  · cases h; simp
  · cases h

theorem length_escape_le {s rest : List Char} {c : Char} (h : escape s = some (c, rest)) :
    rest.length ≤ s.length := by
  unfold escape at h
  split at h
  case h_8 => exact Nat.le_succ_of_le (length_scalar_le h)
  case h_9 => exact Nat.le_succ_of_le (length_scalar_le h)
  all_goals cases h
  all_goals simp

theorem length_joinLines_le {s rest : List Char} (h : joinLines s = some rest) :
    rest.length ≤ s.length := by
  have shorter : (skipBlanks s).length ≤ s.length := (List.dropWhile_sublist _).length_le
  unfold joinLines at h
  split at h
  · rename_i r found
    cases h
    have := length_skipLines_le r
    simp only [found, List.length_cons] at shorter
    omega
  · rename_i r found
    cases h
    have := length_skipLines_le r
    simp only [found, List.length_cons] at shorter
    omega
  · cases h

def consFound (c : Char) (found : Option (List Char × List Char)) :
    Option (List Char × List Char) :=
  found.map fun (cs, rest) => (c :: cs, rest)

/-- The rest of a basic string, after the opening quote. -/
def basicRest (s : List Char) : Option (List Char × List Char) :=
  match s with
  | [] => none
  | '"' :: rest => some ([], rest)
  | '\\' :: rest =>
    match found : escape rest with
    | some (c, rest') =>
      have : rest'.length ≤ rest.length := length_escape_le found
      consFound c (basicRest rest')
    | none => none
  | c :: rest => if isBasic c then consFound c (basicRest rest) else none
termination_by s.length
decreasing_by all_goals simp only [List.length_cons]; omega

/-- The rest of a literal string, after the opening quote. -/
def literalRest : Parse (List Char) := fun s =>
  match s.dropWhile isLiteral with
  | '\'' :: rest => some (s.takeWhile isLiteral, rest)
  | _ => none

/-- The quotes of its own at the end of a string, after the first three of the run. -/
def ownQuotes (quote : Char) : List Char → List Char × List Char
  | a :: b :: rest =>
    if a = quote then
      if b = quote then ([a, b], rest) else ([a], b :: rest)
    else ([], a :: b :: rest)
  | [a] => if a = quote then ([a], []) else ([], [a])
  | [] => ([], [])

/-- The rest of a basic string on several lines, after the opening quotes. -/
def multilineBasicRest (s : List Char) : Option (List Char × List Char) :=
  match s with
  | [] => none
  | '"' :: '"' :: '"' :: rest => some (ownQuotes '"' rest)
  | '"' :: rest => consFound '"' (multilineBasicRest rest)
  | '\n' :: rest => consFound '\n' (multilineBasicRest rest)
  | '\r' :: '\n' :: rest => consFound '\n' (multilineBasicRest rest)
  | '\\' :: rest =>
    match joined : joinLines rest with
    | some rest' =>
      have : rest'.length ≤ rest.length := length_joinLines_le joined
      multilineBasicRest rest'
    | none =>
      match found : escape rest with
      | some (c, rest') =>
        have : rest'.length ≤ rest.length := length_escape_le found
        consFound c (multilineBasicRest rest')
      | none => none
  | c :: rest => if isBasic c then consFound c (multilineBasicRest rest) else none
termination_by s.length
decreasing_by all_goals simp only [List.length_cons]; omega

/-- The rest of a literal string on several lines, after the opening quotes. -/
def multilineLiteralRest : Parse (List Char)
  | [] => none
  | '\'' :: '\'' :: '\'' :: rest => some (ownQuotes '\'' rest)
  | '\'' :: rest => consFound '\'' (multilineLiteralRest rest)
  | '\n' :: rest => consFound '\n' (multilineLiteralRest rest)
  | '\r' :: '\n' :: rest => consFound '\n' (multilineLiteralRest rest)
  | c :: rest => if isLiteral c then consFound c (multilineLiteralRest rest) else none

/-- The text after a line end at its front, if there is one. -/
def dropLineEnd : List Char → List Char
  | '\n' :: rest => rest
  | '\r' :: '\n' :: rest => rest
  | s => s

/-- A string in any of the four forms, or nothing if the text does not start with a quote. -/
def string : Parse (List Char)
  | '"' :: '"' :: '"' :: rest => multilineBasicRest (dropLineEnd rest)
  | '"' :: rest => basicRest rest
  | '\'' :: '\'' :: '\'' :: rest => multilineLiteralRest (dropLineEnd rest)
  | '\'' :: rest => literalRest rest
  | _ => none

end HolePunch.Toml
