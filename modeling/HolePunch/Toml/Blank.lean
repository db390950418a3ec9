import HolePunch.Text.Parse

/-!
# Between TOML values

Blanks, line ends and comments. A line ends with a line feed, perhaps after a carriage return; a
carriage return alone is no line end. Comments hold no control characters except tabs.
-/

namespace HolePunch.Toml

def isBlank (c : Char) : Bool := c == ' ' || c == '\t'

/-- True of what may stand in a comment, and, quotes apart, in a literal string. -/
def isPlain (c : Char) : Bool :=
  c == '\t' || (0x20 ≤ c.toNat && c.toNat ≤ 0x7e) || 0x80 ≤ c.toNat

/-- The text after the blanks at its front. -/
def skipBlanks (s : List Char) : List Char := s.dropWhile isBlank

/-- The text after the rest of a line, which may hold blanks and a comment only. -/
def endLine (s : List Char) : Option (List Char) :=
  let rest := match skipBlanks s with
    | '#' :: comment => comment.dropWhile isPlain
    | rest => rest
  match rest with
  | [] => some []
  | '\n' :: rest => some rest
  | '\r' :: '\n' :: rest => some rest
  | _ => none

/-- The text after blanks and line ends. -/
def skipLines : List Char → List Char
  | ' ' :: rest => skipLines rest
  | '\t' :: rest => skipLines rest
  | '\n' :: rest => skipLines rest
  | '\r' :: '\n' :: rest => skipLines rest
  | s => s

/-- The text after blanks, line ends and comments. -/
def skipFiller (inComment : Bool) : List Char → List Char
  | '\n' :: rest => skipFiller false rest
  | '\r' :: '\n' :: rest => skipFiller false rest
  | [] => []
  | c :: rest =>
    if inComment then
      if isPlain c then skipFiller true rest else c :: rest
    else if isBlank c then skipFiller false rest
    else if c = '#' then skipFiller true rest
    else c :: rest

theorem length_skipLines_le (s : List Char) : (skipLines s).length ≤ s.length := by
  induction s using skipLines.induct <;> simp_all [skipLines] <;> omega

end HolePunch.Toml
