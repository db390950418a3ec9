/-!
# Parsers

A parser takes what it can from the front of a text and gives back the rest, or fails.
-/

namespace HolePunch.Text

/-- Something read off the front of a text, and the rest. -/
abbrev Parse (α : Type) := List Char → Option (α × List Char)

namespace Parse

def char (c : Char) : Parse Unit
  | [] => none
  | x :: rest => if x = c then some ((), rest) else none

/-- The characters of a word, and a value for it. -/
def word {α : Type} (value : α) : List Char → Parse α
  | [], s => some (value, s)
  | c :: cs, x :: s => if x = c then word value cs s else none
  | _ :: _, [] => none

def whole {α : Type} (parse : Parse α) (s : List Char) : Option α :=
  match parse s with
  | some (value, []) => some value
  | _ => none

theorem char_cons (c : Char) (rest : List Char) : char c (c :: rest) = some ((), rest) := if_pos rfl

theorem char_of_ne {c d : Char} (other : d ≠ c) (rest : List Char) : char c (d :: rest) = none :=
  if_neg other

theorem word_append {α : Type} (value : α) (w rest : List Char) :
    word value w (w ++ rest) = some (value, rest) := by
  induction w with
  | nil => rfl
  | cons c w ih => simp [word, ih]

end Parse

end HolePunch.Text
