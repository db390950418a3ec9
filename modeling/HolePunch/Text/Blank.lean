/-!
# White space

The characters with the Unicode property `White_Space`, and texts without them at the ends or
anywhere.
-/

namespace HolePunch.Text

/-- The ranges of the property, first and last character. -/
def blankRanges : List (Nat × Nat) :=
  [(0x09, 0x0d), (0x20, 0x20), (0x85, 0x85), (0xa0, 0xa0), (0x1680, 0x1680), (0x2000, 0x200a),
    (0x2028, 0x2029), (0x202f, 0x202f), (0x205f, 0x205f), (0x3000, 0x3000)]

def isBlank (c : Char) : Bool :=
  blankRanges.any fun (first, last) => first ≤ c.toNat && c.toNat ≤ last

/-- The text without its white space. -/
def withoutBlanks (s : List Char) : List Char := s.filter (!isBlank ·)

/-- The text without white space at either end. -/
def trim (s : List Char) : List Char :=
  ((s.dropWhile isBlank).reverse.dropWhile isBlank).reverse

def utf8 (s : List Char) : List UInt8 := s.flatMap String.utf8EncodeChar

end HolePunch.Text
