import HolePunch.Text.Digits

/-!
# Durations

A time in milliseconds as text: in seconds with the decimals that are not zero, in milliseconds
below one second, and `0ns` for none.
-/

namespace HolePunch.Text

/-- The three decimals of thousandths, without the zeros at the end. -/
def thousandths (n : Nat) : List Char :=
  let digits := List.replicate (3 - (decimal n).length) '0' ++ decimal n
  (digits.reverse.dropWhile (· == '0')).reverse

def duration (ms : Nat) : String :=
  let seconds := ms / 1000
  let rest := ms % 1000
  String.ofList <|
    if 0 < seconds then
      decimal seconds ++ (if rest = 0 then [] else '.' :: thousandths rest) ++ ['s']
    else if 0 < rest then decimal rest ++ ['m', 's']
    else ['0', 'n', 's']

end HolePunch.Text
