/-!
Sizes written in decimal: at most one plus sign, then one or more ASCII digits. The number has to
fit in 64 bits.
-/

namespace Brainfuck.Text

/-- The digits of a size, without the plus sign that may stand before them. -/
def unsigned : List Char → List Char
  | '+' :: digits => digits
  | digits => digits

/-- The size that a text writes. -/
def size? (text : String) : Option Nat :=
  let digits := unsigned text.toList
  if digits.isEmpty || !digits.all Char.isDigit then none
  else
    let n := Nat.ofDigitChars 10 digits 0
    if n < UInt64.size then some n else none

end Brainfuck.Text
