/-!
# Base64

Bytes as text, three bytes in four characters. The last group is filled up with equals signs, and
the bits of its last letter that belong to no byte are zero, so that each sequence of bytes is
written in one way only.
-/

namespace Reconciler.Text.Base64

/-- Value of a letter of the alphabet. -/
def letterValue? (c : Char) : Option Nat :=
  if 'A' ≤ c ∧ c ≤ 'Z' then some (c.toNat - 'A'.toNat)
  else if 'a' ≤ c ∧ c ≤ 'z' then some (c.toNat - 'a'.toNat + 26)
  else if c.isDigit then some (c.toNat - '0'.toNat + 52)
  else if c = '+' then some 62
  else if c = '/' then some 63
  else none

/-- A letter of the alphabet. -/
def isLetter (c : Char) : Bool := (letterValue? c).isSome

/-- A letter of the alphabet whose value is a multiple of `n`. -/
def isMultiple (n : Nat) (c : Char) : Bool := (letterValue? c).any fun v => v % n == 0

/-- The groups of four that write bytes. -/
def groups : List Char → Bool
  | [] => true
  | [a, b, '=', '='] => isLetter a && isMultiple 16 b
  | [a, b, c, '='] => isLetter a && isLetter b && isMultiple 4 c
  | a :: b :: c :: d :: rest =>
    isLetter a && isLetter b && isLetter c && isLetter d && groups rest
  | _ => false

/-- The text writes bytes. -/
def isValid (s : String) : Bool := groups s.toList

end Reconciler.Text.Base64
