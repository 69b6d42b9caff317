import Reconciler.Binary64

/-!
# Literals of numbers

What the literal of a number in a document says: which whole number it is, if it is written as one,
and whether it is too large for a double.

A double is made of a literal in a fast way, which is not always the nearest double. As many of the
digits as 64 bits have room for make up a significand, the point, the exponent and the digits that
were left out make up a power of ten, and the two are rounded to doubles before they are multiplied.
Next to the largest double, it depends on this which literals are too large.

## Main definitions

* `Json.wholeNumber?` : the whole number that a literal writes down
* `Json.Decimal`, `Json.Decimal.ofLiteral` : the significand and the power of ten of a literal
* `Json.overflows` : the double that is made of a literal is infinite
-/

namespace Reconciler.Text.Json

/-- The whole number that a literal writes down, if there is neither a point nor an exponent. A
negative zero is no whole number. -/
def wholeNumber? (literal : String) : Option Int :=
  if literal = "-0" then none else literal.toInt?

/-- The number `n` with one more digit. -/
def withDigit (n : Nat) (c : Char) : Nat := 10 * n + (c.toNat - '0'.toNat)

/-- Put digits behind the number `n` while the outcome has 64 bits: the outcome, and the digits that
are left. -/
def takeDigits (n : Nat) : List Char → Nat × List Char
  | [] => (n, [])
  | c :: cs => if withDigit n c < UInt64.size then takeDigits (withDigit n c) cs else (n, c :: cs)

/-- The number `significand · 10 ^ scale`. -/
structure Decimal where
  /-- Digits before the power of ten. -/
  significand : Nat
  /-- Power of ten. -/
  scale : Int
deriving DecidableEq, Repr

/-- The leading digits of a literal that 64 bits have room for. A digit before the point that is
left out counts as a place, one behind the point does not. -/
def Decimal.ofLiteral (literal : String) : Decimal :=
  let isMark (c : Char) : Bool := c == 'e' || c == 'E'
  let mantissa := literal.toList.takeWhile fun c => !isMark c
  let exponent := (literal.toList.dropWhile fun c => !isMark c).drop 1
  let whole := (mantissa.takeWhile (· != '.')).filter Char.isDigit
  let fraction := (mantissa.dropWhile (· != '.')).filter Char.isDigit
  let size := (exponent.filter Char.isDigit).foldl withDigit 0
  let wholePart := takeDigits 0 whole
  let bothParts := takeDigits wholePart.1 fraction
  let places : Int := fraction.length - bothParts.2.length
  ⟨bothParts.1,
    wholePart.2.length - places + (if exponent.head? = some '-' then -(size : Int) else size)⟩

/-- The largest power of ten that is below the largest double. -/
def largestScale : Nat := 308

/-- The double that is made of a decimal is infinite. Where the power of ten decides alone it is not
computed. -/
def Decimal.overflows (d : Decimal) : Bool :=
  if d.significand = 0 ∨ d.scale < 0 then false
  else if largestScale < d.scale then true
  else
    Binary64.isTooLarge
      (Binary64.roundNat d.significand * Binary64.roundNat (Nat.pow 10 d.scale.toNat))

/-- The double that is made of a literal is infinite. -/
def overflows (literal : String) : Bool := (Decimal.ofLiteral literal).overflows

end Reconciler.Text.Json
