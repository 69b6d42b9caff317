/-!
# Binary64 numbers in whole numbers

A finite binary64 number is a whole number of at most 53 bits, scaled by a power of two. Rounding is
done on whole numbers: to the nearest, a tie to the even neighbour.

## Main definitions

* `roundQuotient` : the whole number nearest to a quotient
* `Binary64`, `Binary64.ofBits?` : a finite number taken apart
* `Binary64.roundNat`, `Binary64.isTooLarge` : the binary64 number nearest to a whole number, and
  where there is none
-/

namespace Reconciler

/-- The quotient rounded to the nearest whole number, a tie to the even neighbour. -/
def roundQuotient (num den : Nat) : Nat :=
  let q := num / den
  let r := num % den
  if 2 * r < den then q
  else if den < 2 * r then q + 1
  else q + q % 2

/-- A finite binary64 number taken apart: its value is `± significand · 2 ^ exponent`. -/
structure Binary64 where
  /-- The number carries a minus sign. -/
  negative : Bool
  /-- Whole-number significand. -/
  significand : Nat
  /-- Power of two that scales the significand. -/
  exponent : Int
deriving DecidableEq, Repr

namespace Binary64

/-- Take the bits of a binary64 number apart; nothing for infinities and for what is no number. -/
def ofBits? (bits : UInt64) : Option Binary64 :=
  let n := bits.toNat
  let fraction : Nat := n % (1 <<< 52)
  let biased : Nat := (n >>> 52) % (1 <<< 11)
  let negative := n >>> 63 == 1
  if biased = 2047 then none
  else if biased = 0 then some ⟨negative, fraction, -1074⟩
  else some ⟨negative, (1 <<< 52) + fraction, (biased : Int) - 1075⟩

/-- How many bits a significand has. -/
def precision : Nat := 53

/-- The whole number rounded to `precision` significant bits. -/
def roundNat (n : Nat) : Nat :=
  let spare := n.log2 + 1 - precision
  roundQuotient n (1 <<< spare) <<< spare

/-- The whole number rounds to infinity: it is not below the number halfway from the largest finite
number to the next power of two. -/
def isTooLarge (n : Nat) : Bool := decide ((1 <<< 1024) - (1 <<< 970) ≤ n)

end Binary64

end Reconciler
