/-!
# Bytes as text

Any bytes are a text: what is not UTF-8 stands for replacement characters, one for each longest run
of bytes that begins a character without completing it.
-/

namespace Reconciler.Text.Utf8

/-- The character that stands for bytes that are none. -/
def replacement : Char := Char.ofNat 0xFFFD

/-- How many bytes follow the first byte of a character, and the range of the first of them. -/
def followers (first : Nat) : Nat × Nat × Nat :=
  if 0xC2 ≤ first ∧ first < 0xE0 then (1, 0x80, 0xC0)
  else if first = 0xE0 then (2, 0xA0, 0xC0)
  else if first = 0xED then (2, 0x80, 0xA0)
  else if 0xE1 ≤ first ∧ first < 0xF0 then (2, 0x80, 0xC0)
  else if first = 0xF0 then (3, 0x90, 0xC0)
  else if 0xF1 ≤ first ∧ first < 0xF4 then (3, 0x80, 0xC0)
  else if first = 0xF4 then (3, 0x80, 0x90)
  else (0, 0, 0)

/-- The bits that the first byte of a character with so many followers adds to its code point. -/
def firstBits (count first : Nat) : Nat :=
  match count with
  | 1 => first % 0x20
  | 2 => first % 0x10
  | _ => first % 0x08

/-- The character that is open: how many bytes it lacks, the range of the next one, and the code
point as far as it is known. -/
structure Open where
  /-- Bytes to come. -/
  left : Nat
  /-- The least value of the next byte. -/
  least : Nat
  /-- One more than the largest value of the next byte. -/
  bound : Nat
  /-- The bits so far. -/
  bits : Nat
deriving DecidableEq, Repr

/-- A byte outside of any open character. -/
def begin (b : Nat) : List Char × Option Open :=
  if b < 0x80 then ([Char.ofNat b], none)
  else
    let (count, least, bound) := followers b
    if count = 0 then ([replacement], none)
    else ([], some ⟨count, least, bound, firstBits count b⟩)

/-- The characters that a byte completes, and the character that is open after it. -/
def step (o : Option Open) (b : Nat) : List Char × Option Open :=
  match o with
  | none => begin b
  | some o =>
    if o.least ≤ b ∧ b < o.bound then
      let bits := o.bits * 0x40 + b % 0x40
      if o.left = 1 then ([Char.ofNat bits], none)
      else ([], some ⟨o.left - 1, 0x80, 0xC0, bits⟩)
    else
      let r := begin b
      (replacement :: r.1, r.2)

/-- The characters of bytes that follow an open character. -/
def chars (o : Option Open) : List UInt8 → List Char
  | [] => if o.isSome then [replacement] else []
  | b :: rest =>
    let r := step o b.toNat
    r.1 ++ chars r.2 rest

/-- The text that bytes stand for. -/
def decode (bytes : List UInt8) : String := String.ofList (chars none bytes)

end Reconciler.Text.Utf8
