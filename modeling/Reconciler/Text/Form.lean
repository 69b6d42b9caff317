import Reconciler.Text.Utf8

/-!
# Parameters in the text of a query

A query is a sequence of parameters, each a name and a value with an equals sign between them, and
an ampersand between any two. A plus sign stands for a space, and a percent sign with two
hexadecimal digits for a byte. Any text is a query: a parameter without an equals sign has an empty
value, empty ones are left out, and a percent sign without its digits stands for itself.

What is written (`Form.encode`) uses letters, digits and four marks only, so none of the characters
that part a query can occur in a name or a value.
-/

namespace Reconciler.Text.Form

/-- Value of a hexadecimal digit by its code. -/
def hexValue? (b : UInt8) : Option UInt8 :=
  let n := b.toNat
  if 48 ≤ n ∧ n ≤ 57 then some (b - 48)
  else if 65 ≤ n ∧ n ≤ 70 then some (b - 55)
  else if 97 ≤ n ∧ n ≤ 102 then some (b - 87)
  else none

/-- The code of the percent sign. -/
def percent : UInt8 := 37

/-- The byte that three bytes write, if they are a percent sign and two digits. -/
def escaped? (b h l : UInt8) : Option UInt8 :=
  if b = percent then
    (hexValue? h).bind fun x => (hexValue? l).map fun y => 16 * x + y
  else none

/-- Replace the percent signs with their digits by the bytes they stand for. -/
def unescape : List UInt8 → List UInt8
  | b :: h :: l :: rest =>
    match escaped? b h l with
    | some x => x :: unescape rest
    | none => b :: unescape (h :: l :: rest)
  | bytes => bytes

/-- A name or a value as it is meant. -/
def field (cs : List Char) : String :=
  let spaced := cs.map fun c => if c = '+' then ' ' else c
  Utf8.decode (unescape (String.ofList spaced).toUTF8.toList)

/-- The parameters of a query. -/
def parameters (query : String) : List (String × String) :=
  let pieces := (query.splitOn "&").filter fun p => !p.isEmpty
  pieces.map fun p =>
    let cs := p.toList
    (field (cs.takeWhile (· != '=')), field ((cs.dropWhile (· != '=')).drop 1))

/-- The byte is the code of a character that is written as it is. -/
def isPlain (b : UInt8) : Bool :=
  let n := b.toNat
  (48 ≤ n && n ≤ 57) || (65 ≤ n && n ≤ 90) || (97 ≤ n && n ≤ 122) ||
    n == 42 || n == 45 || n == 46 || n == 95

/-- The hexadecimal digit of a number below 16. -/
def hexDigit (n : Nat) : Char := Char.ofNat (if n < 10 then 48 + n else 55 + n)

/-- A byte as it is written. -/
def escape (b : UInt8) : List Char :=
  if isPlain b then [Char.ofNat b.toNat]
  else if b = 32 then ['+']
  else ['%', hexDigit (b.toNat / 16), hexDigit (b.toNat % 16)]

/-- A name or a value as it is written. -/
def encode (s : String) : String := String.ofList (s.toUTF8.toList.flatMap escape)

/-- Parameters as they are written. -/
def write (parameters : List (String × String)) : String :=
  String.intercalate "&" (parameters.map fun p => encode p.1 ++ "=" ++ encode p.2)

end Reconciler.Text.Form
