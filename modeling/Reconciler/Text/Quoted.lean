import Reconciler.Text.Glyphless

/-!
# Quoted text

Diagnostics show names between double quotes. A quote and a backslash are preceded by a backslash,
the common control characters have their letter, and every other character that would not be seen as
itself is written by its number: `\u`, an opening brace, hexadecimal digits without leading zeros, a
closing brace. An apostrophe stays as it is.
-/

namespace Reconciler.Text

/-- Lower-case hexadecimal digits of `n`, at least one. -/
def hexDigits (n : Nat) : String := String.ofList (Nat.toDigits 16 n)

/-- How one character is written between quotes. -/
def quotedChar (c : Char) : String :=
  if c = '"' then "\\\""
  else if c = '\\' then "\\\\"
  else if c = '\n' then "\\n"
  else if c = '\r' then "\\r"
  else if c = '\t' then "\\t"
  else if c = '\x00' then "\\0"
  else if c.toNat < 32 ∨ c.toNat = 127 then "\\u\x7b" ++ hexDigits c.toNat ++ "\x7d"
  else if c.toNat < 127 then c.toString
  else if isGlyphless c then "\\u\x7b" ++ hexDigits c.toNat ++ "\x7d"
  else c.toString

/-- The text `s` between double quotes. -/
def quoted (s : String) : String :=
  "\"" ++ s.toList.foldl (fun out c => out ++ quotedChar c) "" ++ "\""

/-- An optional text: `None`, or `Some` around the quoted text. -/
def quotedOption : Option String → String
  | none => "None"
  | some s => "Some(" ++ quoted s ++ ")"

end Reconciler.Text
