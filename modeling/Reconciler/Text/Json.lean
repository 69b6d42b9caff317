/-!
# JSON values

A JSON document as a tree, and its compact text. A number is its literal, so nothing about it is
lost; the members of a record keep their order. Only the quote, the backslash and the control
characters of a text are escaped, the common ones by their letter.
-/

namespace Reconciler.Text

/-- A JSON document. -/
inductive Json where
  /-- The absent value. -/
  | null
  /-- A truth value. -/
  | flag (b : Bool)
  /-- A number by its literal. -/
  | number (literal : String)
  /-- A text. -/
  | text (s : String)
  /-- A list. -/
  | list (items : List Json)
  /-- Named members, in order. -/
  | record (members : List (String × Json))
deriving Inhabited, Repr

namespace Json

/-! ## Compact text -/

/-- Lower-case hexadecimal digits of `n`, at least four. -/
def fourHexDigits (n : Nat) : String :=
  let digits := Nat.toDigits 16 n
  String.ofList (List.replicate (4 - digits.length) '0' ++ digits)

/-- One character between quotes. -/
def escaped (c : Char) : String :=
  if c = '"' then "\\\""
  else if c = '\\' then "\\\\"
  else if c = '\n' then "\\n"
  else if c = '\r' then "\\r"
  else if c = '\t' then "\\t"
  else if c.toNat = 8 then "\\b"
  else if c.toNat = 12 then "\\f"
  else if c.toNat < 32 then "\\u" ++ fourHexDigits c.toNat
  else c.toString

/-- A text between quotes. -/
def quotedText (s : String) : String :=
  "\"" ++ s.toList.foldl (fun out c => out ++ escaped c) "" ++ "\""

mutual

/-- The text without any blank. -/
def compact : Json → String
  | null => "null"
  | flag b => if b then "true" else "false"
  | number literal => literal
  | text s => quotedText s
  | list items => "[" ++ String.intercalate "," (compactItems items) ++ "]"
  | record members => "\x7b" ++ String.intercalate "," (compactMembers members) ++ "\x7d"

/-- The texts of the items of a list. -/
def compactItems : List Json → List String
  | [] => []
  | j :: rest => compact j :: compactItems rest

/-- The texts of the members of a record. -/
def compactMembers : List (String × Json) → List String
  | [] => []
  | (name, j) :: rest => (quotedText name ++ ":" ++ compact j) :: compactMembers rest

end

/-- A record of texts. -/
def ofTexts (members : List (String × String)) : Json :=
  record (members.map fun m => (m.1, text m.2))

/-- The record of the members that are present. -/
def ofPresent (members : List (String × Option Json)) : Json :=
  record (members.filterMap fun m => m.2.map fun j => (m.1, j))

/-! ## Looking into a document -/

/-- The members of a record. -/
def members? : Json → Option (List (String × Json))
  | record members => some members
  | _ => none

/-- The member of a record; of several with one name the last. -/
def member? (j : Json) (name : String) : Option Json :=
  (j.members?.getD []).reverse.lookup name

/-- A text. -/
def text? : Json → Option String
  | text s => some s
  | _ => none

end Json

end Reconciler.Text
