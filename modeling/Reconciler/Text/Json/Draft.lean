import Reconciler.Text.Json

/-!
# Drafts of documents

A text that is read as a document may end too early, or go wrong, in the middle of it. A `Draft` is
as much of the document as is there, and it says where it stops and why. Whoever works through a
draft from the front meets things in the order in which they stand in the text, and so finds out
what comes first: a value that is not wanted here, the end of the text, or a character that no
document can have here. For a reader of a stream that breaks off in the middle of a line these are
different.

## Main definitions

* `Json.Stop` : why a text is not a document
* `Json.Spelling` : a text between quotes
* `Json.Draft`, `Json.Draft.toJson` : the draft, and the document that is closest to it
-/

namespace Reconciler.Text.Json

/-- Why a text is not the document that is wanted. -/
inductive Stop where
  /-- It ends before the document does. -/
  | cut
  /-- No such document begins like this. -/
  | broken
deriving DecidableEq, Inhabited, Repr

/-- A value that counts unless something stops before it. -/
def unlessStopped {α : Type} (stop : Option Stop) (a : α) : Except Stop α :=
  match stop with
  | some s => .error s
  | none => .ok a

/-- A text between quotes. -/
structure Spelling where
  /-- What it says; half of a surrogate pair without the other half is a replacement character. -/
  chars : String := ""
  /-- No half of a surrogate pair stands alone. -/
  isPaired : Bool := true
  /-- Why there is no closing quote. -/
  stop : Option Stop := none
deriving DecidableEq, Inhabited, Repr

namespace Spelling

/-- Pass over it: the surrogates do not matter. -/
def skim (s : Spelling) : Except Stop Unit := unlessStopped s.stop ()

/-- What it says. Half of a surrogate pair alone says nothing, and is found before the end is. -/
def read (s : Spelling) : Except Stop String :=
  if s.isPaired then unlessStopped s.stop s.chars else .error .broken

end Spelling

/-- As much of a document as is there. -/
inductive Draft where
  /-- No value begins here. -/
  | missing (stop : Stop)
  /-- The beginning of one of the three words. -/
  | word (stop : Stop)
  /-- The absent value. -/
  | null
  /-- A truth value. -/
  | flag (b : Bool)
  /-- A number by its literal, with the reason if digits are missing. -/
  | number (literal : String) (stop : Option Stop)
  /-- A text. -/
  | text (s : Spelling)
  /-- A list, with the reason if its end is missing. -/
  | list (items : List Draft) (stop : Option Stop)
  /-- Named members, with the reason if their end is missing. -/
  | record (members : List (Spelling × Draft)) (stop : Option Stop)
deriving Inhabited, Repr

namespace Draft

mutual

/-- The closest document: what stops is left as it is, and what is missing is null. -/
def toJson : Draft → Json
  | missing _ | word _ | null => .null
  | flag b => .flag b
  | number literal none => .number literal
  | number _ (some _) => .null
  | text s => .text s.chars
  | list items _ => .list (itemsToJson items)
  | record members _ => .record (membersToJson members)

/-- The closest documents to the items of a list. -/
def itemsToJson : List Draft → List Json
  | [] => []
  | d :: rest => toJson d :: itemsToJson rest

/-- The closest documents to the members of a record. -/
def membersToJson : List (Spelling × Draft) → List (String × Json)
  | [] => []
  | (name, d) :: rest => (name.chars, toJson d) :: membersToJson rest

end

end Draft

end Reconciler.Text.Json
