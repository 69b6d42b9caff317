import Reconciler.Text.Json.Literal
import Reconciler.Text.Json.Reader

/-!
# Decoding documents

A `Decoder` works through a draft from the front and yields what it wants from it, or the first
thing that stops it. `skip` passes over a value of any kind, and minds neither surrogates nor the
size of numbers; `any` reads a value of any kind and minds both. The others want something in
particular.

Lists and records may be nested `maxDepth - 1` deep where they are read; what is passed over may be
nested as deep as it likes.

A record is decoded member by member, each with the decoder that its name calls for, into a state.
What two members of one name mean is up to that: with `put` the last one counts, with `once` there
may be no second one.
-/

namespace Reconciler.Text.Json

/-- Yields something from a draft, which may hold lists and records as deep as the number says. -/
abbrev Decoder (α : Type) := Nat → Draft → Except Stop α

/-- How deep lists and records may be nested at the outside. -/
def maxDepth : Nat := 128

/-- Look into a list or record. -/
def enter {α : Type} (depth : Nat) (inside : Nat → Except Stop α) : Except Stop α :=
  if depth ≤ 1 then .error .broken else inside (depth - 1)

/-- What stops a decoder that wants something else: the value is not there, or it is not what is
wanted. A word, a number or a text is looked at to its end first. -/
def mismatch : Draft → Stop
  | .missing s | .word s => s
  | .number _ (some s) => s
  | .text s =>
    match s.read with
    | .error e => e
    | .ok _ => .broken
  | _ => .broken

/-! ## Values of any kind -/

mutual

/-- Pass over a value. -/
def skip : Draft → Except Stop Unit
  | .missing s | .word s => .error s
  | .null | .flag _ | .number _ none => .ok ()
  | .number _ (some _) => .error .broken
  | .text s => s.skim
  | .list items stop => do
    skipItems items
    unlessStopped stop ()
  | .record members stop => do
    skipMembers members
    unlessStopped stop ()

/-- Pass over the items of a list. -/
def skipItems : List Draft → Except Stop Unit
  | [] => .ok ()
  | d :: rest => do
    skip d
    skipItems rest

/-- Pass over the members of a record. -/
def skipMembers : List (Spelling × Draft) → Except Stop Unit
  | [] => .ok ()
  | (name, d) :: rest => do
    name.skim
    skip d
    skipMembers rest

end

mutual

/-- Read a value. -/
def anyValue (depth : Nat) : Draft → Except Stop Json
  | .missing s | .word s => .error s
  | .null => .ok .null
  | .flag b => .ok (.flag b)
  | .number _ (some s) => .error s
  | .number literal none =>
    if overflows literal then .error .broken else .ok (.number literal)
  | .text s => s.read.map .text
  | .list items stop =>
    enter depth fun depth => do
      let js ← anyItems depth items
      unlessStopped stop (.list js)
  | .record members stop =>
    enter depth fun depth => do
      let js ← anyMembers depth members
      unlessStopped stop (.record js)

/-- Read the items of a list. -/
def anyItems (depth : Nat) : List Draft → Except Stop (List Json)
  | [] => .ok []
  | d :: rest => do
    let j ← anyValue depth d
    let js ← anyItems depth rest
    .ok (j :: js)

/-- Read the members of a record. -/
def anyMembers (depth : Nat) : List (Spelling × Draft) → Except Stop (List (String × Json))
  | [] => .ok []
  | (name, d) :: rest => do
    let n ← name.read
    let j ← anyValue depth d
    let js ← anyMembers depth rest
    .ok ((n, j) :: js)

end

namespace Decoder

variable {α β σ : Type}

/-- A value of any kind. -/
def any : Decoder Json := anyValue

/-- No value is wanted here. -/
def refuse : Decoder α := fun _ _ => .error .broken

/-- Make something else of what is decoded. -/
def map (f : α → β) (d : Decoder α) : Decoder β := fun depth x => (d depth x).map f

/-- What is decoded does not matter, only that it can be. -/
def check (d : Decoder α) : Decoder Unit := d.map fun _ => ()

/-! ## Single values -/

/-- A text. -/
def text : Decoder String
  | _, .text s => s.read
  | _, x => .error (mismatch x)

/-- A text that passes a test. -/
def textThat (accepts : String → Bool) : Decoder String := fun depth x => do
  let s ← text depth x
  if accepts s then .ok s else .error .broken

/-- A truth value. -/
def flag : Decoder Bool
  | _, .flag b => .ok b
  | _, x => .error (mismatch x)

/-- A whole number of the range `least ≤ n < bound`. -/
def integer (least bound : Int) : Decoder Int
  | _, .number literal none =>
    match wholeNumber? literal with
    | some n => if least ≤ n ∧ n < bound then .ok n else .error .broken
    | none => .error .broken
  | _, x => .error (mismatch x)

/-- The absent value. -/
def null : Decoder Unit
  | _, .null => .ok ()
  | _, x => .error (mismatch x)

/-- A value that may be null. -/
def optional (d : Decoder α) : Decoder (Option α)
  | _, .null => .ok none
  | depth, x => (d depth x).map some

/-! ## Lists and records -/

/-- A list. -/
def listOf (d : Decoder α) : Decoder (List α)
  | depth, .list items stop =>
    enter depth fun depth => do
      let xs ← items.mapM (d depth)
      unlessStopped stop xs
  | _, x => .error (mismatch x)

/-- Decode the members of a record one after the other. The decoder of a member yields the state
after it; members for which there is none are passed over. -/
def members (field : σ → String → Option (Decoder σ)) (start : σ) : Decoder σ
  | depth, .record members stop =>
    enter depth fun depth => do
      let s ← members.foldlM (fun s m => do
        let name ← m.1.read
        match field s name with
        | some d => d depth m.2
        | none =>
          skip m.2
          .ok s) start
      unlessStopped stop s
  | _, x => .error (mismatch x)

/-- A record with a value for each name. Of several members of one name the last one counts. -/
def table (d : Decoder α) : Decoder (List (String × α)) :=
  members (fun entries name =>
    some (d.map fun a => entries.filter (fun e => e.1 != name) ++ [(name, a)])) []

/-- A member that may come again: the last one counts. -/
def put (d : Decoder α) (f : α → σ) : Option (Decoder σ) := some (d.map f)

/-- A member that came before may not come again. -/
def once (before : Option α) (d : Decoder α) (f : α → σ) : Option (Decoder σ) :=
  match before with
  | some _ => some refuse
  | none => put d f

/-- The next item of a list that holds the members of a record in order. The last of them may be
absent, if they have a default. -/
def nextItem (d : Decoder α) (default : Option α) (depth : Nat) (stop : Option Stop) :
    List Draft → Except Stop (α × List Draft)
  | x :: rest => do
    let a ← d depth x
    .ok (a, rest)
  | [] =>
    match stop, default with
    | none, some a => .ok (a, [])
    | stop, _ => .error (stop.getD .broken)

/-- The list has no further items. -/
def lastItem (stop : Option Stop) (a : α) : List Draft → Except Stop α
  | [] => unlessStopped stop a
  | _ :: _ => .error .broken

end Decoder

/-! ## Whole texts -/

/-- Decode a text, which holds nothing but the document. -/
def decode {α : Type} (d : Decoder α) (s : String) : Except Stop α := do
  let r := read s
  let a ← d maxDepth r.1
  if r.2 then .error .broken else .ok a

/-- The document, if the text is one. -/
def read? (s : String) : Option Json := (decode .any s).toOption

end Reconciler.Text.Json
