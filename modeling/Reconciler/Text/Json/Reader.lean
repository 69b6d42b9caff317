import Reconciler.Text.Json.Draft

/-!
# Reading JSON

A pushdown machine that takes a document one character at a time. `Reader.step` never fails: a
character that no document can have here halts the machine, and a machine that has halted stays as
it is. What was read up to the end of the text, or up to such a character, is a draft of the
document (`Reader.draft`).

Texts between quotes are taken for what they are: half of a surrogate pair may stand alone, since
only whoever wants to know what the text says has to mind.

## Main definitions

* `Json.Stage` : how much of a number was read
* `Json.Escape`, `Json.Scribe` : how much of a text was read
* `Json.Frame`, `Json.Mode`, `Json.Reader` : the machine
* `Json.Reader.step`, `Json.read` : one character, and a whole text
-/

namespace Reconciler.Text.Json

/-! ## Numbers -/

/-- How much of a number was read. -/
inductive Stage where
  /-- The sign. -/
  | sign
  /-- The digit 0, which has to stay alone before the point. -/
  | zero
  /-- Digits before the point. -/
  | whole
  /-- The point. -/
  | point
  /-- Digits after the point. -/
  | fraction
  /-- The exponent mark. -/
  | mark
  /-- The sign of the exponent. -/
  | markSign
  /-- Digits of the exponent. -/
  | exponent
deriving DecidableEq, Inhabited, Repr

namespace Stage

/-- A number begins with this character. -/
def first? (c : Char) : Option Stage :=
  if c = '-' then some .sign
  else if c = '0' then some .zero
  else if c.isDigit then some .whole
  else none

/-- After the digits before the point. -/
def leave? (c : Char) : Option Stage :=
  if c = '.' then some .point else if c = 'e' ∨ c = 'E' then some .mark else none

/-- The number goes on with this character. -/
def next? (s : Stage) (c : Char) : Option Stage :=
  match s with
  | sign => if c = '0' then some zero else if c.isDigit then some whole else none
  | zero => leave? c
  | whole => if c.isDigit then some whole else leave? c
  | point => if c.isDigit then some fraction else none
  | fraction =>
    if c.isDigit then some fraction else if c = 'e' ∨ c = 'E' then some mark else none
  | mark =>
    if c.isDigit then some exponent else if c = '+' ∨ c = '-' then some markSign else none
  | markSign => if c.isDigit then some exponent else none
  | exponent => if c.isDigit then some exponent else none

/-- A number may end here. -/
def isComplete : Stage → Bool
  | zero | whole | fraction | exponent => true
  | _ => false

end Stage

/-! ## Texts -/

/-- How much of an escape was read. -/
inductive Escape where
  /-- No escape is open. -/
  | closed
  /-- The backslash. -/
  | begun
  /-- The letter `u` and `count` digits, with their value; `lead` is the first half of a surrogate
  pair that came before. -/
  | digits (lead : Option Nat) (count value : Nat)
  /-- One of the four bytes after the letter `u` was no digit; the text is wrong once `left` more
  are there. -/
  | doomed (left : Nat)
  /-- The first half of a surrogate pair. -/
  | lead (half : Nat)
  /-- The first half of a surrogate pair and a backslash. -/
  | leadBegun (half : Nat)
deriving DecidableEq, Inhabited, Repr

/-- Value of a hexadecimal digit. -/
def hexValue? (c : Char) : Option Nat :=
  if c.isDigit then some (c.toNat - '0'.toNat)
  else if 'a' ≤ c ∧ c ≤ 'f' then some (c.toNat - 'a'.toNat + 10)
  else if 'A' ≤ c ∧ c ≤ 'F' then some (c.toNat - 'A'.toNat + 10)
  else none

/-- The character that a letter stands for after a backslash. -/
def unescaped? (c : Char) : Option Char :=
  match c with
  | '"' | '\\' | '/' => some c
  | 'b' => some (Char.ofNat 8)
  | 'f' => some (Char.ofNat 12)
  | 'n' => some '\n'
  | 'r' => some '\r'
  | 't' => some '\t'
  | _ => none

/-- The number is the first half of a surrogate pair. -/
def isLead (n : Nat) : Bool := 0xD800 ≤ n && n < 0xDC00

/-- The number is the second half of a surrogate pair. -/
def isTrail (n : Nat) : Bool := 0xDC00 ≤ n && n < 0xE000

/-- The character of a surrogate pair. -/
def pairedChar (lead trail : Nat) : Char :=
  Char.ofNat (0x10000 + (lead - 0xD800) * 0x400 + (trail - 0xDC00))

/-- A text between quotes while it is being read. -/
structure Scribe where
  /-- What was read, newest character first. -/
  done : List Char := []
  /-- No half of a surrogate pair stands alone so far. -/
  isPaired : Bool := true
  /-- What is open. -/
  escape : Escape := .closed
deriving DecidableEq, Inhabited, Repr

namespace Scribe

/-- A character is complete. -/
def put (s : Scribe) (c : Char) : Scribe := { s with done := c :: s.done, escape := .closed }

/-- Half of a surrogate pair stands alone. -/
def putHalf (s : Scribe) : Scribe := { s.put (Char.ofNat 0xFFFD) with isPaired := false }

/-- Four digits are complete. -/
def close (s : Scribe) (lead : Option Nat) (n : Nat) : Scribe :=
  let unpaired (s : Scribe) : Scribe :=
    if isLead n then { s with escape := .lead n }
    else if isTrail n then s.putHalf
    else s.put (Char.ofNat n)
  match lead with
  | some half => if isTrail n then s.put (pairedChar half n) else unpaired s.putHalf
  | none => unpaired s

/-- A character outside of any escape. -/
def plain? (s : Scribe) (c : Char) : Option Scribe :=
  if c.toNat < 32 then none else some (s.put c)

/-- A character after a backslash. -/
def begun? (s : Scribe) (c : Char) : Option Scribe :=
  if c = 'u' then some { s with escape := .digits none 0 0 } else (unescaped? c).map s.put

/-- A character where a digit was due or can no longer help, with `left` bytes to come. -/
def doom? (s : Scribe) (left : Nat) (c : Char) : Option Scribe :=
  if left ≤ c.utf8Size then none else some { s with escape := .doomed (left - c.utf8Size) }

/-- A character other than the closing quote; nothing if it may not stand here. -/
def step? (s : Scribe) (c : Char) : Option Scribe :=
  match s.escape with
  | .closed => if c = '\\' then some { s with escape := .begun } else s.plain? c
  | .begun => s.begun? c
  | .digits lead count value =>
    match hexValue? c with
    | some d =>
      if count = 3 then some (s.close lead (16 * value + d))
      else some { s with escape := .digits lead (count + 1) (16 * value + d) }
    | none => s.doom? (4 - count) c
  | .doomed left => s.doom? left c
  | .lead half =>
    if c = '\\' then some { s with escape := .leadBegun half } else s.putHalf.plain? c
  | .leadBegun half =>
    if c = 'u' then some { s with escape := .digits (some half) 0 0 } else s.putHalf.begun? c

/-- The text as it stands, if a quote may close it here. -/
def closed? (s : Scribe) : Option Scribe :=
  match s.escape with
  | .closed => some s
  | .lead _ => some s.putHalf
  | _ => none

/-- The text as far as it was read. -/
def spelling (s : Scribe) (stop : Option Stop) : Spelling :=
  ⟨String.ofList s.done.reverse, s.isPaired, stop⟩

end Scribe

/-! ## The machine -/

/-- A list or record whose end was not read yet. -/
inductive Frame where
  /-- A list with its items, newest first. -/
  | items (done : List Draft)
  /-- A record with its members, newest first. -/
  | members (done : List (Spelling × Draft))
  /-- A record in which the value of `name` is being read. -/
  | member (done : List (Spelling × Draft)) (name : Spelling)
deriving Inhabited, Repr

/-- What is being read. -/
inductive Mode where
  /-- A value has to begin. -/
  | value
  /-- A value has to begin, or the list ends. -/
  | firstItem
  /-- A name has to begin. -/
  | name
  /-- A name has to begin, or the record ends. -/
  | firstName
  /-- The colon after a name. -/
  | colon
  /-- A text; a name if `isName`. -/
  | text ( isName : Bool) (s : Scribe)
  /-- A number, newest character first. -/
  | number (done : List Char) (stage : Stage)
  /-- The rest of a word for a value. -/
  | word (rest : List Char) (d : Draft)
  /-- A comma, or the end of the innermost list or record. -/
  | separator
  /-- The document is complete, and only blanks may follow. -/
  | complete (d : Draft)
deriving Inhabited, Repr

/-- The machine. -/
structure Reader where
  /-- The open lists and records, innermost first. -/
  frames : List Frame := []
  /-- What is being read. -/
  mode : Mode := .value
  /-- A character came that no document can have here. -/
  halted : Bool := false
deriving Inhabited, Repr

/-- A character that may stand between any two parts of a document. -/
def isBlank (c : Char) : Bool := c == ' ' || c == '\t' || c == '\n' || c == '\r'

namespace Reader

/-- The machine after a character that may not stand here. -/
def halt (r : Reader) : Reader := { r with halted := true }

/-- The machine goes on with something else. -/
def goOn (r : Reader) (mode : Mode) : Reader := { r with mode := mode }

/-- A value was read. -/
def deliver (r : Reader) (d : Draft) : Reader :=
  match r.frames with
  | [] => { r with mode := .complete d }
  | .items done :: rest => { r with frames := .items (d :: done) :: rest, mode := .separator }
  | .member done name :: rest =>
    { r with frames := .members ((name, d) :: done) :: rest, mode := .separator }
  | .members _ :: _ => r.halt

/-- A name was read. -/
def deliverName (r : Reader) (name : Spelling) : Reader :=
  match r.frames with
  | .members done :: rest => { r with frames := .member done name :: rest, mode := .colon }
  | _ => r.halt

/-- A character that ends the innermost list or record, if any. -/
def closeFrame (r : Reader) (c : Char) : Reader :=
  match r.frames with
  | .items done :: rest =>
    if c = ']' then { r with frames := rest }.deliver (.list done.reverse none) else r.halt
  | .members done :: rest =>
    if c = '\x7d' then { r with frames := rest }.deliver (.record done.reverse none) else r.halt
  | _ => r.halt

/-- A value begins. -/
def beginValue (r : Reader) (c : Char) : Reader :=
  match c with
  | '"' => r.goOn (.text false {})
  | '[' => { r with frames := .items [] :: r.frames, mode := .firstItem }
  | '\x7b' => { r with frames := .members [] :: r.frames, mode := .firstName }
  | 't' => r.goOn (.word ['r', 'u', 'e'] (.flag true))
  | 'f' => r.goOn (.word ['a', 'l', 's', 'e'] (.flag false))
  | 'n' => r.goOn (.word ['u', 'l', 'l'] .null)
  | _ =>
    match Stage.first? c with
    | some s => r.goOn (.number [c] s)
    | none => r.halt

/-- A character after a value: a comma, an end, or a blank. -/
def stepAfter (r : Reader) (c : Char) : Reader :=
  if isBlank c then r
  else
    match r.mode, r.frames with
    | .separator, .items _ :: _ => if c = ',' then r.goOn .value else r.closeFrame c
    | .separator, .members _ :: _ => if c = ',' then r.goOn .name else r.closeFrame c
    | _, _ => r.halt

/-- A character of a text. -/
def stepText (r : Reader) ( isName : Bool) (s : Scribe) (c : Char) : Reader :=
  let inside : Reader :=
    match s.step? c with
    | some s => r.goOn (.text isName s)
    | none => r.halt
  if c = '"' then
    match s.closed? with
    | some s =>
      if isName then r.deliverName (s.spelling none) else r.deliver (.text (s.spelling none))
    | none => inside
  else inside

/-- One character. -/
def step (r : Reader) (c : Char) : Reader :=
  if r.halted then r
  else
    match r.mode with
    | .value => if isBlank c then r else r.beginValue c
    | .firstItem =>
      if isBlank c then r
      else if c = ']' then r.closeFrame c
      else { r with mode := .value }.beginValue c
    | .name =>
      if isBlank c then r else if c = '"' then r.goOn (.text true {}) else r.halt
    | .firstName =>
      if isBlank c then r
      else if c = '\x7d' then r.closeFrame c
      else if c = '"' then r.goOn (.text true {})
      else r.halt
    | .colon => if isBlank c then r else if c = ':' then r.goOn .value else r.halt
    | .text isName s => r.stepText isName s c
    | .number done stage =>
      match stage.next? c with
      | some s => r.goOn (.number (c :: done) s)
      | none =>
        if stage.isComplete then
          (r.deliver (.number (String.ofList done.reverse) none)).stepAfter c
        else r.halt
    | .word rest d =>
      match rest with
      | [] => r.halt
      | e :: rest =>
        if c = e then if rest.isEmpty then r.deliver d else r.goOn (.word rest d) else r.halt
    | .separator | .complete _ => r.stepAfter c

/-! ## The draft -/

/-- Put a value into the lists and records that are open around it. -/
def enclose (stop : Stop) (d : Draft) : List Frame → Draft
  | [] => d
  | .items done :: rest => enclose stop (.list (d :: done).reverse (some stop)) rest
  | .member done name :: rest => enclose stop (.record ((name, d) :: done).reverse (some stop)) rest
  | .members done :: rest => enclose stop (.record done.reverse (some stop)) rest

/-- The open lists and records with nothing begun in the innermost. -/
def closeOpen (stop : Stop) : List Frame → Draft
  | [] => .missing stop
  | .items done :: rest => enclose stop (.list done.reverse (some stop)) rest
  | .members done :: rest => enclose stop (.record done.reverse (some stop)) rest
  | .member done name :: rest => enclose stop (.missing stop) (.member done name :: rest)

/-- The open lists and records with a name begun in the innermost. -/
def closeNamed (stop : Stop) (name : Spelling) : List Frame → Draft
  | .members done :: rest => enclose stop (.missing stop) (.member done name :: rest)
  | frames => closeOpen stop frames

/-- What was read so far. -/
def draft (r : Reader) : Draft :=
  let stop : Stop := if r.halted then .broken else .cut
  match r.mode with
  | .complete d => d
  | .value | .colon => enclose stop (.missing stop) r.frames
  | .firstItem | .firstName | .separator => closeOpen stop r.frames
  | .name => closeNamed stop { stop := some stop } r.frames
  | .text false s => enclose stop (.text (s.spelling (some stop))) r.frames
  | .text true s => closeNamed stop (s.spelling (some stop)) r.frames
  | .number done stage =>
    let missing := if stage.isComplete then none else some stop
    enclose stop (.number (String.ofList done.reverse) missing) r.frames
  | .word .. => enclose stop (.word stop) r.frames

/-- The document is followed by something else. -/
def trails (r : Reader) : Bool :=
  match r.mode with
  | .complete _ => r.halted
  | _ => false

end Reader

/-- Read a text: a draft of the document, and whether something else follows it. -/
def read (s : String) : Draft × Bool :=
  let r := s.toList.foldl Reader.step {}
  (r.draft, r.trails)

end Reconciler.Text.Json
