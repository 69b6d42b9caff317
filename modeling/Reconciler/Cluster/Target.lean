import Reconciler.Text.Form

/-!
# Targets of requests

A target is written as a path with parameters behind a question mark. Names go into the path as they
are. So a question mark in a name ends the path there, and the rest of the written path is the
beginning of the query; a number sign ends the target, and nothing behind it is sent, not even the
parameters. A target with other characters that may not stand in a path or in a query cannot be sent
(`Target.isValid`), and neither can one that is too long (`Target.fits`).
-/

namespace Reconciler.Cluster

/-- What a request is sent to. -/
structure Target where
  /-- The path as it is written. -/
  written : String
  /-- The parameters; nothing if the target ends with the path. -/
  parameters : Option (List (String × String)) := none
deriving DecidableEq, Inhabited, Repr

namespace Target

/-- The character may stand in a path. -/
def isPathChar (c : Char) : Bool :=
  let n := c.toNat
  n == 0x21 || n == 0x22 || (0x24 ≤ n && n ≤ 0x3B) || n == 0x3D || (0x40 ≤ n && n ≤ 0x5F) ||
    (0x61 ≤ n && n ≤ 0x7E) || 0x80 ≤ n

/-- The character may stand in a query. -/
def isQueryChar (c : Char) : Bool :=
  let n := c.toNat
  n == 0x21 || (0x24 ≤ n && n ≤ 0x3B) || n == 0x3D || (0x3F ≤ n && n ≤ 0x7E) || 0x80 ≤ n

/-- What is written in front of the parameters and is sent. -/
def sent (t : Target) : List Char :=
  (t.written.toList ++ if t.parameters.isSome then ['?'] else []).takeWhile (· != '#')

/-- The path that is sent. -/
def pathChars (t : Target) : List Char := t.sent.takeWhile (· != '?')

/-- The beginning of the query, which was written as a part of the path. -/
def queryChars (t : Target) : List Char := (t.sent.dropWhile (· != '?')).drop 1

/-- The target can be sent. -/
def isValid (t : Target) : Bool := t.pathChars.all isPathChar && t.queryChars.all isQueryChar

/-- The longest target, in bytes. -/
def maxBytes : Nat := 65534

/-- The whole target as it is written. Parameters are set off from the question mark. -/
def text (t : Target) : String :=
  match t.parameters with
  | none => t.written
  | some [] => t.written ++ "?"
  | some parameters => t.written ++ "?&" ++ Text.Form.write parameters

/-- The target is not too long, with all that would not be sent. -/
def fits (t : Target) : Bool := t.text.utf8ByteSize ≤ maxBytes

/-- The path as the server sees it. -/
def path (t : Target) : String := String.ofList t.pathChars

/-- The parameters as the server sees them. -/
def query (t : Target) : List (String × String) :=
  Text.Form.parameters (String.ofList t.queryChars) ++
    if t.written.contains '#' then [] else t.parameters.getD []

end Target

end Reconciler.Cluster
