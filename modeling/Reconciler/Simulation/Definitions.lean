import Reconciler.Controller.Schema

/-!
# Definitions that come into service by script

The script says whether a definition can be created and deleted, and what each look at its status
yields; the last look repeats.
-/

namespace Reconciler.Simulation

/-- The script and the calls made. -/
structure ScriptedDefinitions where
  /-- The error of creating, if it fails. -/
  createFault : Option Error := none
  /-- The error of deleting, if it fails. -/
  deleteFault : Option Error := none
  /-- What the looks at the status yield. -/
  polls : List (Except Error (Option DefinitionStatus)) := []
  /-- How many looks there were. -/
  polled : Nat := 0
  /-- The calls so far, newest first. -/
  calls : List DefinitionRequest := []

namespace ScriptedDefinitions

/-- Success or the given error. -/
def outcome : Option Error → Except Error Unit
  | none => .ok ()
  | some e => .error e

/-- What the next look yields. A script without looks has no status to report. -/
def look (s : ScriptedDefinitions) : Except Error (Option DefinitionStatus) :=
  match s.polls[s.polled]? with
  | some r => r
  | none => s.polls.getLast?.getD (.ok none)

/-- Answer a question. -/
def answer : (q : DefinitionRequest) → ScriptedDefinitions →
    definitions.Reply q × ScriptedDefinitions
  | .create name, s => (outcome s.createFault, { s with calls := .create name :: s.calls })
  | .get name, s =>
    (s.look, { s with polled := s.polled + 1, calls := .get name :: s.calls })
  | .delete name, s => (outcome s.deleteFault, { s with calls := .delete name :: s.calls })

end ScriptedDefinitions

end Reconciler.Simulation
