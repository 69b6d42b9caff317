import Reconciler.Resource.Basic

/-!
# Resource sets

An ordered pipeline of resources together with the predicate that says which objects it handles. A
set is built from a `ResourceSet.Config`; the first fault found is reported: no predicate, no
resources, a resource without a name.
-/

namespace Reconciler

variable {I : Interface} {K P ι : Type}

/-- A predicate and the resources reconciled, in order, for the objects that satisfy it. -/
structure ResourceSet (I : Interface) (K P ι : Type) where
  /-- Which objects the set applies to. -/
  handles : K → Bool
  /-- The resources in order. -/
  resources : List (Resource I K P ι)

/-- What a resource set is built from. -/
structure ResourceSet.Config (I : Interface) (K P ι : Type) where
  /-- Which objects the set applies to. -/
  handles : Option (K → Bool) := none
  /-- The resources in order. -/
  resources : List (Resource I K P ι) := []

/-- Check a configuration. -/
def ResourceSet.ofConfig (reg : Registry I K P ι) (c : ResourceSet.Config I K P ι) :
    Except Error (ResourceSet I K P ι) :=
  match c.handles with
  | none => .error (.invalidConfig "resource set" "handles predicate must be set")
  | some handles =>
    if c.resources.isEmpty then
      .error (.invalidConfig "resource set" "at least one resource is required")
    else
      match c.resources.findIdx? fun r => (reg.name r).isEmpty with
      | some i =>
        .error (.invalidConfig "resource set"
          ("resource at position " ++ toString i ++ " has an empty name"))
      | none => .ok ⟨handles, c.resources⟩

/-- The set in the notation of diagnostics. -/
def ResourceSet.debugText (reg : Registry I K P ι) (s : ResourceSet I K P ι) : String :=
  "ResourceSet \x7b resources: [" ++ String.intercalate ", " (s.resources.map reg.debugText) ++
    "], .. \x7d"

end Reconciler
