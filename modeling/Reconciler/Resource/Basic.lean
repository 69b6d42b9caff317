import Reconciler.Resource.Decorator

/-!
# Resources

A `Resource` is a CRUD resource, a basic resource, or a decorator's layer around a resource. Basic
resources know nothing but how to ensure that an object's effects exist or are gone; they are
referred to by an index into a `Registry`, so wrappers that wrap each other in a ring are ordinary
data. A registry therefore stands beside a resource wherever its name, its passes or what it wraps
matter.

`Registry.underlying` follows what is wrapped down to a resource that wraps nothing and gives up
after `maxUnwrapDepth` steps, so it ends on rings too.

## Main definitions

* `Resource`, `BasicResource`, `Registry`
* `Registry.name`, `Registry.ensure`, `Registry.wrapped?` : what a resource is called, does and
  wraps
* `Registry.underlying` : the innermost resource
* `Registry.splice`, `Registry.wrapOne`, `Registry.wrap` : decorating
-/

namespace Reconciler

/-- Something that reconciles objects `K`, asking questions of `I`, with payloads `P`, where basic
resources are named by indices `ι`. -/
inductive Resource (I : Interface) (K P ι : Type) where
  /-- A registered basic resource. -/
  | basic (index : ι)
  /-- A decorator around the two passes of a resource. -/
  | layer (decorator : Decorator) (inner : Resource I K P ι)
  /-- A resource driven by the patch protocol. -/
  | crud (crud : Crud I K P)

/-- A basic resource. -/
structure BasicResource (I : Interface) (K P ι : Type) where
  /-- Stable name. -/
  name : String
  /-- Run a pass over an object. -/
  ensure : Pass → K → Program I (Except Error Unit)
  /-- The resource it stands around, if any. -/
  wrapped : Option (Resource I K P ι) := none

/-- The basic resources by index. -/
structure Registry (I : Interface) (K P ι : Type) where
  /-- Look an index up. -/
  lookup : ι → BasicResource I K P ι

/-- Follow `next` to a point that has none, over at most `depth` steps. -/
def unwrap? {α : Type} (next : α → Option α) : Nat → α → Option α
  | 0, a =>
    match next a with
    | none => some a
    | some _ => none
  | depth + 1, a =>
    match next a with
    | none => some a
    | some b => unwrap? next depth b

/-- How many wrappers are looked through. -/
def maxUnwrapDepth : Nat := 100

namespace Resource

variable {I : Interface} {K P ι : Type}

/-- Driven by the patch protocol. -/
def isCrud : Resource I K P ι → Bool
  | .crud _ => true
  | _ => false

end Resource

namespace Registry

variable {I : Interface} {K P ι : Type}

/-- Name of a resource; a layer has the name of what it decorates. -/
def name (reg : Registry I K P ι) : Resource I K P ι → String
  | .basic i => (reg.lookup i).name
  | .layer _ inner => reg.name inner
  | .crud c => c.ops.name

/-- Run a pass of a resource over an object. -/
def ensure (reg : Registry I K P ι) (pass : Pass) : Resource I K P ι → K →
    Program I (Except Error Unit)
  | .basic i, k => (reg.lookup i).ensure pass k
  | .layer d inner, k => d.around (reg.name inner) pass.operation (reg.ensure pass inner k)
  | .crud c, k => c.ops.reconcile pass k

/-- The resource that one stands directly around; CRUD resources stand around none. -/
def wrapped? (reg : Registry I K P ι) : Resource I K P ι → Option (Resource I K P ι)
  | .basic i => (reg.lookup i).wrapped
  | .layer _ inner => some inner
  | .crud _ => none

/-- The innermost resource, unless it lies deeper than `maxUnwrapDepth` steps. -/
def underlying (reg : Registry I K P ι) (r : Resource I K P ι) :
    Except Error (Resource I K P ι) :=
  match unwrap? reg.wrapped? maxUnwrapDepth r with
  | some inner => .ok inner
  | none => .error (.loopDetected maxUnwrapDepth)

/-- The resource in the notation of diagnostics. -/
def debugText (reg : Registry I K P ι) (r : Resource I K P ι) : String :=
  (if r.isCrud then "Crud(" else "Basic(") ++ Text.quoted (reg.name r) ++ ")"

/-- Decorate the calls of a CRUD resource. Nothing is looked through: what a wrapper adds is
kept. -/
def splice (reg : Registry I K P ι) (d : Decorator) :
    Resource I K P ι → Except Error (Resource I K P ι)
  | .crud c => (Crud.ofOps (c.ops.decorate d)).map .crud
  | r => .error (.incompatible (reg.name r) "not a CRUD resource")

/-- Decorate one resource, call by call if it is CRUD and as a whole otherwise. A resource that
cannot be unwrapped is refused. -/
def wrapOne (reg : Registry I K P ι) (d : Decorator) (r : Resource I K P ι) :
    Except Error (Resource I K P ι) := do
  let _ ← reg.underlying r
  match reg.splice d r with
  | .error e => if e.isIncompatible then .ok (.layer d r) else .error e
  | .ok decorated => .ok decorated

/-- Decorate every resource in order, up to the first that is refused. -/
def wrap (reg : Registry I K P ι) (d : Decorator) :
    List (Resource I K P ι) → Except Error (List (Resource I K P ι))
  | [] => .ok []
  | r :: rs => do
    let decorated ← reg.wrapOne d r
    let rest ← reg.wrap d rs
    .ok (decorated :: rest)

/-! ### How one resource is decorated -/

variable {reg : Registry I K P ι} {d : Decorator} {r r' : Resource I K P ι}

theorem splice_crud (reg : Registry I K P ι) (d : Decorator) (c : Crud I K P) :
    reg.splice d (.crud c) = .ok (.crud ⟨c.ops.decorate d, c.name_ne⟩) := by
  rw [splice, Crud.ofOps, dif_pos (show (c.ops.decorate d).name ≠ "" from c.name_ne)]
  rfl

/-- Only CRUD resources can be decorated call by call. -/
theorem splice_eq_ok (h : reg.splice d r = .ok r') :
    ∃ c, r = .crud c ∧ r' = .crud ⟨c.ops.decorate d, c.name_ne⟩ := by
  cases r with
  | basic i => cases h
  | layer d' inner => cases h
  | crud c =>
    rw [splice_crud] at h
    cases h
    exact ⟨c, rfl, rfl⟩

/-- A CRUD resource is always decorated call by call. -/
theorem wrapOne_crud (reg : Registry I K P ι) (d : Decorator) (c : Crud I K P) :
    reg.wrapOne d (.crud c) = .ok (.crud ⟨c.ops.decorate d, c.name_ne⟩) := by
  have hunder : reg.underlying (.crud c) = .ok (.crud c) := rfl
  rw [wrapOne, hunder, splice_crud]
  rfl

/-- Any other resource is refused. -/
theorem splice_of_isCrud (hr : r.isCrud = false) :
    reg.splice d r = .error (.incompatible (reg.name r) "not a CRUD resource") := by
  cases r with
  | basic i => rfl
  | layer d' inner => rfl
  | crud c => cases hr

/-- A resource is decorated call by call or as a whole. -/
theorem wrapOne_eq_ok (h : reg.wrapOne d r = .ok r') :
    reg.splice d r = .ok r' ∨ r' = .layer d r := by
  rw [wrapOne] at h
  cases hunder : reg.underlying r with
  | error e => rw [hunder] at h; cases h
  | ok inner =>
    rw [hunder] at h
    cases hcrud : r.isCrud with
    | false =>
      rw [splice_of_isCrud hcrud] at h
      cases h
      exact .inr rfl
    | true =>
      cases r with
      | crud c =>
        rw [splice_crud] at h ⊢
        exact .inl h
      | _ => cases hcrud

end Registry

end Reconciler
