import Mathlib.Data.List.Forall2
import Reconciler.Proofs.Resource.Layers
import Reconciler.Proofs.Resource.Unwrapping

/-!
# Decorating, once, again and again, and a whole list

To decorate a resource is to unwrap it first, only to see whether that works, and then to add the
decorator in the way that applies. So the errors of decorating are those of unwrapping, and what
comes out is known from the resource alone (`Resource.decorated`).

A layer around the passes is one more step on the way down. The check is made before the layer is
added, so that the last resource that passes it comes out one step too deep: a resource 100 steps
deep is decorated, and what comes out can be neither unwrapped nor decorated again. Up to that
depth, and for CRUD resources always, decorating keeps a resource fit for both.

## Main definitions

* `Resource.decorated` : a resource with one more decorator
* `Registry.Wraps` : decorated again and again
* `Registry.Decorates` : what a decorator keeps of a resource

## Main results

* `Registry.wrapOne_eq` : decorating is unwrapping, for the error alone
* `Registry.Wraps.unwraps_iff` : how deep a resource may be decorated
* `Registry.wrap_elementwise` : a whole list
-/

namespace Reconciler

variable {I : Interface} {K P ι : Type}

/-! ### One resource -/

/-- The resource with one more decorator, in the way that applies. -/
def Resource.decorated (d : Decorator) : Resource I K P ι → Resource I K P ι
  | .crud c => .crud ⟨c.ops.decorate d, c.name_ne⟩
  | r => .layer d r

theorem Resource.decorated_of_isCrud {r : Resource I K P ι} (hr : r.isCrud = false)
    (d : Decorator) : r.decorated d = .layer d r := by
  cases r with
  | crud c => cases hr
  | _ => rfl

@[simp] theorem Resource.isCrud_decorated (d : Decorator) (r : Resource I K P ι) :
    (r.decorated d).isCrud = r.isCrud := by
  cases r with
  | _ => rfl

namespace Registry

variable {reg : Registry I K P ι} {d : Decorator} {r r' inner : Resource I K P ι} {k : Nat}

/-- To decorate is to unwrap, for the error alone, and to add the decorator. -/
theorem wrapOne_eq (reg : Registry I K P ι) (d : Decorator) (r : Resource I K P ι) :
    reg.wrapOne d r = (reg.underlying r).map fun _ => r.decorated d := by
  cases hcrud : r.isCrud with
  | true =>
    cases r with
    | crud c => exact reg.wrapOne_crud d c
    | _ => cases hcrud
  | false =>
    rw [wrapOne, splice_of_isCrud hcrud, Resource.decorated_of_isCrud hcrud]
    cases reg.underlying r with
    | ok inner => rfl
    | error e => rfl

theorem wrapOne_eq_ok_iff :
    reg.wrapOne d r = .ok r' ↔
      (∃ inner, reg.underlying r = .ok inner) ∧ r' = r.decorated d := by
  rw [wrapOne_eq]
  cases reg.underlying r with
  | ok inner => simp [Except.map, eq_comm]
  | error e => simp [Except.map]

theorem wrapOne_eq_error_iff {e : Error} :
    reg.wrapOne d r = .error e ↔ reg.underlying r = .error e := by
  rw [wrapOne_eq]
  cases reg.underlying r with
  | ok inner => simp [Except.map]
  | error e' => simp [Except.map]

theorem underlying_of_isCrud (hr : r.isCrud = true) : reg.underlying r = .ok r := by
  cases r with
  | crud c => rfl
  | _ => cases hr

/-- A layer is one more step on the way down. -/
theorem endsAt_layer_iff :
    EndsAt reg.wrapped? (.layer d r) (k + 1) inner ↔ EndsAt reg.wrapped? r k inner := by
  rw [endsAt_succ_iff]
  simp [wrapped?]

/-! ### Decorated again and again -/

/-- The second resource came about by decorating the first with these decorators, one after the
other. The outermost, which came last, is the first of the list. -/
inductive Wraps (reg : Registry I K P ι) (r : Resource I K P ι) :
    List Decorator → Resource I K P ι → Prop where
  /-- No decorator. -/
  | refl : Wraps reg r [] r
  /-- One more. -/
  | wrapOne {d : Decorator} {ds : List Decorator} {r' r'' : Resource I K P ι}
      (h : Wraps reg r ds r') (hr : reg.wrapOne d r' = .ok r'') : Wraps reg r (d :: ds) r''

namespace Wraps

variable {ds : List Decorator}

theorem isCrud_eq (h : reg.Wraps r ds r') : r'.isCrud = r.isCrud := by
  induction h with
  | refl => rfl
  | wrapOne _ hr ih =>
    obtain ⟨-, rfl⟩ := wrapOne_eq_ok_iff.1 hr
    rw [Resource.isCrud_decorated, ih]

/-- Every decorator makes the way down of a basic resource longer by one step. -/
theorem endsAt_iff (h : reg.Wraps r ds r') (hr : r.isCrud = false) :
    EndsAt reg.wrapped? r' (k + ds.length) inner ↔ EndsAt reg.wrapped? r k inner := by
  induction h with
  | refl => rfl
  | wrapOne h hlast ih =>
    have hbasic := h.isCrud_eq.trans hr
    obtain ⟨-, rfl⟩ := wrapOne_eq_ok_iff.1 hlast
    rw [Resource.decorated_of_isCrud hbasic, List.length_cons, ← Nat.add_assoc, endsAt_layer_iff]
    exact ih

/-- The way down of a basic resource goes through all the layers that were added. -/
theorem length_le (h : reg.Wraps r ds r') (hr : r.isCrud = false)
    (hend : EndsAt reg.wrapped? r' k inner) : ds.length ≤ k := by
  induction h generalizing k with
  | refl => exact Nat.zero_le k
  | wrapOne h hlast ih =>
    have hbasic := h.isCrud_eq.trans hr
    obtain ⟨-, rfl⟩ := wrapOne_eq_ok_iff.1 hlast
    rw [Resource.decorated_of_isCrud hbasic] at hend
    cases k with
    | zero => exact absurd (endsAt_zero_iff.1 hend).2 (by simp [wrapped?])
    | succ k => exact Nat.succ_le_succ (ih (endsAt_layer_iff.1 hend))

/-- The way down of a basic resource has an end if the resource could be decorated, within 100 steps
from what the last decorator was added to. -/
theorem exists_endsAt (h : reg.Wraps r (d :: ds) r') (hr : r.isCrud = false) :
    ∃ k inner, EndsAt reg.wrapped? r k inner ∧ k + ds.length ≤ 100 := by
  cases h with
  | wrapOne h hlast =>
    obtain ⟨⟨inner, hinner⟩, -⟩ := wrapOne_eq_ok_iff.1 hlast
    obtain ⟨n, hn, hend⟩ := underlying_eq_ok_iff.1 hinner
    obtain ⟨k, rfl⟩ := Nat.exists_eq_add_of_le' (h.length_le hr hend)
    exact ⟨k, inner, (h.endsAt_iff hr).1 hend, hn⟩

end Wraps

/-- A decorated CRUD resource can be unwrapped and decorated again. So can any other decorated
resource, as long as its way down has no more than 100 steps, those that its decorators added
included; it is unwrapped to what the resource was unwrapped to before. If it has one step more,
which is the only other case there is, then it can be neither unwrapped nor decorated again. -/
theorem Wraps.unwraps_iff {ds : List Decorator} (h : reg.Wraps r (d :: ds) r') :
    (r.isCrud = true →
      reg.underlying r' = .ok r' ∧ ∀ d', ∃ r'', reg.wrapOne d' r' = .ok r'') ∧
      (r.isCrud = false → ∃ k inner, EndsAt reg.wrapped? r k inner ∧
        reg.underlying r = .ok inner ∧
        (k + (d :: ds).length ≤ 100 →
          reg.underlying r' = .ok inner ∧ ∀ d', ∃ r'', reg.wrapOne d' r' = .ok r'') ∧
        (¬ k + (d :: ds).length ≤ 100 → k + (d :: ds).length = 101 ∧
          reg.underlying r' = .error (.loopDetected 100) ∧
          ∀ d', reg.wrapOne d' r' = .error (.loopDetected 100))) := by
  constructor
  · intro hr
    have hunder : reg.underlying r' = .ok r' := underlying_of_isCrud (h.isCrud_eq.trans hr)
    exact ⟨hunder, fun d' => ⟨_, wrapOne_eq_ok_iff.2 ⟨⟨r', hunder⟩, rfl⟩⟩⟩
  · intro hr
    obtain ⟨k, inner, hend, hk⟩ := h.exists_endsAt hr
    have hdecorated := underlying_of_endsAt ((h.endsAt_iff hr).2 hend)
    have hbefore := underlying_of_endsAt hend
    rw [if_pos (by omega)] at hbefore
    refine ⟨k, inner, hend, hbefore, fun hle => ?_, fun hlt => ?_⟩
    · rw [if_pos hle] at hdecorated
      exact ⟨hdecorated, fun d' => ⟨_, wrapOne_eq_ok_iff.2 ⟨⟨inner, hdecorated⟩, rfl⟩⟩⟩
    · rw [if_neg hlt] at hdecorated
      rw [List.length_cons] at hlt ⊢
      exact ⟨by omega, hdecorated, fun d' => wrapOne_eq_error_iff.2 hdecorated⟩

/-- A resource 98 steps deep can be logged and measured, and then it can still be unwrapped; after
one more decorator it cannot. -/
theorem Wraps.unwraps_links :
    let reg := ofGraph flagpole Unit Unit chained
    ∃ r' r'', reg.Wraps (.basic 98) [.metrics default, .logging] r' ∧
      reg.Wraps (.basic 98) [.logging, .metrics default, .logging] r'' ∧
      reg.underlying r' = .ok (.basic 0) ∧
      reg.underlying r'' = .error (.loopDetected 100) := by
  intro reg
  have hend : EndsAt reg.wrapped? (.basic 98) 98 (.basic 0) := endsAt_chained 98
  have hfirst : reg.Wraps (.basic 98) [.logging] _ :=
    Wraps.refl.wrapOne (wrapOne_eq_ok_iff.2 ⟨⟨_, underlying_of_endsAt hend⟩, rfl⟩)
  obtain ⟨k, inner, hk, -, hshallow, -⟩ := hfirst.unwraps_iff.2 rfl
  obtain ⟨rfl, rfl⟩ := hend.unique hk
  have hboth := hfirst.wrapOne ((hshallow (by decide)).2 (.metrics default)).choose_spec
  obtain ⟨k, inner, hk, -, hshallow, -⟩ := hboth.unwraps_iff.2 rfl
  obtain ⟨rfl, rfl⟩ := hend.unique hk
  obtain ⟨hunder, hagain⟩ := hshallow (by decide)
  have hthree := hboth.wrapOne (hagain .logging).choose_spec
  obtain ⟨k, inner, hk, -, -, hdeep⟩ := hthree.unwraps_iff.2 rfl
  obtain ⟨rfl, rfl⟩ := hend.unique hk
  exact ⟨_, _, hboth, hthree, hunder, (hdeep (by decide)).2.1⟩

/-- A resource 100 steps deep is decorated, but what comes out can be neither unwrapped nor
decorated again. -/
theorem unwrappable_lost :
    let reg := ofGraph flagpole Unit Unit chained
    reg.underlying (.basic 100) = .ok (.basic 0) ∧
      reg.wrapOne .logging (.basic 100) = .ok (.layer .logging (.basic 100)) ∧
      reg.underlying (.layer .logging (.basic 100)) = .error (.loopDetected 100) ∧
      reg.wrapOne .logging (.layer .logging (.basic 100)) = .error (.loopDetected 100) := by
  intro reg
  have hend : EndsAt reg.wrapped? (.basic 100) 100 (.basic 0) := endsAt_chained 100
  have hunder : reg.underlying (.basic 100) = .ok (.basic 0) := underlying_of_endsAt hend
  have hlost : reg.underlying (.layer .logging (.basic 100)) = .error (.loopDetected 100) :=
    underlying_of_endsAt (endsAt_layer_iff.2 hend)
  exact ⟨hunder, wrapOne_eq_ok_iff.2 ⟨⟨_, hunder⟩, rfl⟩, hlost, wrapOne_eq_error_iff.2 hlost⟩

/-! ### A list of resources -/

/-- The second resource is the first with a decorator added: it has the same name and is of the same
kind. If it is a CRUD resource then the decorator is around its calls and nothing is wrapped, and
otherwise it wraps the first. -/
structure Decorates (reg : Registry I K P ι) (d : Decorator) (r r' : Resource I K P ι) : Prop where
  name : reg.name r' = reg.name r
  isCrud : r'.isCrud = r.isCrud
  wrapped : reg.wrapped? r' = if r.isCrud then none else some r
  calls : ∀ c, r = .crud c → ∃ c', r' = .crud c' ∧ c'.ops = c.ops.decorate d

theorem decorates_decorated (reg : Registry I K P ι) (d : Decorator) (r : Resource I K P ι) :
    reg.Decorates d r (r.decorated d) where
  name := by
    cases r with
    | _ => rfl
  isCrud := r.isCrud_decorated d
  wrapped := by
    cases r with
    | _ => rfl
  calls := by
    rintro c rfl
    exact ⟨_, rfl, rfl⟩

theorem wrap_cons_of_ok (hr : reg.underlying r = .ok inner) (rs : List (Resource I K P ι)) :
    reg.wrap d (r :: rs) = (reg.wrap d rs).map (r.decorated d :: ·) := by
  rw [wrap, wrapOne_eq, hr]
  cases reg.wrap d rs with
  | ok rest => rfl
  | error e => rfl

theorem wrap_cons_of_error {e : Error} (hr : reg.underlying r = .error e)
    (rs : List (Resource I K P ι)) : reg.wrap d (r :: rs) = .error e := by
  rw [wrap, wrapOne_eq, hr]
  rfl

/-- If each resource can be unwrapped then each of them is decorated. -/
theorem wrap_of_forall {rs : List (Resource I K P ι)}
    (h : ∀ r ∈ rs, ∃ inner, reg.underlying r = .ok inner) :
    reg.wrap d rs = .ok (rs.map (Resource.decorated d)) := by
  induction rs with
  | nil => rfl
  | cons r rs ih =>
    obtain ⟨⟨inner, hr⟩, hrs⟩ := List.forall_mem_cons.1 h
    rw [wrap_cons_of_ok hr, ih hrs]
    rfl

/-- Otherwise the first that cannot be unwrapped decides. -/
theorem wrap_of_first {before after : List (Resource I K P ι)} {e : Error}
    (hbefore : ∀ r₀ ∈ before, ∃ inner, reg.underlying r₀ = .ok inner)
    (hr : reg.underlying r = .error e) : reg.wrap d (before ++ r :: after) = .error e := by
  induction before with
  | nil => exact wrap_cons_of_error hr after
  | cons r₀ before ih =>
    obtain ⟨⟨inner, hr₀⟩, hbefore⟩ := List.forall_mem_cons.1 hbefore
    rw [List.cons_append, wrap_cons_of_ok hr₀, ih hbefore]
    rfl

/-- Each resource of a list can be unwrapped, or there is a first that cannot. -/
theorem forall_or_first (reg : Registry I K P ι) (rs : List (Resource I K P ι)) :
    (∀ r ∈ rs, ∃ inner, reg.underlying r = .ok inner) ∨
      ∃ before r after, rs = before ++ r :: after ∧
        (∀ r₀ ∈ before, ∃ inner, reg.underlying r₀ = .ok inner) ∧
        reg.underlying r = .error (.loopDetected 100) := by
  induction rs with
  | nil => exact .inl (by simp)
  | cons r rs ih =>
    cases hr : reg.underlying r with
    | error e =>
      obtain rfl := (underlying_eq_error_iff.1 hr).1
      exact .inr ⟨[], r, rs, rfl, by simp, hr⟩
    | ok inner =>
      rcases ih with hall | ⟨before, r₁, after, rfl, hbefore, hr₁⟩
      · exact .inl (List.forall_mem_cons.2 ⟨⟨inner, hr⟩, hall⟩)
      · exact .inr ⟨r :: before, r₁, after, rfl,
          List.forall_mem_cons.2 ⟨⟨inner, hr⟩, hbefore⟩, hr₁⟩

/-- A list of resources is decorated exactly if each of them can be unwrapped, and then each of them
is decorated, in order. Otherwise the first that cannot be unwrapped decides the error. The error is
always that of unwrapping, and says neither that a way of decorating does not apply nor that a
resource has no name. -/
theorem wrap_elementwise (reg : Registry I K P ι) (d : Decorator) (rs : List (Resource I K P ι)) :
    ((∃ rs', reg.wrap d rs = .ok rs') ↔ ∀ r ∈ rs, ∃ inner, reg.underlying r = .ok inner) ∧
      (∀ rs', reg.wrap d rs = .ok rs' → List.Forall₂ (reg.Decorates d) rs rs') ∧
      (∀ e, reg.wrap d rs = .error e ↔ e = .loopDetected 100 ∧
        ∃ before r after, rs = before ++ r :: after ∧
          (∀ r₀ ∈ before, ∃ inner, reg.underlying r₀ = .ok inner) ∧ reg.underlying r = .error e) ∧
      ∀ e, reg.wrap d rs = .error e → e.isIncompatible = false ∧ e.isInvalidConfig = false := by
  rcases reg.forall_or_first rs with hall | ⟨before, r, after, rfl, hbefore, hr⟩
  · have hok : reg.wrap d rs = .ok (rs.map (Resource.decorated d)) := wrap_of_forall hall
    rw [hok]
    refine ⟨⟨fun _ => hall, fun _ => ⟨_, rfl⟩⟩, fun rs' h => ?_, fun e => ⟨fun h => ?_, ?_⟩,
      fun e h => ?_⟩
    · cases h
      rw [List.forall₂_map_right_iff, List.forall₂_same]
      exact fun r _ => reg.decorates_decorated d r
    · cases h
    · rintro ⟨-, before, r, after, rfl, -, hr⟩
      obtain ⟨inner, hinner⟩ := hall r (by simp)
      cases hinner.symm.trans hr
    · cases h
  · have herror : reg.wrap d (before ++ r :: after) = .error (.loopDetected 100) :=
      wrap_of_first hbefore hr
    rw [herror]
    refine ⟨⟨fun ⟨rs', h⟩ => ?_, fun hall => ?_⟩, fun rs' h => ?_, fun e => ⟨fun h => ?_, ?_⟩,
      fun e h => ?_⟩
    · cases h
    · obtain ⟨inner, hinner⟩ := hall r (by simp)
      cases hinner.symm.trans hr
    · cases h
    · cases h
      exact ⟨rfl, before, r, after, rfl, hbefore, hr⟩
    · rintro ⟨rfl, -⟩
      rfl
    · cases h
      exact ⟨rfl, rfl⟩

/-- A flag and a chain of three are measured; with a ring before the chain they are not. -/
theorem wrap_elementwise_links :
    let flagResource : Resource flagpole Unit (Bool ⊕ Bool) Nat := .crud flagCrud
    let reg := ofGraph flagpole Unit (Bool ⊕ Bool) chained
    let rings := ofGraph flagpole Unit (Bool ⊕ Bool) ringed
    (∃ flag' chain', reg.wrap (.metrics default) [flagResource, .basic 3] = .ok [flag', chain'] ∧
        reg.name flag' = "flag" ∧ flag'.isCrud = true ∧ reg.wrapped? flag' = none ∧
        reg.name chain' = "link" ∧ chain'.isCrud = false ∧
        reg.wrapped? chain' = some (.basic 3)) ∧
      rings.wrap (.metrics default) [flagResource, .basic 1] = .error (.loopDetected 100) := by
  intro flagResource reg rings
  constructor
  · have hchain : EndsAt reg.wrapped? (.basic 3) 3 (.basic 0) := endsAt_chained 3
    have hall : ∀ r ∈ [flagResource, .basic 3], ∃ inner, reg.underlying r = .ok inner :=
      List.forall_mem_cons.2 ⟨⟨flagResource, rfl⟩,
        List.forall_mem_singleton.2 ⟨_, underlying_of_endsAt hchain⟩⟩
    obtain ⟨hok, hkept, -, -⟩ := reg.wrap_elementwise (.metrics default) [flagResource, .basic 3]
    obtain ⟨rs', hrs'⟩ := hok.2 hall
    obtain _ | ⟨hflag, _ | ⟨hchain, ⟨⟩⟩⟩ := hkept rs' hrs'
    exact ⟨_, _, hrs', hflag.name, hflag.isCrud, hflag.wrapped, hchain.name, hchain.isCrud,
      hchain.wrapped⟩
  · have hround : after? rings.wrapped? 3 (.basic 1) = some (.basic 1) := by
      rw [after?_ofGraph]
      rfl
    have hring : rings.underlying (.basic 1) = .error (.loopDetected 100) :=
      underlying_eq_error_iff.2 ⟨rfl, fun k _ inner =>
        not_endsAt_of_ring (after?_zero _ _) (Nat.succ_pos 2) hround k inner⟩
    obtain ⟨-, -, herror, -⟩ := rings.wrap_elementwise (.metrics default) [flagResource, .basic 1]
    exact (herror _).2 ⟨rfl, [flagResource], .basic 1, [], rfl,
      List.forall_mem_singleton.2 ⟨flagResource, rfl⟩, hring⟩

end Registry

end Reconciler
