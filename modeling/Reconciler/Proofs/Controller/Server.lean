import Reconciler.Proofs.Controller.Boot

/-!
# What a server is trusted with

How a server fails matters to few statements. Most need only that its successes are true: a read
found what is stored, and a write went over the version that it was made from. A request that fails
may fail in any way, but it changes nothing.

## Main definitions

* `Stored.put`, `Stored.only`, `Stored.Keyed` : objects under their keys
* `Truthful` : what the success of a request says
* `Course.Trusted` : the server told the truth all along

## Main results

* `Answers.truthful` : the contract of the server says as much
* `trusted_perform` : and so does a server that answers every request
-/

namespace Reconciler

open Program (Act)

variable {I : Interface} {β : Type}

namespace Stored

/-- The server with another object. -/
def put (stored : Stored β) (o : Object β) : Stored β :=
  fun k => if k = o.key then some o else stored k

@[simp] theorem put_key (stored : Stored β) (o : Object β) : stored.put o o.key = some o :=
  if_pos rfl

theorem put_of_ne (stored : Stored β) {o : Object β} {k : String} (hk : k ≠ o.key) :
    stored.put o k = stored k :=
  if_neg hk

/-- Every object is kept under its own key. -/
def Keyed (stored : Stored β) : Prop := ∀ k o, stored k = some o → o.key = k

theorem Keyed.put {stored : Stored β} (h : stored.Keyed) (o : Object β) :
    (stored.put o).Keyed := by
  intro k p hp
  by_cases hk : k = o.key
  · rw [hk, put_key] at hp
    cases hp
    exact hk.symm
  · rw [put_of_ne stored hk] at hp
    exact h k p hp

/-- A server with one object. -/
def only (o : Object β) : Stored β := fun k => if k = o.key then some o else none

theorem eq_of_only {o p : Object β} {k : String} (hp : only o k = some p) : p = o ∧ k = o.key := by
  rw [only] at hp
  split at hp
  · cases hp
    exact ⟨rfl, ‹_›⟩
  · cases hp

theorem keyed_only (o : Object β) : (only o).Keyed := by
  intro k p hp
  obtain ⟨rfl, rfl⟩ := eq_of_only hp
  rfl

end Stored

/-- What the success of a request says: a read found what is stored, and a write went over the
version that it was made from. A failure says nothing, and changes nothing. -/
inductive Truthful (stored : Stored β) :
    ObjectRequest β → Except Error (Object β) → Stored β → Prop where
  | found {ns : Option String} {name : String} {o : Object β}
      (h : stored (objectKey ns name) = some o) : Truthful stored (.get ns name) (.ok o) stored
  | swapped {o old : Object β} (h : stored o.key = some old) (hversion : old.version = o.version)
      (version : String) (rep : Object β) :
      Truthful stored (.replace o) (.ok rep) (stored.put (o.atVersion version))
  | failed (q : ObjectRequest β) (e : Error) : Truthful stored q (.error e) stored

theorem Truthful.keyed {stored stored' : Stored β} {q : ObjectRequest β}
    {rep : Except Error (Object β)} (h : Truthful stored q rep stored') (hkeyed : stored.Keyed) :
    stored'.Keyed := by
  cases h with
  | found | failed => exact hkeyed
  | swapped => exact hkeyed.put _

/-- So much is part of the contract of the server. -/
theorem Answers.truthful {stored stored' : Stored β} {q : ObjectRequest β}
    {rep : Except Error (Object β)} (h : Answers stored q rep stored') :
    Truthful stored q rep stored' := by
  cases h with
  | found h => exact .found h
  | swapped h hversion version => exact .swapped h hversion version _
  | missing | refused | fault => exact .failed _ _

/-- The server told the truth about objects, and kept each under its own key. -/
def Course.Trusted (course : Course I β) : Prop :=
  ∀ q rep stored, (.asked (.object q) rep, stored) ∈ course →
    stored.Keyed ∧ ∃ stored', Truthful stored q rep stored'

/-- A server that answers every request can be trusted. -/
theorem trusted_perform {α : Type} (resource : (q : I.Request) → I.Reply q) (m : Moment)
    (p : Controller.Task I β α) {stored : Stored β} (hkeyed : stored.Keyed) :
    Course.Trusted (p.perform (surroundings resource) m stored).1 := by
  have hcons {a : Act (controllerInterface I β)} {stored : Stored β} {course : Course I β}
      (ha : ∀ q rep, a = .asked (.object q) rep →
        stored.Keyed ∧ ∃ stored', Truthful stored q rep stored')
      (hcourse : course.Trusted) : Course.Trusted ((a, stored) :: course) := by
    intro q rep stored' hmem
    rcases List.mem_cons.1 hmem with heq | hmem
    · cases heq
      exact ha q rep rfl
    · exact hcourse q rep stored' hmem
  induction p generalizing stored with
  | done a => rintro q rep stored' ⟨⟩
  | unfinished => rintro q rep stored' ⟨⟩
  | signal e next ih => exact hcons (by simp) (ih hkeyed)
  | sleep d next ih => exact hcons (by simp) (ih hkeyed)
  | moment next ih => exact hcons (by simp) (ih m hkeyed)
  | ask q next ih =>
    cases q with
    | object q =>
      have htruthful := (answers_serverAnswer stored q).truthful
      refine hcons ?_ (ih _ (htruthful.keyed hkeyed))
      rintro q' rep heq
      cases heq
      exact ⟨hkeyed, _, htruthful⟩
    | resource q => exact hcons (by rintro q' rep ⟨⟩) (ih _ hkeyed)
    | publish ref f => exact hcons (by rintro q' rep ⟨⟩) (ih _ hkeyed)

end Reconciler
