import Mathlib.Data.List.Infix
import Reconciler.Proofs.Informer.History

/-!
# What applying a list does

A list is applied object by object, and the cache that decides about an object was changed by the
objects before it. What the cache tracks at an object's turn is told by those before it that have
its key, or else by what was tracked when the list came: `Cache.trackedAfter`. With this the whole
of a list can be said without going through it. Afterwards exactly the list is tracked, in every
mode. A seed sends all of it, a relist what is news at its turn, and a resync nothing.

## Main definitions

* `Cache.Tracks` : a cache holds exactly the keys of a list, at the versions listed last
* `Cache.trackedAfter` : the version that is tracked of a key after some objects were observed
* `Informer.newsIn` : the objects of a list that are news at their turn

## Main results

* `State.tracks_applyList`, `State.tracks_applyResync` : afterwards exactly the list is tracked
* `State.sent_seed`, `State.sent_relist` : what a list that seeds or repairs sends
* `State.list_applied` : what applying a list does, in every mode
-/

namespace Reconciler

variable {β : Type}

namespace Cache

variable {c : Cache} {items : List (Object β)} {k : String}

/-- The keys in the cache are those of the list, each at the version of the last listed object that
has it. -/
structure Tracks (c : Cache) (items : List (Object β)) : Prop where
  /-- No key is missing, and there is none besides. -/
  keys : ∀ k, (c.get? k).isSome = true ↔ ∃ o ∈ items, o.key = k
  /-- Of several objects with one key the last counts. -/
  versions : ∀ k e, c.get? k = some e → ∃ o, lastOf items k = some o ∧ e.version = o.version

theorem isSome_lastOf : (lastOf items k).isSome = true ↔ ∃ o ∈ items, o.key = k := by
  simp [lastOf]

theorem tracks_of_version
    (h : ∀ k, (c.get? k).map (·.version) = (lastOf items k).map Object.version) :
    c.Tracks items where
  keys k := by
    rw [← isSome_lastOf, ← Option.isSome_map (f := Object.version), ← h k, Option.isSome_map]
  versions k e he := by
    have hversion := h k
    rw [he] at hversion
    obtain ⟨o, ho, heq⟩ := Option.map_eq_some_iff.1 hversion.symm
    exact ⟨o, ho, heq.symm⟩

/-- The version tracked of a key once the objects of `before` were observed: the last of them that
has the key tells it, and else what was tracked already. -/
def trackedAfter (c : Cache) (before : List (Object β)) (k : String) : Option String :=
  ((lastOf before k).map Object.version).or ((c.get? k).map (·.version))

@[simp] theorem trackedAfter_nil (c : Cache) (k : String) :
    c.trackedAfter ([] : List (Object β)) k = (c.get? k).map (·.version) := rfl

theorem trackedAfter_cons (c : Cache) (o : Object β) (before : List (Object β)) (k : String) :
    c.trackedAfter (o :: before) k = (c.observe o).2.trackedAfter before k := by
  simp only [trackedAfter, ← version_foldl_observe, List.foldl_cons]

theorem knows_iff (c : Cache) (o : Object β) :
    c.knows o = true ↔ o.version ≠ "" ∧ (c.get? o.key).map (·.version) = some o.version := by
  simp [knows, Option.any_eq_true]

end Cache

namespace Informer

/-- An object without a version is news, and so is one whose version is not the tracked one. -/
def IsNews (tracked : Option String) (o : Object β) : Prop :=
  o.version = "" ∨ tracked ≠ some o.version

instance (tracked : Option String) (o : Object β) : Decidable (IsNews tracked o) :=
  inferInstanceAs (Decidable (_ ∨ _))

/-- The objects of a list that are news at their turn, in order: to each belongs what was listed
before it. -/
def newsIn (c : Cache) (items : List (Object β)) : List (Object β) :=
  ((items.inits.zip items).filter fun x => IsNews (c.trackedAfter x.1 x.2.key) x.2).map Prod.snd

/-- The first object is news or not by what was tracked when the list came; the others go by what is
tracked once the first was observed. -/
theorem newsIn_cons (c : Cache) (o : Object β) (os : List (Object β)) :
    newsIn c (o :: os) = (if c.knows o then [] else [o]) ++ newsIn (c.observe o).2 os := by
  have hrest : ((os.inits.map (o :: ·)).zip os).filter
        (fun x => IsNews (c.trackedAfter x.1 x.2.key) x.2) =
      ((os.inits.zip os).filter
        fun x => IsNews ((c.observe o).2.trackedAfter x.1 x.2.key) x.2).map
          (Prod.map (o :: ·) id) := by
    rw [List.zip_map_left, List.filter_map]
    simp only [Function.comp_def, Prod.map_fst, Prod.map_snd, id, Cache.trackedAfter_cons]
  have hfirst : IsNews ((c.get? o.key).map (·.version)) o ↔ ¬c.knows o = true := by
    rw [c.knows_iff, not_and_or, not_not, IsNews]
  by_cases hknows : c.knows o = true <;>
    simp [newsIn, hrest, hfirst, hknows, Function.comp_def]

namespace State

/-! ### What is tracked afterwards -/

theorem cache_applyList (s : State β) (mode : ListMode) (now : Duration)
    (items : List (Object β)) :
    (s.applyList mode items).1.cache = (s.applyResync now items).1.cache := by
  simp only [applyList, applyResync, fst_observeAll]

theorem tracks_applyResync (s : State β) (now : Duration) (items : List (Object β)) :
    (s.applyResync now items).1.cache.Tracks items :=
  Cache.tracks_of_version (s.version_applyResync now items)

theorem tracks_applyList (s : State β) (mode : ListMode) (items : List (Object β)) :
    (s.applyList mode items).1.cache.Tracks items := by
  rw [cache_applyList s mode .zero]
  exact s.tracks_applyResync .zero items

/-! ### What is sent -/

/-- The first list sends every object, known or not. -/
theorem sent_observeAll_seed (c : Cache) (items : List (Object β)) :
    sent (observeAll .seed c items).2 = items.map fun o => (o.route, o) := by
  induction items generalizing c with
  | nil => rfl
  | cons o os ih =>
    have hfirst : sent (observeListed .seed c o).2 = [(o.route, o)] := by
      cases hknows : c.knows o <;> simp [observeListed, Cache.observe, hknows]
    rw [sent_observeAll_cons, hfirst, ih, List.map_cons, List.singleton_append]

/-- A list that repairs sends what is news at its turn. -/
theorem sent_observeAll_relist (c : Cache) (items : List (Object β)) :
    sent (observeAll .relist c items).2 = (newsIn c items).map fun o => (o.route, o) := by
  induction items generalizing c with
  | nil => rfl
  | cons o os ih =>
    have hfirst : sent (observeListed .relist c o).2 =
        (if c.knows o then [] else [o]).map fun o => (o.route, o) := by
      cases hknows : c.knows o <;> simp [observeListed, Cache.observe, hknows]
    rw [sent_observeAll_cons, fst_observeListed, hfirst, ih, newsIn_cons, List.map_append]

theorem sent_applyList (s : State β) (mode : ListMode) (items : List (Object β)) :
    sent (s.applyList mode items).2 = sent (observeAll mode s.cache items).2 := by
  rw [applyList, sent_append, sent_forget, List.append_nil]

@[simp] theorem sent_applyResync (s : State β) (now : Duration) (items : List (Object β)) :
    sent (s.applyResync now items).2 = [] := by
  simp only [applyResync, sent_append, sent_forget, List.append_nil]
  split <;> rfl

/-! ### The whole of it -/

/-- Afterwards exactly the list is tracked, whatever it is for. The first list sends every object
once and in order, each where its deletion timestamp puts it. A list that repairs sends in order
what is news at its turn. Neither changes anything else; the queue of a resync stays. A resync sends
nothing, and its whole list is the queue then. -/
theorem list_applied (s : State β) (now : Duration) (items : List (Object β)) :
    (∀ mode, (s.applyList mode items).1.cache.Tracks items ∧
      (s.applyList mode items).1 = { s with cache := (s.applyList mode items).1.cache }) ∧
    sent (s.applyList .seed items).2 = (items.map fun o => (o.route, o)) ∧
    sent (s.applyList .relist items).2 = ((newsIn s.cache items).map fun o => (o.route, o)) ∧
    (s.applyResync now items).1.cache.Tracks items ∧
    sent (s.applyResync now items).2 = [] ∧
    (s.applyResync now items).1 =
      { s with cache := (s.applyResync now items).1.cache, paced := items, pacedAt := now } := by
  refine ⟨fun mode => ⟨s.tracks_applyList mode items, rfl⟩, ?_, ?_, s.tracks_applyResync now items,
    s.sent_applyResync now items, rfl⟩
  · rw [sent_applyList, sent_observeAll_seed]
  · rw [sent_applyList, sent_observeAll_relist]

end State

end Informer

end Reconciler
