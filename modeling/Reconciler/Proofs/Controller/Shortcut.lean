import Reconciler.Proofs.Controller.Guard
import Reconciler.Proofs.Controller.Writers

/-!
# What the shortcut of `Finalizers.ensure` is worth

`Finalizers.ensure` asks nobody if the copy at hand carries the finalizer. Without this shortcut it
would be `Finalizers.reread`, which reads the object before it decides. Here nobody else writes to
the server, so the two can be compared by what is stored in the end.

Rereading always leaves an object that carries the finalizer or is being deleted. With the shortcut
a copy that does not carry the finalizer leads there as well, but a copy that does is believed: what
it says has to hold of the stored object already.

## Main definitions

* `Alone` : runs against a server that nobody else writes to
* `Finalizers.Marked` : an object is stored that carries the finalizer or is being deleted
* `Finalizers.reread` : making sure of the finalizer without the shortcut

## Main results

* `Finalizers.marked_of_reread` : rereading always leaves a marked object
* `Finalizers.marked_iff_of_ensure` : when the shortcut does
* `Finalizers.ensure_believes_copy` : it does not always
-/

namespace Reconciler

open Program (Act Runs)

variable {β : Type}

/-! ### A server that nobody else writes to -/

/-- Acts against a server that only they change, with what it keeps before and after them. -/
inductive Alone : Stored β → List (Act (objectClient β)) → Stored β → Prop where
  | nil (stored : Stored β) : Alone stored [] stored
  | cons {stored stored' stored'' : Stored β} {a : Act (objectClient β)}
      {as : List (Act (objectClient β))} (h : Serves stored a stored')
      (hrest : Alone stored' as stored'') : Alone stored (a :: as) stored''

namespace Alone

variable {stored stored' : Stored β} {as bs : List (Act (objectClient β))}

theorem of_append (h : Alone stored (as ++ bs) stored') :
    ∃ between, Alone stored as between ∧ Alone between bs stored' := by
  induction as generalizing stored with
  | nil => exact ⟨stored, .nil stored, h⟩
  | cons a as ih =>
    cases h with
    | cons hserves hrest =>
      obtain ⟨between, hbefore, hafter⟩ := ih hrest
      exact ⟨between, .cons hserves hbefore, hafter⟩

/-- Every object stays under its own key. -/
theorem keyed (h : Alone stored as stored') (hkeyed : stored.Keyed) : stored'.Keyed := by
  induction h with
  | nil => exact hkeyed
  | cons hserves _ ih =>
    refine ih ?_
    cases hserves with
    | asked htruthful => exact htruthful.keyed hkeyed
    | signalled | slept | looked => exact hkeyed

/-- A read changes nothing, and finds what is stored. -/
theorem of_found {ns : Option String} {name : String} {o : Object β}
    (h : Alone stored (.asked (I := objectClient β) (.get ns name) (.ok o) :: as) stored') :
    stored (objectKey ns name) = some o ∧ Alone stored as stored' := by
  cases h with
  | cons hserves hrest =>
    cases hserves with
    | asked htruthful => cases htruthful with | found hfound => exact ⟨hfound, hrest⟩

/-- A write that was taken is what is stored, at some version. -/
theorem of_swapped {o rep : Object β}
    (h : Alone stored (.asked (I := objectClient β) (.replace o) (.ok rep) :: as) stored') :
    ∃ version, Alone (stored.put (o.atVersion version)) as stored' := by
  cases h with
  | cons hserves hrest =>
    cases hserves with
    | asked htruthful =>
      cases htruthful with | swapped _ _ version => exact ⟨version, hrest⟩

theorem of_signalled {s : Signal} (h : Alone stored (.signalled s :: as) stored') :
    Alone stored as stored' := by
  cases h with
  | cons hserves hrest => cases hserves with | signalled => exact hrest

theorem eq_of_nil (h : Alone stored [] stored') : stored' = stored := by
  cases h with
  | nil => rfl

/-- What is performed against a server that answers every request is such a run. -/
theorem of_perform {α : Type} (m : Moment) (p : Program (objectClient β) α) (stored : Stored β) :
    Alone stored
      ((p.perform (fun q stored => serverAnswer stored q) m stored).1.map Prod.fst)
      (p.perform (fun q stored => serverAnswer stored q) m stored).2.2 := by
  induction p generalizing stored with
  | done a => exact .nil stored
  | unfinished => exact .nil stored
  | signal e next ih => exact .cons (.signalled e) (ih stored)
  | sleep d next ih => exact .cons (.slept d) (ih stored)
  | moment next ih => exact .cons (.looked m) (ih m stored)
  | ask q next ih => exact .cons (.asked (answers_serverAnswer stored q).truthful) (ih _ _)

end Alone

namespace Finalizers

variable {f : Finalizers} {copy : Object β} {stored stored' : Stored β}
  {as : List (Act (objectClient β))}

/-- The object under the key carries the finalizer or is being deleted. -/
def Marked (f : Finalizers) (stored : Stored β) (k : String) : Prop :=
  ∃ o, stored k = some o ∧ (o.hasFinalizer f.name || o.isDeleting) = true

/-- Making sure of the finalizer without a look at the copy: the latest object decides. -/
def reread (f : Finalizers) (o : Object β) : Program (objectClient β) (Except Error Unit) :=
  retryLogged f.policy "add_finalizer" (f.tryEnsure o)

theorem ensure_of_not_shown (h : copy.hasFinalizer f.name = false) :
    f.ensure copy = f.reread copy := by
  rw [ensure, if_neg (by simp [h]), reread]

theorem ensure_of_shown (h : copy.hasFinalizer f.name = true) :
    f.ensure copy = .done (.ok ()) := by
  rw [ensure, if_pos h]

/-- Rereading does not look at the finalizers of the copy. -/
theorem reread_setFinalizers (f : Finalizers) (o : Object β) (fs : List String) :
    f.reread (o.setFinalizers fs) = f.reread o := rfl

/-- In the end of a reread the stored object is marked: it was so when it was read, or the finalizer
was written then. -/
theorem marked_of_reread (hkeyed : stored.Keyed)
    (hruns : Runs (f.reread copy) as (some (.ok ()))) (halone : Alone stored as stored') :
    f.Marked stored' copy.key := by
  have hbare : (copy.setFinalizers []).hasFinalizer f.name = false := rfl
  rw [← reread_setFinalizers f copy [], ← ensure_of_not_shown hbare] at hruns
  obtain ⟨before, latest, after, rfl, hend⟩ := end_of_ensure_ok hruns hbare
  obtain ⟨between, hbefore, hread⟩ := halone.of_append
  obtain ⟨hfound, hafter⟩ := hread.of_found
  rcases hend with ⟨hmarked, rfl⟩ | ⟨rep, s, rfl⟩
  · rw [hafter.eq_of_nil]
    exact ⟨latest, hfound, hmarked⟩
  · obtain ⟨version, hwritten⟩ := hafter.of_swapped
    have hkey : copy.key = latest.key := (hbefore.keyed hkeyed _ _ hfound).symm
    rw [hwritten.of_signalled.eq_of_nil, hkey]
    refine ⟨_, Stored.put_key between ((latest.addFinalizer f.name).atVersion version), ?_⟩
    rw [Bool.or_eq_true]
    exact .inl (Controller.hasFinalizer_addFinalizer latest f.name)

/-- In the end of `ensure` the stored object is marked as after a reread, unless the copy carries
the finalizer: then it has to be marked from the start. -/
theorem marked_iff_of_ensure (hkeyed : stored.Keyed) (copy : Object β) :
    (∀ as stored', Runs (f.reread copy) as (some (.ok ())) → Alone stored as stored' →
      f.Marked stored' copy.key) ∧
    ∀ as stored', Runs (f.ensure copy) as (some (.ok ())) → Alone stored as stored' →
      (f.Marked stored' copy.key ↔
        copy.hasFinalizer f.name = false ∨ f.Marked stored copy.key) := by
  refine ⟨fun as stored' hruns halone => marked_of_reread hkeyed hruns halone, ?_⟩
  intro as stored' hruns halone
  cases hshown : copy.hasFinalizer f.name with
  | false =>
    rw [ensure_of_not_shown hshown] at hruns
    exact iff_of_true (marked_of_reread hkeyed hruns halone) (.inl rfl)
  | true =>
    rw [ensure_of_shown hshown] at hruns
    obtain rfl := hruns.of_done.1
    rw [halone.eq_of_nil]
    simp

/-! ### A copy out of date -/

/-- The finalizer of a controller. -/
def demo : Finalizers := ⟨"operon.dev/demo", ⟨.zero, 3⟩⟩

/-- A copy of one object. -/
def held (version : String) (finalizers : List String) : Object Unit where
  metadata :=
    { name := some "demo", namespaceName := some "default", resourceVersion := some version
      finalizers := some finalizers }
  body := ()

/-- The object lost the finalizer after the copy was made, and `ensure` succeeds without a word to
the server. -/
theorem ensure_believes_copy :
    ¬ ∀ (f : Finalizers) (copy o : Object Unit) (stored stored' : Stored Unit) as,
      stored.Keyed → stored copy.key = some o → Runs (f.ensure copy) as (some (.ok ())) →
      Alone stored as stored' → f.Marked stored' copy.key := by
  intro hclaim
  obtain ⟨o, ho, hmarked⟩ := hclaim demo (held "1" ["operon.dev/demo", "other.io/keep"])
    (held "2" ["other.io/keep"]) (.only (held "2" ["other.io/keep"])) _ []
    (Stored.keyed_only _) rfl (.done _) (.nil _)
  obtain ⟨rfl, -⟩ := Stored.eq_of_only ho
  revert hmarked
  decide

/-- A copy from before the finalizer was put on leaves a marked object, and so does a copy that
shows a finalizer that is gone, if the object is reread. -/
theorem marked_iff_of_ensure_held :
    let stored := Stored.only (held "2" ["other.io/keep"])
    let early := held "1" []
    let late := held "1" ["operon.dev/demo"]
    let finish (p : Program (objectClient Unit) (Except Error Unit)) :=
      (p.perform (fun q stored => serverAnswer stored q) default stored).2.2
    demo.Marked (finish (demo.ensure early)) early.key ∧
      demo.Marked (finish (demo.reread late)) late.key := by
  intro stored early late finish
  have hkeyed : stored.Keyed := Stored.keyed_only _
  constructor
  · exact ((marked_iff_of_ensure hkeyed early).2 _ _ (Program.runs_perform _ default _ stored)
      (Alone.of_perform default (demo.ensure early) stored)).2 (.inl rfl)
  · exact (marked_iff_of_ensure hkeyed late).1 _ _ (Program.runs_perform _ default _ stored)
      (Alone.of_perform default (demo.reread late) stored)

end Finalizers

end Reconciler
