import Reconciler.Proofs.Controller.Edits

/-!
# When the finalizer counts as put on, or taken off

`Finalizers.ensure` has two ways to succeed. A copy that carries the finalizer settles the matter by
itself, however old the copy is. Otherwise the server is asked, and what settles it is a stored
object that carries the finalizer or is being deleted, or an edit that the server took.
`Finalizers.remove` always asks, and fails only if no edit was taken.

## Main results

* `Finalizers.ensure_ok_iff` : exactly these are the ways to put it on
* `Finalizers.end_of_ensure_ok` : how the server settled it in the end
* `Finalizers.not_swapped_of_remove_error` : a failed removal changed nothing
-/

namespace Reconciler

namespace Finalizers

open Program

variable {β : Type}

/-- The answers of the server that settle that the finalizer is on, or need not be. -/
def Settles (f : Finalizers) (q : (objectClient β).Request) (rep : (objectClient β).Reply q) :
    Prop :=
  match (q : ObjectRequest β), (rep : Except Error (Object β)) with
  | .get _ _, .ok latest => latest.hasFinalizer f.name = true ∨ latest.isDeleting = true
  | .replace _, .ok _ => True
  | _, .error _ => False

/-- That is what settles an edit that puts it on. -/
theorem settles_iff (f : Finalizers) (q : (objectClient β).Request)
    (rep : (objectClient β).Reply q) : Edit.add.Settles f q rep ↔ f.Settles q rep := by
  rcases q with ⟨ns, name⟩ | new <;> rcases rep with e | latest
  · exact Iff.rfl
  · show ¬ (latest.hasFinalizer f.name = false ∧ latest.isDeleting = false) ↔
      latest.hasFinalizer f.name = true ∨ latest.isDeleting = true
    simp only [Decidable.not_and_iff_or_not, Bool.not_eq_false]
  · exact Iff.rfl
  · exact Iff.rfl

/-- One attempt reads, and writes unless what it read settles the matter. -/
theorem succeedsIff_tryEnsure (f : Finalizers) (o : Object β) :
    SucceedsIff f.Settles (f.tryEnsure o) :=
  (Edit.add.succeedsIff_attempt f o).congr f.settles_iff

/-- Making sure of the finalizer succeeds exactly if the copy at hand carries it, or the server
settles it. -/
theorem ensure_ok_iff {f : Finalizers} {o : Object β} {as : List (Act (objectClient β))}
    {x : Except Error Unit} (hruns : Runs (f.ensure o) as (some x)) :
    x = .ok () ↔ o.hasFinalizer f.name = true ∨ Settled f.Settles as := by
  rw [ensure] at hruns
  split at hruns
  case isTrue hshown =>
    obtain ⟨rfl, hx⟩ := hruns.of_done
    obtain rfl : x = .ok () := by simpa using hx
    simp [hshown]
  case isFalse hshown =>
    have hretried := (succeedsIff_tryEnsure f o).retryLogged f.policy "add_finalizer" as x hruns
    rw [or_iff_right hshown, ← hretried]
    exact ⟨fun hx => ⟨(), hx⟩, fun ⟨_, hx⟩ => hx⟩

/-- How it succeeds if the copy at hand does not carry the finalizer: in the end it reads an object
that carries the finalizer or is being deleted, or it reads another and writes the finalizer. -/
theorem end_of_ensure_ok {f : Finalizers} {o : Object β} {as : List (Act (objectClient β))}
    (hruns : Runs (f.ensure o) as (some (.ok ()))) (hnot : o.hasFinalizer f.name = false) :
    ∃ before latest after,
      as = before ++ Act.asked (I := objectClient β) (.get o.metadata.namespaceName o.name)
        (.ok latest) :: after ∧
      ((latest.hasFinalizer f.name || latest.isDeleting) = true ∧ after = [] ∨
        ∃ rep s, after = [Act.asked (I := objectClient β) (.replace (latest.addFinalizer f.name))
          (.ok rep), .signalled s]) := by
  rw [ensure, if_neg (by simp [hnot])] at hruns
  obtain ⟨before, during, rfl, hattempt⟩ := runs_of_retryLogged_ok hruns
  obtain ⟨rep, as', rfl, hread⟩ := Runs.of_ask hattempt
  rcases rep with e | latest
  · exact absurd hread.of_done.2 (by simp)
  refine ⟨before, latest, as', rfl, ?_⟩
  change Runs (if (latest.hasFinalizer f.name || latest.isDeleting) = true then _ else _) as' _
    at hread
  split at hread
  case isTrue hsettled => exact .inl ⟨hsettled, hread.of_done.1⟩
  case isFalse =>
    obtain ⟨rep, as₂, rfl, hwritten⟩ := Runs.of_ask hread
    rcases rep with e | stored
    · exact absurd hwritten.of_done.2 (by simp)
    · cases hwritten with
      | step hs hdone =>
        cases hs
        rw [hdone.of_done.1]
        exact .inr ⟨stored, _, rfl⟩

/-- It never succeeds over an object that is nowhere to be found, unless the copy at hand carries
the finalizer. -/
theorem found_of_ensure_ok {f : Finalizers} {o : Object β} {as : List (Act (objectClient β))}
    (hruns : Runs (f.ensure o) as (some (.ok ()))) (hnot : o.hasFinalizer f.name = false) :
    ∃ latest : Object β,
      Act.asked (I := objectClient β) (.get o.metadata.namespaceName o.name) (.ok latest) ∈ as := by
  obtain ⟨before, latest, after, rfl, -⟩ := end_of_ensure_ok hruns hnot
  exact ⟨latest, by simp⟩

/-- If taking it off fails in the end, the server took no write on the way. -/
theorem not_swapped_of_remove_error {f : Finalizers} {o : Object β}
    {as : List (Act (objectClient β))} {e : Error}
    (hruns : Runs (f.remove o) as (some (.error e))) (new rep : Object β) :
    Act.asked (I := objectClient β) (.replace new) (.ok rep) ∉ as := by
  obtain ⟨x, as₁, as₂, rfl, hretried, hrest⟩ := hruns.complete_of_bind
  have hsettled := (Edit.drop.succeedsIff_attempt f o).retryLogged f.policy "remove_finalizer" as₁ x
    hretried
  cases x with
  | ok u => exact absurd hrest.of_done.2 (by simp)
  | error err =>
    -- an object that is gone needs no removal, which is a success after all
    dsimp only at hrest
    split at hrest
    case isTrue =>
      obtain ⟨_, _, _, -, -, hgone⟩ := hrest.complete_of_bind
      exact absurd hgone.of_done.2 (by simp)
    case isFalse =>
      obtain ⟨rfl, -⟩ := hrest.of_done
      intro hmem
      rw [List.append_nil] at hmem
      have hsuccess := hsettled.2 ⟨_, _, hmem, trivial⟩
      simp at hsuccess

end Finalizers

end Reconciler
