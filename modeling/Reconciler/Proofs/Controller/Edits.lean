import Reconciler.Controller.Finalizer
import Reconciler.Proofs.Retry

/-!
# The edits of a finalizer

Putting a finalizer on and taking it off are one program with two values: read the object, and if
the edit is due replace it by the edited object. A conflict starts the attempt over, so whatever is
written was made from a copy that was read in the same attempt, with nothing asked in between. That
is all the edits have against other writers, and together with compare and swap it is enough.

An attempt succeeds exactly if the server shows that there is nothing to do, or takes the write.

## Main definitions

* `Edit`, `Edit.Due`, `Edit.apply` : the two edits, when they are due and what they do
* `Edit.Rereads` : every write is of the edited object that was read just before
* `Edit.Settles` : the answers that settle an edit

## Main results

* `Edit.attempt_eq` : both edits are one program
* `Edit.rereads` : every run of an edit rereads before it writes
* `Edit.succeedsIff_attempt` : an attempt succeeds exactly if it is settled
-/

namespace Reconciler

open Program

variable {β : Type}

/-! ### Two edits -/

/-- An edit of a finalizer. -/
inductive Edit where
  /-- Put it on. -/
  | add
  /-- Take it off. -/
  | drop

namespace Edit

/-- The edit has something to do. A finalizer is not put on an object that is being deleted. -/
def Due (name : String) (o : Object β) : Edit → Prop
  | add => o.hasFinalizer name = false ∧ o.isDeleting = false
  | drop => o.hasFinalizer name = true

instance (name : String) (o : Object β) (e : Edit) : Decidable (e.Due name o) :=
  match e with
  | add => inferInstanceAs (Decidable (_ ∧ _))
  | drop => inferInstanceAs (Decidable (_ = _))

/-- The edited object. -/
def apply (name : String) (o : Object β) : Edit → Object β
  | add => o.addFinalizer name
  | drop => o.dropFinalizer name

@[simp] theorem apply_key (e : Edit) (name : String) (o : Object β) :
    (e.apply name o).key = o.key := by
  cases e <;> rfl

@[simp] theorem apply_version (e : Edit) (name : String) (o : Object β) :
    (e.apply name o).version = o.version := by
  cases e <;> rfl

/-- Other finalizers stay, and stay in order. -/
theorem filter_apply (e : Edit) {name : String} {keep : String → Bool} (hkeep : keep name = false)
    (o : Object β) : (e.apply name o).finalizers.filter keep = o.finalizers.filter keep := by
  cases e with
  | add =>
    show (o.finalizers ++ [name]).filter keep = _
    simp [hkeep]
  | drop =>
    show (o.finalizers.filter fun g => g != name).filter keep = _
    rw [List.filter_filter]
    refine List.filter_congr fun g _ => ?_
    by_cases hg : g = name
    · simp [hg, hkeep]
    · simp [hg]

theorem count_apply_of_ne (e : Edit) {name other : String} (hne : other ≠ name) (o : Object β) :
    (e.apply name o).finalizers.count other = o.finalizers.count other := by
  have hkept : (e.apply name o).finalizers.filter (· == other) =
      o.finalizers.filter (· == other) := filter_apply e (by simpa using hne.symm) o
  rw [List.count_eq_length_filter, List.count_eq_length_filter, hkept]

/-- After an edit that was due the finalizer is there at most once. -/
theorem count_apply_le {e : Edit} {name : String} {o : Object β} (hdue : e.Due name o) :
    (e.apply name o).finalizers.count name ≤ 1 := by
  cases e with
  | add =>
    have hnot : name ∉ o.finalizers := by
      intro hmem
      have hhas : o.hasFinalizer name = true :=
        List.any_eq_true.2 ⟨name, hmem, beq_self_eq_true name⟩
      rw [hdue.1] at hhas
      cases hhas
    show (o.finalizers ++ [name]).count name ≤ 1
    simp [List.count_append, List.count_eq_zero_of_not_mem hnot]
  | drop =>
    show (o.finalizers.filter fun g => g != name).count name ≤ 1
    rw [List.count_eq_zero_of_not_mem (by simp)]
    exact Nat.zero_le 1

/-- What is logged once the edit is written. -/
def notice (name : String) (o : Object β) : Edit → LogEvent
  | add => .finalizerAdded o.key name
  | drop => .finalizerRemoved o.key name

/-- One attempt. -/
def attempt (f : Finalizers) (o : Object β) : Edit → Program (objectClient β) (Except Error Unit)
  | add => f.tryEnsure o
  | drop => f.tryRemove o

/-- All of it. -/
def program (f : Finalizers) (o : Object β) : Edit → Program (objectClient β) (Except Error Unit)
  | add => f.ensure o
  | drop => f.remove o

/-- An attempt reads, and writes if the edit is due. -/
theorem attempt_eq (e : Edit) (f : Finalizers) (o : Object β) :
    e.attempt f o = (Finalizers.read o).andThen fun latest =>
      if e.Due f.name latest then
        (Finalizers.write (e.apply f.name latest)).andThen fun _ =>
          (Program.log (e.notice f.name latest)).bind fun _ => .done (.ok ())
      else .done (.ok ()) := by
  cases e with
  | drop => rfl
  | add =>
    have hdue (latest : Object β) : add.Due f.name latest ↔
        ¬ (latest.hasFinalizer f.name || latest.isDeleting) = true := by
      simp [Due]
    show (Finalizers.read o).andThen _ = _
    congr 1
    funext latest
    by_cases h : (latest.hasFinalizer f.name || latest.isDeleting) = true
    · rw [if_pos h, if_neg fun hd => (hdue latest).1 hd h]
    · rw [if_neg h, if_pos ((hdue latest).2 h)]
      rfl

/-! ### Reading before writing -/

/-- Every write is of the edited object that a read just before it found. -/
inductive Rereads (e : Edit) (f : Finalizers) (o : Object β) :
    List (Act (objectClient β)) → Prop where
  | nil : Rereads e f o []
  /-- Anything but a write. -/
  | other {a : Act (objectClient β)} {as : List (Act (objectClient β))}
      (ha : ∀ new rep, a ≠ .asked (.replace new) rep) (h : Rereads e f o as) :
      Rereads e f o (a :: as)
  /-- A read that finds the edit due, and its write. -/
  | write {latest : Object β} (rep : Except Error (Object β)) {as : List (Act (objectClient β))}
      (hdue : e.Due f.name latest) (h : Rereads e f o as) :
      Rereads e f o (.asked (.get o.metadata.namespaceName o.name) (.ok latest) ::
        .asked (.replace (e.apply f.name latest)) rep :: as)

variable {e : Edit} {f : Finalizers} {o : Object β}

theorem composable_rereads : Composable (e.Rereads f o) where
  nil := .nil
  append h h' := by
    induction h with
    | nil => exact h'
    | other ha _ ih => exact .other ha ih
    | write rep hdue _ ih => exact .write rep hdue ih
  quiet ha := .other (fun new rep => ha _ rep) .nil

/-- So the read is there if the write is. -/
theorem Rereads.read_of_write {as before after : List (Act (objectClient β))} {new : Object β}
    {rep : Except Error (Object β)} (h : e.Rereads f o as)
    (has : as = before ++ .asked (.replace new) rep :: after) :
    ∃ earlier latest,
      before = earlier ++ [.asked (.get o.metadata.namespaceName o.name) (.ok latest)] ∧
        e.Due f.name latest ∧ new = e.apply f.name latest := by
  induction h generalizing before with
  | nil => simp at has
  | @other a as ha _ ih =>
    rcases before with _ | ⟨b, before⟩
    · obtain ⟨rfl, -⟩ := List.cons.inj has
      exact absurd rfl (ha new rep)
    · obtain ⟨rfl, hrest⟩ := List.cons.inj has
      obtain ⟨earlier, latest, rfl, hdue, hnew⟩ := ih hrest
      exact ⟨a :: earlier, latest, rfl, hdue, hnew⟩
  | @write latest rep' as hdue _ ih =>
    rcases before with _ | ⟨b, _ | ⟨b', before⟩⟩
    · cases (List.cons.inj has).1
    · obtain ⟨rfl, hrest⟩ := List.cons.inj has
      obtain ⟨hwrite, -⟩ := List.cons.inj hrest
      cases hwrite
      exact ⟨[], latest, rfl, hdue, rfl⟩
    · obtain ⟨rfl, hwritten⟩ := List.cons.inj has
      obtain ⟨rfl, hrest⟩ := List.cons.inj hwritten
      obtain ⟨earlier, latest', rfl, hdue', hnew⟩ := ih hrest
      exact ⟨_ :: _ :: earlier, latest', rfl, hdue', hnew⟩

/-- An attempt writes at most once, right after its read. -/
theorem always_attempt (e : Edit) (f : Finalizers) (o : Object β) :
    Always (e.Rereads f o) (e.attempt f o) := by
  have hT := composable_rereads (e := e) (f := f) (o := o)
  have hdone (x : Except Error Unit) : Always (e.Rereads f o) (.done x) := .done hT x
  have hread (rep : Except Error (Object β)) (new : Object β) (rep' : Except Error (Object β)) :
      Act.asked (I := objectClient β) (.get o.metadata.namespaceName o.name) rep ≠
        .asked (.replace new) rep' := by
    rintro ⟨⟩
  rw [attempt_eq]
  intro as r hruns
  rcases Runs.cut_or_ask hruns with ⟨rfl, -⟩ | ⟨rep, as, rfl, hfound⟩
  · exact .nil
  rcases rep with err | latest
  · exact .other (hread _) (hdone (.error err) as r hfound)
  change Runs (if e.Due f.name latest then _ else _) as r at hfound
  split at hfound
  case isFalse => exact .other (hread _) (hdone (.ok ()) as r hfound)
  case isTrue hdue =>
    rcases Runs.cut_or_ask hfound with ⟨rfl, -⟩ | ⟨rep, as, rfl, hwritten⟩
    · exact .other (hread _) .nil
    -- a read and its write are one case, so the run is taken apart only here
    refine .write rep hdue ?_
    rcases rep with err | stored
    · exact hdone (.error err) as r hwritten
    · exact Always.signal hT _ (hdone (.ok ())) as r hwritten

/-- Retrying changes nothing about that. -/
theorem rereads (e : Edit) (f : Finalizers) (o : Object β) :
    Always (e.Rereads f o) (e.program f o) := by
  have hT := composable_rereads (e := e) (f := f) (o := o)
  cases e with
  | add =>
    show Always _ (if o.hasFinalizer f.name then _ else _)
    split
    · exact .done hT _
    · exact always_retryLogged hT (always_attempt add f o) _ _
  | drop =>
    refine (always_retryLogged hT (always_attempt drop f o) _ _).bind hT fun x => ?_
    cases x with
    | ok u => exact .done hT _
    | error err =>
      dsimp only
      split
      · exact .signal hT _ (.done hT _)
      · exact .done hT _

/-! ### When an edit is settled -/

/-- The answers of the server that settle an edit: there is nothing to do, or it is done. -/
def Settles (e : Edit) (f : Finalizers) (q : (objectClient β).Request)
    (rep : (objectClient β).Reply q) : Prop :=
  match (q : ObjectRequest β), (rep : Except Error (Object β)) with
  | .get _ _, .ok latest => ¬ e.Due f.name latest
  | .replace _, .ok _ => True
  | _, .error _ => False

/-- An attempt succeeds exactly if it is settled. -/
theorem succeedsIff_attempt (e : Edit) (f : Finalizers) (o : Object β) :
    SucceedsIff (e.Settles f) (e.attempt f o) := by
  rw [attempt_eq]
  refine SucceedsIff.ask ?_ ?_
  · rintro (err | latest) hsettles as x hruns
    · cases hsettles
    · change Runs (if e.Due f.name latest then _ else _) as _ at hruns
      rw [if_neg hsettles] at hruns
      exact ⟨(), by simpa using hruns.of_done.2⟩
  rintro (err | latest) hdue
  · exact SucceedsIff.failed err
  change SucceedsIff _ (if e.Due f.name latest then _ else _)
  rw [if_pos (Decidable.not_not.1 hdue)]
  refine SucceedsIff.ask ?_ ?_
  · rintro (err | stored) hsettles as x hruns
    · cases hsettles
    · cases hruns with
      | step hs hdone =>
        cases hs
        exact ⟨(), by simpa using hdone.of_done.2⟩
  · rintro (err | stored) hnot
    · exact SucceedsIff.failed err
    · exact absurd trivial hnot

end Edit

end Reconciler
