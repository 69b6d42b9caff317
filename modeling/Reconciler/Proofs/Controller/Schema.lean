import Reconciler.Controller.Schema
import Reconciler.Proofs.Retry

/-!
# Schema definitions are rolled back safely

Bringing a definition into service asks the server in a fixed order: once to create it, then any
number of times for its status, and at the end perhaps once to delete it. The first answer and the
last look decide everything else. What was not created here is not deleted here, and how the
deletion goes is of no consequence.

## Main definitions

* `Definition.verdict` : what one look at the status comes to
* `Definition.Concludes` : the answers, and what they come to

## Main results

* `Definition.looks_of_retryLogged` : waiting is a number of looks, and the last one decides
* `Definition.rolled_back_safely` : every run that comes to an end is of this kind
-/

namespace Reconciler

open Program

namespace Definition

variable {d : Definition}

/-- A look at the status, and what was seen. -/
def look (d : Definition) (seen : Except Error (Option DefinitionStatus)) :
    Σ q : definitions.Request, definitions.Reply q :=
  ⟨.get d.name, seen⟩

/-- A deletion, and how it went. -/
def deletion (d : Definition) (outcome : Except Error Unit) :
    Σ q : definitions.Request, definitions.Reply q :=
  ⟨.delete d.name, outcome⟩

/-- What a look comes to. -/
def verdict (d : Definition) : Except Error (Option DefinitionStatus) → Except Error Unit
  | .ok status =>
    if isEstablished status then .ok ()
    else .error (.timeout "wait_for_crd" (d.name ++ " not established"))
  | .error e => .error e

theorem verdict_eq_ok_iff {seen : Except Error (Option DefinitionStatus)} :
    d.verdict seen = .ok () ↔ ∃ status, seen = .ok status ∧ isEstablished status = true := by
  cases seen with
  | error e => simp [verdict]
  | ok status => simp [verdict]

theorem poll_eq (d : Definition) :
    d.poll = .ask (.get d.name) fun seen => .done (d.verdict seen) := by
  refine congrArg (Program.ask (I := definitions) (.get d.name)) (funext fun seen => ?_)
  rcases (seen : Except Error (Option DefinitionStatus)) with e | status
  · rfl
  · exact (apply_ite Program.done _ _ _).symm

/-- One attempt is one look. -/
theorem dialogue_of_poll {as : List (Act definitions)} {x : Except Error Unit}
    (h : Runs d.poll as (some x)) : ∃ seen, dialogue as = [d.look seen] ∧ x = d.verdict seen := by
  rw [poll_eq] at h
  obtain ⟨seen, as, rfl, hdone⟩ := h.of_ask
  obtain ⟨rfl, hx⟩ := hdone.of_done
  exact ⟨seen, rfl, by simpa using hx⟩

/-- Looking at the status until it is as it should be is a number of looks, the last of which
decides. -/
theorem looks_of_attempts {as : List (Act definitions)} {x : Except Error Unit}
    (h : Attempts (fun a => ∀ q r, a ≠ .asked q r) d.poll as x) :
    ∃ before seen, dialogue as = (before ++ [seen]).map d.look ∧ x = d.verdict seen := by
  induction h with
  | succeeded hbefore h =>
    obtain ⟨seen, hseen, hx⟩ := dialogue_of_poll h
    exact ⟨[], seen, by simp [dialogue_eq_nil hbefore, hseen], hx⟩
  | failed hbefore h hafter =>
    obtain ⟨seen, hseen, hx⟩ := dialogue_of_poll h
    exact ⟨[], seen, by simp [dialogue_eq_nil hbefore, dialogue_eq_nil hafter, hseen], hx⟩
  | again hbefore h he _ ih =>
    obtain ⟨first, hfirst, -⟩ := dialogue_of_poll h
    obtain ⟨before, seen, hlooks, hx⟩ := ih
    exact ⟨first :: before, seen, by simp [dialogue_eq_nil hbefore, hfirst, hlooks], hx⟩

theorem looks_of_retryLogged {as : List (Act definitions)} {x : Except Error Unit}
    (h : Runs (retryLogged d.policy "wait_for_crd" d.poll) as (some x)) :
    ∃ before seen, dialogue as = (before ++ [seen]).map d.look ∧ x = d.verdict seen :=
  looks_of_attempts (attempts_of_retryLogged (by simp) (by simp) (by simp) h)

theorem dialogue_of_log {e : LogEvent} {as : List (Act definitions)} {r : Option Unit}
    (h : Runs (Program.log e) as r) : dialogue as = [] :=
  dialogue_eq_nil (only_log (by simp) e as r h)

/-- The definition is deleted once, and what goes wrong then is only logged. -/
theorem dialogue_of_rollBack {cause : Error} {as : List (Act definitions)}
    (h : Runs (d.rollBack cause) as (some ())) :
    ∃ outcome, dialogue as = [d.deletion outcome] := by
  obtain ⟨_, logged, as, rfl, hlogged, hasked⟩ := h.complete_of_bind
  obtain ⟨(outcome : Except Error Unit), as, rfl, hdeleted⟩ := hasked.of_ask
  have hnothing : dialogue as = [] := by
    rcases outcome with e | u
    · change Runs (if e.isNotFound then .done () else .log _) as _ at hdeleted
      split at hdeleted
      · rw [hdeleted.of_done.1, dialogue_nil]
      · exact dialogue_of_log hdeleted
    · rw [hdeleted.of_done.1, dialogue_nil]
  refine ⟨outcome, ?_⟩
  rw [dialogue_append, dialogue_of_log hlogged]
  exact congrArg (List.cons (d.deletion outcome)) hnothing

/-- Waiting is a number of looks, the last of which decides. It ends with a deletion exactly if the
definition was created here and the last look failed. -/
theorem dialogue_of_await {created : Bool} {as : List (Act definitions)} {x : Except Error Unit}
    (h : Runs (d.await created) as (some x)) :
    ∃ before seen deletions,
      dialogue as = (before ++ [seen]).map d.look ++ deletions.map d.deletion ∧
        x = d.verdict seen ∧ deletions.length ≤ 1 ∧
          (deletions ≠ [] ↔ created = true ∧ ∃ e, d.verdict seen = .error e) := by
  obtain ⟨y, waited, as, rfl, hwaited, h⟩ := h.complete_of_bind
  obtain ⟨before, seen, hlooks, rfl⟩ := looks_of_retryLogged hwaited
  cases hseen : d.verdict seen with
  | ok u =>
    rw [hseen] at h
    obtain ⟨_, logged, as, rfl, hlogged, h⟩ := h.complete_of_bind
    obtain ⟨rfl, hx⟩ := h.of_done
    refine ⟨before, seen, [], ?_, by simpa [hseen] using hx, by simp, by simp [hseen]⟩
    simp [hlooks, dialogue_of_log hlogged]
  | error e =>
    rw [hseen] at h
    cases created with
    | false =>
      obtain ⟨rfl, hx⟩ := h.of_done
      exact ⟨before, seen, [], by simp [hlooks], by simpa [hseen] using hx, by simp, by simp⟩
    | true =>
      obtain ⟨_, rolledBack, as, rfl, hrolledBack, h⟩ := h.complete_of_bind
      obtain ⟨rfl, hx⟩ := h.of_done
      obtain ⟨outcome, houtcome⟩ := dialogue_of_rollBack hrolledBack
      refine ⟨before, seen, [outcome], ?_, by simpa [hseen] using hx, by simp, by simp [hseen]⟩
      simp [hlooks, houtcome]

/-- What the answers to a creation, to looks at the status and to deletions come to. -/
structure Concludes (d : Definition) (created : Except Error Unit)
    (looks : List (Except Error (Option DefinitionStatus))) (deletions : List (Except Error Unit))
    (x : Except Error Unit) : Prop where
  /-- The definition is deleted at most once. -/
  once : deletions.length ≤ 1
  /-- It is deleted exactly if it was created here and the last look failed. -/
  deletes : deletions ≠ [] ↔
    created = .ok () ∧ ∃ seen e, looks.getLast? = some seen ∧ d.verdict seen = .error e
  /-- It is in service exactly if it was created or is there already, and was last seen to be
  established. -/
  serves : x = .ok () ↔ (created = .ok () ∨ ∃ e, created = .error e ∧ e.isConflict = true) ∧
    ∃ status, looks.getLast? = some (.ok status) ∧ isEstablished status = true
  /-- If it cannot be created then nothing else is asked. -/
  refused : ∀ e, created = .error e → e.isConflict = false → looks = [] ∧ x = .error e
  /-- The error is that of the creation or that of the last look. -/
  fails : ∀ e, x = .error e → created = .error e ∧ e.isConflict = false ∨
    ∃ seen, looks.getLast? = some seen ∧ d.verdict seen = .error e

/-- The looks decide once it is known whether the definition was created here. -/
theorem concludes_of_looks {created : Except Error Unit}
    (hcreated : created = .ok () ∨ ∃ e, created = .error e ∧ e.isConflict = true)
    {before : List (Except Error (Option DefinitionStatus))}
    {seen : Except Error (Option DefinitionStatus)} {deletions : List (Except Error Unit)}
    (hlength : deletions.length ≤ 1)
    (hdeletes : deletions ≠ [] ↔ created = .ok () ∧ ∃ e, d.verdict seen = .error e) :
    d.Concludes created (before ++ [seen]) deletions (d.verdict seen) where
  once := hlength
  deletes := by simpa using hdeletes
  serves := by
    rw [verdict_eq_ok_iff]
    simp [hcreated]
  refused := by
    rintro e rfl hnot
    rcases hcreated with h | ⟨e', h, hconflict⟩
    · cases h
    · cases h
      simp [hnot] at hconflict
  fails e he := .inr ⟨seen, by simp, he⟩

/-- Bringing a definition into service asks to create it, first and once, then for its status, and
at the end perhaps to delete it. Whatever is answered, it is deleted at most once, and only if it
was created here and did not come into service. -/
theorem rolled_back_safely {as : List (Act definitions)} {x : Except Error Unit}
    (h : Runs d.ensureEstablished as (some x)) :
    ∃ created looks deletions,
      dialogue as = ⟨.create d.name, created⟩ :: (looks.map d.look ++ deletions.map d.deletion) ∧
        d.Concludes created looks deletions x := by
  obtain ⟨(created : Except Error Unit), as, rfl, hasked⟩ := h.of_ask
  have hwaits {logs : LogEvent} {own : Bool}
      (hcreated : created = .ok () ∨ ∃ e, created = .error e ∧ e.isConflict = true)
      (hown : own = true ↔ created = .ok ())
      (h : Runs ((Program.log logs).bind fun _ => d.await own) as (some x)) :
      ∃ looks deletions, dialogue as = looks.map d.look ++ deletions.map d.deletion ∧
        d.Concludes created looks deletions x := by
    obtain ⟨_, logged, as, rfl, hlogged, hawaited⟩ := h.complete_of_bind
    obtain ⟨before, seen, deletions, hsaid, rfl, hlength, hdeletes⟩ := dialogue_of_await hawaited
    rw [hown] at hdeletes
    refine ⟨before ++ [seen], deletions, ?_, concludes_of_looks hcreated hlength hdeletes⟩
    rw [dialogue_append, dialogue_of_log hlogged, List.nil_append, hsaid]
  suffices hrest : ∃ looks deletions,
      dialogue as = looks.map d.look ++ deletions.map d.deletion ∧
        d.Concludes created looks deletions x by
    obtain ⟨looks, deletions, hsaid, hconcludes⟩ := hrest
    exact ⟨created, looks, deletions, congrArg (List.cons _) hsaid, hconcludes⟩
  rcases created with e | u
  · change Runs (if e.isConflict then _ else .done (Except.error e)) as _ at hasked
    split at hasked
    case isTrue hconflict => exact hwaits (.inr ⟨e, rfl, hconflict⟩) (by simp) hasked
    case isFalse hconflict =>
      obtain ⟨rfl, hx⟩ := hasked.of_done
      obtain rfl : x = .error e := by simpa using hx
      refine ⟨[], [], rfl, by simp, by simp, by simp, by simp, ?_⟩
      rintro e' ⟨⟩
      exact .inl ⟨rfl, by simpa using hconflict⟩
  · exact hwaits (.inl rfl) (by simp) hasked

/-! ### A definition that does not come into service -/

/-- A definition whose status is looked at again at once. -/
def demo : Definition := ⟨"demos.demo", ⟨.zero, 5⟩⟩

/-- What the server refuses with. -/
def denied : Error := .server (.api ⟨"Failure", "denied", "Forbidden", 403⟩)

/-- It is created, has no status at first, cannot be read after that, and cannot be deleted. -/
def stillborn : List (Act definitions × Nat) × Option (Except Error Unit) × Nat :=
  let reply : (q : definitions.Request) → Nat → definitions.Reply q × Nat
    | .create _, n => ((.ok () : Except Error Unit), n)
    | .get _, 0 => ((.ok none : Except Error (Option DefinitionStatus)), 1)
    | .get _, n + 1 => ((.error denied : Except Error (Option DefinitionStatus)), n + 1)
    | .delete _, n => ((.error denied : Except Error Unit), n)
  demo.ensureEstablished.perform reply default 0

/-- The second look decides, and the deletion is tried. -/
theorem rolled_back_safely_stillborn :
    dialogue (stillborn.1.map Prod.fst) =
        [⟨.create "demos.demo", (.ok () : Except Error Unit)⟩, demo.look (.ok none),
          demo.look (.error denied), demo.deletion (.error denied)] ∧
      ∃ created looks deletions, dialogue (stillborn.1.map Prod.fst) =
          ⟨.create demo.name, created⟩ :: (looks.map demo.look ++ deletions.map demo.deletion) ∧
        demo.Concludes created looks deletions (.error denied) := by
  have hresult : stillborn.2.1 = some (.error denied) := rfl
  have hruns : Runs demo.ensureEstablished (stillborn.1.map Prod.fst) stillborn.2.1 :=
    runs_perform _ _ _ _
  rw [hresult] at hruns
  exact ⟨rfl, rolled_back_safely hruns⟩

end Definition

end Reconciler
