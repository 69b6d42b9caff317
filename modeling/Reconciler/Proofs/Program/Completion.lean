import Reconciler.Proofs.Program.Trace

/-!
# What is known when a program has come to its end

Some things can only be said of complete runs: whatever was begun was also ended, and what was
counted first is timed in the end. If such a property holds of nothing, and of one run after
another, then a sequence of programs ensures it as soon as each of them does. Unlike what holds of
every run (`Program.Always`), it may break in the middle of each of them, and what is no question
may break it too.

## Main definitions

* `Accrues` : a property of lists that holds of one list after another
* `Program.Ensures` : whenever a program comes to its end, what happened has a property
* `Program.measured` : what a run recorded

## Main results

* `Ensures.bind`, `Ensures.andThen`, `ensures_sequence` : sequences
* `runs_request`, `runs_log`, `runs_measure` : asking, logging and measuring
-/

namespace Reconciler

/-! ### One list after another -/

/-- A property of lists that holds of nothing, and of one list after another if it holds of both. -/
structure Accrues {β : Type} (T : List β → Prop) : Prop where
  nil : T []
  append : ∀ {as bs}, T as → T bs → T (as ++ bs)

theorem accrues_forall {β : Type} (V : β → Prop) : Accrues fun bs => ∀ b ∈ bs, V b where
  nil := by simp
  append h h' b hb := (List.mem_append.1 hb).elim (h b) (h' b)

theorem Accrues.of_forall {β : Type} {T : List β → Prop} (hT : Accrues T) {bs : List β}
    (h : ∀ b ∈ bs, T [b]) : T bs := by
  induction bs with
  | nil => exact hT.nil
  | cons b bs ih =>
    have hboth := hT.append (h b (by simp)) (ih fun b' hb' => h b' (by simp [hb']))
    exact hboth

theorem Accrues.flatten {β : Type} {T : List β → Prop} (hT : Accrues T) {bss : List (List β)}
    (h : ∀ bs ∈ bss, T bs) : T bss.flatten := by
  induction bss with
  | nil => exact hT.nil
  | cons bs bss ih => exact hT.append (h bs (by simp)) (ih fun bs' hbs' => h bs' (by simp [hbs']))

namespace Program

variable {I : Interface} {α β : Type}

/-! ### What a program ensures -/

/-- Whenever the program comes to its end, what happened has the property. -/
def Ensures (T : List (Act I) → Prop) (p : Program I α) : Prop :=
  ∀ as a, Runs p as (some a) → T as

variable {T : List (Act I) → Prop}

theorem Ensures.bind (hT : Accrues T) {p : Program I α} (hp : Ensures T p) {f : α → Program I β}
    (hf : ∀ a, Ensures T (f a)) : Ensures T (p.bind f) := by
  intro as b h
  obtain ⟨a, as₁, as₂, rfl, hfirst, hrest⟩ := h.complete_of_bind
  exact hT.append (hp as₁ a hfirst) (hf a as₂ b hrest)

theorem ensures_done (hT : Accrues T) (a : α) : Ensures T (.done a : Program I α) := by
  intro as b h
  rw [h.of_done.1]
  exact hT.nil

theorem Ensures.andThen (hT : Accrues T) {p : Program I (Except Error α)} (hp : Ensures T p)
    {f : α → Program I (Except Error β)} (hf : ∀ a, Ensures T (f a)) :
    Ensures T (p.andThen f) := by
  refine hp.bind hT fun x => ?_
  cases x with
  | ok a => exact hf a
  | error e => exact ensures_done hT _

theorem ensures_sequence (hT : Accrues T) {ps : List (Program I (Except Error Unit))}
    (h : ∀ p ∈ ps, Ensures T p) : Ensures T (sequence ps) := by
  induction ps with
  | nil => exact ensures_done hT _
  | cons p ps ih =>
    exact (h p (by simp)).andThen hT fun _ => ih fun p' hp' => h p' (by simp [hp'])

/-! ### What is recorded -/

/-- What a run recorded. -/
def measured (as : List (Act I)) : List Measurement :=
  as.filterMap fun
    | .signalled (.measure m) => some m
    | _ => none

@[simp] theorem measured_nil : measured ([] : List (Act I)) = [] := rfl

theorem mem_measured {as : List (Act I)} {m : Measurement} :
    m ∈ measured as ↔ .signalled (.measure m) ∈ as := by
  refine ⟨fun h => ?_, fun h => List.mem_filterMap.2 ⟨_, h, rfl⟩⟩
  obtain ⟨a, ha, heq⟩ := List.mem_filterMap.1 h
  rcases a with ⟨_ | m'⟩ | _ | _ | _
  · cases heq
  · cases heq
    exact ha
  · cases heq
  · cases heq
  · cases heq

@[simp] theorem measured_append (as bs : List (Act I)) :
    measured (as ++ bs) = measured as ++ measured bs :=
  List.filterMap_append

/-- The acts of recording. -/
abbrev recordings (ms : List Measurement) : List (Act I) := ms.map fun m => .signalled (.measure m)

@[simp] theorem measured_recordings (ms : List Measurement) :
    measured (recordings ms : List (Act I)) = ms := by
  rw [measured, recordings, List.filterMap_map]
  exact List.filterMap_some

@[simp] theorem dialogue_recordings (ms : List Measurement) :
    dialogue (recordings ms : List (Act I)) = [] := by
  induction ms with
  | nil => rfl
  | cons m ms ih => exact ih

theorem runs_measure {ms : List Measurement} {as : List (Act I)} {u : Unit}
    (h : Runs (measure ms) as (some u)) : as = recordings ms := by
  induction ms generalizing as with
  | nil => exact h.of_done.1
  | cons m ms ih =>
    cases h with
    | step hs hrest =>
      cases hs
      exact congrArg (_ :: ·) (ih hrest)

theorem runs_request {q : I.Request} {as : List (Act I)} {rep : I.Reply q}
    (h : Runs (request q) as (some rep)) : as = [.asked q rep] := by
  obtain ⟨rep', acts, rfl, hrest⟩ := h.of_ask
  obtain ⟨rfl, hrep⟩ := hrest.of_done
  obtain rfl : rep = rep' := by simpa using hrep
  rfl

theorem runs_log {e : LogEvent} {as : List (Act I)} {u : Unit} (h : Runs (log e) as (some u)) :
    as = [.signalled (.log ⟨e, none⟩)] := by
  cases h with
  | step hs hrest =>
    cases hs
    exact congrArg (_ :: ·) hrest.of_done.1

end Program

end Reconciler
