import Reconciler.Proofs.Informer.History

/-!
# The stream that an object is sent on

An informer chooses the stream of an object in four places: for news, for what a list repeats, for
the objects that a resync hands out again, and for removals. In all but the last the deletion
timestamp of the very object that is sent decides, whatever the cache remembers of it. A removal
goes on the delete stream, with or without a timestamp.

An output waits until those before it are carried out, but no input is taken meanwhile. So what a
step wants sent is sent while the same input is being handled.

## Main definitions

* `inputs`, `Handling` : the inputs in a history, and the one that is being handled

## Main results

* `State.Effect.routed` : where a step sends an object
* `Loop.Reachable.sending` : what holds of an object once a step wants it sent holds when it is sent
* `Loop.sent_by_timestamp` : which objects are sent on which stream
-/

namespace Reconciler

namespace Informer

variable {β : Type}

/-! ### The input that is being handled -/

/-- The input that was taken, if that is what happened, with the phase that it found. -/
def Occurrence.taken? : Occurrence β → Option (Phase × Input β)
  | .took _ phase i => some (phase, i)
  | .carried _ => none

/-- The inputs taken so far, oldest first, with the phases that they found. -/
def inputs (past : List (Occurrence β)) : List (Phase × Input β) :=
  past.filterMap Occurrence.taken?

/-- The input is being handled: no other was taken after it. -/
def Handling (past : List (Occurrence β)) (i : Input β) : Prop :=
  ∃ phase, (inputs past).getLast? = some (phase, i)

@[simp] theorem inputs_nil : inputs ([] : List (Occurrence β)) = [] := rfl

@[simp] theorem inputs_append_took (past : List (Occurrence β)) (t : Instant) (phase : Phase)
    (i : Input β) : inputs (past ++ [.took t phase i]) = inputs past ++ [(phase, i)] := by
  rw [inputs, List.filterMap_append]
  rfl

@[simp] theorem inputs_append_carried (past : List (Occurrence β)) (out : Output β) :
    inputs (past ++ [.carried out]) = inputs past := by
  rw [inputs, List.filterMap_append]
  exact List.append_nil _

@[simp] theorem handling_append_took {past : List (Occurrence β)} {t : Instant} {phase : Phase}
    {i j : Input β} : Handling (past ++ [.took t phase i]) j ↔ j = i := by
  simp [Handling, eq_comm]

theorem handling_congr {past past' : List (Occurrence β)} (h : inputs past = inputs past')
    {i : Input β} : Handling past i ↔ Handling past' i := by
  rw [Handling, h, Handling]

@[simp] theorem handling_append_carried {past : List (Occurrence β)} {out : Output β}
    {i : Input β} : Handling (past ++ [.carried out]) i ↔ Handling past i :=
  handling_congr (inputs_append_carried past out)

theorem Handling.unique {past : List (Occurrence β)} {i j : Input β} (hi : Handling past i)
    (hj : Handling past j) : i = j := by
  obtain ⟨phase, hi⟩ := hi
  obtain ⟨phase', hj⟩ := hj
  cases hi.symm.trans hj
  rfl

theorem Handling.inputs_ne_nil {past : List (Occurrence β)} {i : Input β} (hi : Handling past i) :
    inputs past ≠ [] := by
  obtain ⟨phase, hi⟩ := hi
  exact List.ne_nil_of_mem (List.mem_of_getLast? hi)

namespace State

/-! ### Where a step sends an object -/

/-- A step sends an object where its deletion timestamp puts it, unless it is a removal. -/
theorem Effect.routed {s : State β} {i : Input β} {cache : Cache} {paced : List (Object β)}
    {sends : List (Route × Object β)} (he : s.Effect i cache paced sends) {route : Route}
    {o : Object β} (h : (route, o) ∈ sends) :
    route = o.route ∨ route = .delete ∧ i = .event (.deleted o) := by
  cases he with
  | quiet => cases h
  | resynced => cases h
  | passedOver => cases h
  | forgotten => cases h
  | listed hphase l => exact .inl (of_mem_sent_applyList h).1
  | handedOut =>
    cases List.mem_singleton.1 h
    exact .inl rfl
  | changed =>
    cases List.mem_singleton.1 h
    exact .inl rfl
  | removed =>
    cases List.mem_singleton.1 h
    exact .inr ⟨rfl, rfl⟩

end State

namespace Loop

variable {config : Config} {l : Loop β}

/-- What holds of every object that a step wants sent, and stays so while outputs are carried out,
holds of every object at the time it is sent. -/
theorem Reachable.sending {Q : List (Occurrence β) → Route → Object β → Prop}
    (hcarry : ∀ {past out route o}, Q past route o → Q (past ++ [.carried out]) route o)
    (hstep : ∀ {l : Loop β} {t i route o}, Reachable config l →
      (route, o) ∈ sent (l.machine.step t i).2 → Q (l.past ++ [.took t l.machine.phase i]) route o)
    (hl : Reachable config l) {before after : List (Occurrence β)} {route : Route} {o : Object β}
    (hpast : l.past = before ++ .carried (.send route o) :: after) : Q before route o := by
  obtain ⟨l₀, hl₀, rfl, hwanted⟩ := exists_carry hl hpast
  suffices hall : Reachable config l₀ ∧ ∀ route o, (route, o) ∈ sent l₀.pending →
      Q l₀.past route o from hall.2 route o (mem_sent.2 hwanted)
  refine hl₀.invariant (P := fun l => Reachable config l ∧ ∀ route o, (route, o) ∈ sent l.pending →
    Q l.past route o) ?_ ?_
  · intro now
    exact ⟨.start config now, fun route o h => by cases h⟩
  · rintro l l' hs ⟨hl, h⟩
    refine ⟨hl.step hs, ?_⟩
    cases hs with
    | carry hp =>
      intro route o ho
      refine hcarry (h route o ?_)
      rw [mem_sent] at ho ⊢
      rw [hp]
      exact List.mem_cons_of_mem _ ho
    | take t i hp ht hi => exact fun route o ho => hstep hl ho
    | cancel t ht hs => exact fun route o ho => hstep hl ho

/-- Every object sent on the update stream carries no deletion timestamp, and every object sent on
the delete stream carries one or is the object whose removal is being handled. -/
theorem sent_by_timestamp (hl : Reachable config l) {before after : List (Occurrence β)}
    {route : Route} {o : Object β} (hpast : l.past = before ++ .carried (.send route o) :: after) :
    (route = .update → o.isDeleting = false) ∧
      (route = .delete → o.isDeleting = true ∨ Handling before (.event (.deleted o))) := by
  have hroute : route = o.route ∨ route = .delete ∧ Handling before (.event (.deleted o)) := by
    refine hl.sending (Q := fun past route o =>
      route = o.route ∨ route = .delete ∧ Handling past (.event (.deleted o))) ?_ ?_ hpast
    · intro past out route o h
      simpa only [handling_append_carried] using h
    · intro l t i route o hl h
      refine ((l.machine.effect_step t i).routed h).imp_right ?_
      rintro ⟨hdelete, rfl⟩
      exact ⟨hdelete, handling_append_took.2 rfl⟩
  rcases hroute with rfl | ⟨rfl, hremoval⟩
  · cases hdel : o.isDeleting <;> simp [Object.route, hdel]
  · exact ⟨by simp, fun _ => .inr hremoval⟩

/-- An object vanishes that was never reported as being deleted. -/
def vanished : List (Instant × Input Unit) :=
  [(.ofMillis 0, .listed (.ok ⟨[sample "a" "1" false], "1"⟩)),
    (.ofMillis 0, .opened (.ok ())),
    (.ofMillis 200, .event (.deleted (sample "a" "2" false)))]

/-- Its removal goes on the delete stream without a deletion timestamp. -/
theorem sent_by_timestamp_vanished :
    let l := (start { resync := .ofMillis 1000 } .zero).play vanished
    ∃ before, l.past = before ++ [.carried (.send .delete (sample "a" "2" false))] ∧
      Handling before (.event (.deleted (sample "a" "2" false))) := by
  intro l
  have hl : Reachable { resync := .ofMillis 1000 } l := by
    refine (Reachable.start _ _).play ⟨?_, ?_, ?_, ?_, ?_, ?_, trivial⟩
    · decide
    · exact .inl ⟨.seed, rfl⟩
    · decide
    · exact ⟨"1", rfl⟩
    · decide
    · exact ⟨"1", rfl⟩
  let before : List (Occurrence Unit) :=
    [.carried (.log (.informerStarted (.ofMillis 1000))), .carried .list,
      .took (.ofMillis 0) (.listing .seed) (.listed (.ok ⟨[sample "a" "1" false], "1"⟩)),
      .carried (.log (.objectsListed 1 "1")), .carried (.send .update (sample "a" "1" false)),
      .carried (.watch "1"), .took (.ofMillis 0) (.opening "1") (.opened (.ok ())),
      .carried (.log (.watchOpened "1")),
      .took (.ofMillis 200) (.resting (.watching "1")) (.event (.deleted (sample "a" "2" false)))]
  have hpast : l.past = before ++ [.carried (.send .delete (sample "a" "2" false))] := rfl
  exact ⟨before, hpast, ((sent_by_timestamp hl hpast).2 rfl).resolve_left (by decide)⟩

end Loop

end Informer

end Reconciler
