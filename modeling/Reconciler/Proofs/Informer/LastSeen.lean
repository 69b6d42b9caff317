import Mathlib.Data.List.Induction
import Mathlib.Logic.Basic
import Reconciler.Proofs.Informer.Resync
import Reconciler.Proofs.Informer.Routing

/-!
# The version that was last seen

The last copy of a key that an informer was shown has a version, until the removal of the key is
reported or a list comes without it. That version is all that decides between news and repetitions:
a change that the watch reports is sent unless its version is the one last seen, and an object of a
resync is handed out as long as its version is the one last seen.

The cache stands for the history here. It remembers the last copy that was news and not the last
copy that was shown, but both have the same version.

## Main definitions

* `Occurrence.copies`, `Occurrence.drops` : what something that happened tells about one key
* `LastSeen` : the version of the last copy that was shown of a key, if it is still there

## Main results

* `lastSeen_iff` and `Loop.Reachable.lastSeen_iff` : the cache holds the version last seen
* `Loop.sent_iff_news` : which changes are sent
* `Loop.handedOut_iff_current` : which objects of a resync are sent, and that nothing is sent as an
  update after a removal
-/

namespace Reconciler

namespace Informer

variable {β : Type} {k v : String}

/-! ### What was last seen of a key -/

/-- The copies of a key that something that happened shows, in order. -/
def Occurrence.copies (k : String) : Occurrence β → List (Object β)
  | .took _ _ i => i.copies k
  | .carried _ => []

/-- Something that happened tells that no object has the key. -/
def Occurrence.drops (k : String) : Occurrence β → Bool
  | .took _ _ i => i.drops k
  | .carried _ => false

/-- The last copy of the key that was shown has the version, and nothing told since that no object
has the key. -/
def LastSeen (past : List (Occurrence β)) (k v : String) : Prop :=
  ∃ before x since o, past = before ++ x :: since ∧ (x.copies k).getLast? = some o ∧
    o.version = v ∧ ∀ y ∈ since, y.copies k = [] ∧ y.drops k = false

theorem Occurrence.news_eq (x : Occurrence β) (last : Option (Object β)) :
    x.news k last = if x.drops k then none else (x.copies k).foldl newer last := by
  cases x <;> rfl

/-- What tells that no object has the key shows none. -/
theorem Occurrence.copies_of_drops {x : Occurrence β} (h : x.drops k = true) : x.copies k = [] := by
  cases x with
  | carried out => rfl
  | took t phase i =>
    cases i with
    | listed r =>
      cases r with
      | error e => rfl
      | ok l =>
        have hnone : ∀ o ∈ l.items, o.key ≠ k := by simpa [drops, Input.drops] using h
        simpa [copies, Input.copies] using hnone
    | event e => cases e <;> first | rfl | cases h
    | _ => rfl

/-- What was last seen is shown by the last occurrence, or was seen before and that one is quiet. -/
theorem lastSeen_concat {past : List (Occurrence β)} {x : Occurrence β} :
    LastSeen (past ++ [x]) k v ↔ (∃ o, (x.copies k).getLast? = some o ∧ o.version = v) ∨
      x.copies k = [] ∧ x.drops k = false ∧ LastSeen past k v := by
  constructor
  · rintro ⟨before, y, since, o, heq, ho, hversion, hsince⟩
    -- the copy is shown last, or something came after it that is quiet about the key
    rcases List.eq_nil_or_concat since with rfl | ⟨since, z, rfl⟩
    · obtain ⟨-, hxy⟩ := List.append_inj' heq rfl
      cases hxy
      exact .inl ⟨o, ho, hversion⟩
    · rw [List.concat_eq_append, ← List.cons_append, ← List.append_assoc] at heq
      obtain ⟨rfl, hxz⟩ := List.append_inj' heq rfl
      cases hxz
      obtain ⟨hcopies, hdrops⟩ := hsince x (by simp)
      exact .inr ⟨hcopies, hdrops, before, y, since, o, rfl, ho, hversion,
        fun y hy => hsince y (by simp [hy])⟩
  · rintro (⟨o, ho, hversion⟩ | ⟨hcopies, hdrops, before, y, since, o, rfl, ho, hversion, hsince⟩)
    · exact ⟨past, x, [], o, rfl, ho, hversion, by simp⟩
    · refine ⟨before, y, since ++ [x], o, by simp, ho, hversion, ?_⟩
      intro z hz
      rcases List.mem_append.1 hz with hz | hz
      · exact hsince z hz
      · rw [List.mem_singleton.1 hz]
        exact ⟨hcopies, hdrops⟩

theorem lastSeen_concat_of_quiet {past : List (Occurrence β)} {x : Occurrence β}
    (hcopies : x.copies k = []) (hdrops : x.drops k = false) :
    LastSeen (past ++ [x]) k v ↔ LastSeen past k v := by
  rw [lastSeen_concat, hcopies]
  simp [hdrops]

/-- A key is seen when a copy of it is shown. -/
theorem exists_lastSeen_concat {past : List (Occurrence β)} {x : Occurrence β} {o : Object β}
    (ho : o ∈ x.copies k) : ∃ v, LastSeen (past ++ [x]) k v := by
  have hlast := List.getLast?_eq_some_getLast (List.ne_nil_of_mem ho)
  exact ⟨_, lastSeen_concat.2 (.inl ⟨_, hlast, rfl⟩)⟩

/-- Whatever the last copy that was news is, its version is that of the last copy. -/
theorem version_newer (last : Option (Object β)) (o : Object β) :
    (newer last o).map Object.version = some o.version := by
  rcases newer_eq last o with ⟨heq, p, hp, hversion⟩ | heq
  · rw [heq, hp, Option.map_some, hversion]
  · rw [heq, Option.map_some]

/-- The last news of a key has the version that was last seen. -/
theorem lastSeen_iff (past : List (Occurrence β)) (k v : String) :
    LastSeen past k v ↔ (lastNews past k).map Object.version = some v := by
  induction past using List.reverseRecOn with
  | nil =>
    refine iff_of_false ?_ (by simp [lastNews])
    rintro ⟨before, x, since, o, heq, -⟩
    simp at heq
  | append_singleton past x ih =>
    -- a list that holds a key does not drop it, so at most one of the two has a say
    rw [lastSeen_concat, ih, lastNews_concat, Occurrence.news_eq]
    cases hdrops : x.drops k with
    | true => simp [Occurrence.copies_of_drops hdrops]
    | false =>
      rcases List.eq_nil_or_concat (x.copies k) with hcopies | ⟨copies, o, hcopies⟩
      · simp [hcopies]
      · simp [hcopies, version_newer]

/-- After a removal nothing is seen of its key until a copy of it is shown. -/
theorem not_lastSeen_of_removed {before since : List (Occurrence β)} {t : Instant} {phase : Phase}
    {d : Object β} (hsince : ∀ x ∈ since, x.copies d.key = []) :
    ¬ LastSeen (before ++ .took t phase (.event (.deleted d)) :: since) d.key v := by
  induction since using List.reverseRecOn with
  | nil =>
    rw [lastSeen_concat]
    simp [Occurrence.copies, Occurrence.drops, Input.copies, Input.drops]
  | append_singleton since x ih =>
    rw [← List.cons_append, ← List.append_assoc, lastSeen_concat, hsince x (by simp)]
    rintro (⟨o, ho, -⟩ | ⟨-, -, hseen⟩)
    · cases ho
    · exact ih (fun y hy => hsince y (by simp [hy])) hseen

namespace Loop

variable {config : Config} {l : Loop β}

/-- The version that the cache holds of a key is the one that was last seen. -/
theorem Reachable.lastSeen_iff (hl : Reachable config l) (k v : String) :
    LastSeen l.past k v ↔ (l.machine.cache.get? k).map (·.version) = some v := by
  rw [Informer.lastSeen_iff, hl.get?_cache, Option.map_map]
  rfl

/-! ### Changes that the watch reports -/

/-- What is sent for a change that the watch reports. -/
theorem sends_changed {version : String} (hphase : l.machine.phase = .resting (.watching version))
    (t : Instant) {e : WatchEvent β} {o : Object β} (he : e = .added o ∨ e = .modified o) :
    (l.take t (.event e)).settle.sends =
      if l.machine.cache.knows o then l.sends else l.sends ++ [(o.route, o)] := by
  have hstep : (l.machine.step t (.event e)).2 = (l.machine.handleChange o).2 := by
    rcases he with rfl | rfl <;>
      simp only [State.step, hphase, State.stepWatch, State.handleEvent_calm] <;> rfl
  rw [sends_settle, sends_take, take_pending, hstep]
  cases hknows : l.machine.cache.knows o <;>
    simp [State.handleChange, Cache.observe, hknows]

/-- An object is known if it has a version and that is the one last seen of its key. -/
theorem Reachable.knows_iff (hl : Reachable config l) (o : Object β) :
    l.machine.cache.knows o = true ↔ o.version ≠ "" ∧ LastSeen l.past o.key o.version := by
  rw [hl.lastSeen_iff, Cache.knows]
  cases l.machine.cache.get? o.key <;> simp

/-- An object that the watch reports as created or changed is sent, once and on the stream that its
deletion timestamp tells, exactly if it has no version or another one than was last seen of its
key. -/
theorem sent_iff_news (hl : Reachable config l) {version : String}
    (hphase : l.machine.phase = .resting (.watching version)) (t : Instant) {e : WatchEvent β}
    {o : Object β} (he : e = .added o ∨ e = .modified o) :
    ((l.take t (.event e)).settle.sends = l.sends ++ [(o.route, o)] ↔
        o.version = "" ∨ ¬ LastSeen l.past o.key o.version) ∧
      ((l.take t (.event e)).settle.sends = l.sends ↔
        o.version ≠ "" ∧ LastSeen l.past o.key o.version) := by
  have hnews : o.version = "" ∨ ¬ LastSeen l.past o.key o.version ↔
      ¬ l.machine.cache.knows o = true := by
    rw [hl.knows_iff, not_and_or, not_not]
  rw [sends_changed hphase t he, hnews, ← hl.knows_iff]
  cases l.machine.cache.knows o <;> simp

/-- A copy of `a` that was listed is reported by the watch. -/
def replayed : List (Instant × Input Unit) :=
  [(.ofMillis 0, .listed (.ok ⟨[sample "a" "1" false], "1"⟩)),
    (.ofMillis 0, .opened (.ok ()))]

theorem reachable_replayed :
    Reachable { resync := .ofMillis 1000 }
      ((start { resync := .ofMillis 1000 } .zero).play replayed) := by
  refine (Reachable.start _ _).play ⟨?_, ?_, ?_, ?_, trivial⟩
  · decide
  · exact .inl ⟨.seed, rfl⟩
  · decide
  · exact ⟨"1", rfl⟩

/-- The listed version of `a` was last seen, so it is not sent again, and a deletion at another
version is. -/
theorem sent_iff_news_replayed :
    let l := (start { resync := .ofMillis 1000 } .zero).play replayed
    LastSeen l.past "a" "1" ∧
      (l.take (.ofMillis 200) (.event (.modified (sample "a" "1" false)))).settle.sends = l.sends ∧
      (l.take (.ofMillis 200) (.event (.modified (sample "a" "2" true)))).settle.sends =
        l.sends ++ [(.delete, sample "a" "2" true)] := by
  intro l
  have hl := reachable_replayed
  have hphase : l.machine.phase = .resting (.watching "1") := rfl
  have hseen : LastSeen l.past "a" "1" := (hl.lastSeen_iff "a" "1").2 rfl
  have hother : ¬ LastSeen l.past "a" "2" := by
    rw [hl.lastSeen_iff]
    decide
  exact ⟨hseen, (sent_iff_news hl hphase (.ofMillis 200) (.inr rfl)).2.2 ⟨by decide, hseen⟩,
    (sent_iff_news hl hphase (.ofMillis 200) (.inr rfl)).1.2 (.inr hother)⟩

/-! ### Objects that a resync hands out again -/

/-- What is sent when the turn of an object comes. -/
theorem sends_pacedDue {t : Instant} (hi : l.machine.Awaits t.time .pacedDue) {o : Object β}
    {queue : List (Object β)} (hpaced : l.machine.paced = o :: queue) :
    (l.take t .pacedDue).settle.sends =
      if l.machine.Current o then l.sends ++ [(o.route, o)] else l.sends := by
  obtain ⟨due, hdue, -⟩ := hi
  obtain ⟨rest, hphase, -⟩ := State.exists_rest_of_mem_timers hdue
  rw [sends_settle, sends_take, take_pending, State.step_pacedDue hphase]
  split
  case isTrue hcurrent => rw [State.emitPaced_of_current hpaced hcurrent]; rfl
  case isFalse hcurrent =>
    rw [State.emitPaced_of_not_current hpaced hcurrent]
    exact List.append_nil _

/-- Whatever a step sends was seen: the object of a resync at this very version, and an update at
some version, with no removal of its key since. -/
theorem Reachable.lastSeen_of_step (hl : Reachable config l) {t : Instant} {i : Input β}
    {route : Route} {o : Object β} (h : (route, o) ∈ sent (l.machine.step t i).2) :
    (i = .pacedDue → LastSeen (l.past ++ [.took t l.machine.phase i]) o.key o.version) ∧
      (route = .update → ∃ v, LastSeen (l.past ++ [.took t l.machine.phase i]) o.key v) := by
  have heffect := l.machine.effect_step t i
  generalize sent (l.machine.step t i).2 = sends at heffect h
  generalize (l.machine.step t i).1.cache = cache at heffect
  generalize (l.machine.step t i).1.paced = paced at heffect
  cases heffect with
  | quiet => cases h
  | resynced => cases h
  | passedOver => cases h
  | forgotten => cases h
  | listed hphase list =>
    have hitem := (State.of_mem_sent_applyList h).2
    refine ⟨by simp, fun _ => exists_lastSeen_concat (o := o) ?_⟩
    simp [Occurrence.copies, Input.copies, hitem]
  | handedOut hpaced hcurrent =>
    cases List.mem_singleton.1 h
    have hseen : LastSeen (l.past ++ [.took t l.machine.phase .pacedDue]) o.key o.version :=
      (lastSeen_concat_of_quiet rfl rfl).2 ((hl.lastSeen_iff _ _).2 hcurrent)
    exact ⟨fun _ => hseen, fun _ => ⟨_, hseen⟩⟩
  | changed he hnews =>
    cases List.mem_singleton.1 h
    refine ⟨by simp, fun _ => exists_lastSeen_concat (o := o) ?_⟩
    rcases he with rfl | rfl <;> simp [Occurrence.copies, Input.copies]
  | removed hnews =>
    cases List.mem_singleton.1 h
    exact ⟨by simp, by simp⟩

/-- So it is with whatever is sent in a run, at the time it is sent. -/
theorem Reachable.lastSeen_of_sent (hl : Reachable config l) {before after : List (Occurrence β)}
    {route : Route} {o : Object β} (hpast : l.past = before ++ .carried (.send route o) :: after) :
    (Handling before .pacedDue → LastSeen before o.key o.version) ∧
      (route = .update → ∃ v, LastSeen before o.key v) := by
  refine hl.sending (Q := fun past route o =>
    (Handling past .pacedDue → LastSeen past o.key o.version) ∧
      (route = .update → ∃ v, LastSeen past o.key v)) ?_ ?_ hpast
  · intro past out route o h
    have hsame (v : String) : LastSeen (past ++ [.carried out]) o.key v ↔ LastSeen past o.key v :=
      lastSeen_concat_of_quiet rfl rfl
    simpa only [handling_append_carried, hsame] using h
  · intro l t i route o hl h
    rw [handling_append_took, eq_comm]
    exact hl.lastSeen_of_step h

/-- Whenever an object of a resync is handed out, its version is the one that was last seen of its
key. So after the removal of a key nothing with that key is sent as an update until a copy of it is
shown again. And an object whose turn comes is handed out if its version is the one last seen. -/
theorem handedOut_iff_current (hl : Reachable config l) :
    (∀ before after route o, l.past = before ++ .carried (.send route o) :: after →
        Handling before .pacedDue → LastSeen before o.key o.version) ∧
      (∀ before t phase d since after,
        l.past = before ++ .took t phase (.event (.deleted d)) :: (since ++ after) →
          (∀ x ∈ since, x.copies d.key = []) →
            ∀ p, .carried (.send .update p) ∈ since → p.key ≠ d.key) ∧
      ∀ t o queue, l.machine.Awaits t.time .pacedDue → l.machine.paced = o :: queue →
        ((l.take t .pacedDue).settle.sends = l.sends ++ [(o.route, o)] ↔
          LastSeen l.past o.key o.version) := by
  refine ⟨?_, ?_, ?_⟩
  · intro before after route o hpast
    exact (hl.lastSeen_of_sent hpast).1
  · intro before t phase d since after hpast hsince p hp hkey
    obtain ⟨earlier, later, rfl⟩ := List.append_of_mem hp
    have hsent : l.past = (before ++ .took t phase (.event (.deleted d)) :: earlier) ++
        .carried (.send .update p) :: (later ++ after) := by
      simpa using hpast
    obtain ⟨v, hseen⟩ := (hl.lastSeen_of_sent hsent).2 rfl
    rw [hkey] at hseen
    exact not_lastSeen_of_removed (fun x hx => hsince x (by simp [hx])) hseen
  · intro t o queue hi hpaced
    rw [sends_pacedDue hi hpaced, hl.lastSeen_iff]
    exact ite_eq_left_iff.trans (by simp [State.Current])

/-- The removal of `b` is reported while a copy of it waits behind `a` to be handed out again. -/
def removedWhileQueued : List (Instant × Input Unit) :=
  [(.ofMillis 0, .listed (.ok ⟨[sample "a" "1" false, sample "b" "1" false], "1"⟩)),
    (.ofMillis 0, .opened (.ok ())),
    (.ofMillis 5000, .resyncDue),
    (.ofMillis 5000, .listed (.ok ⟨[sample "a" "1" false, sample "b" "1" false], "1"⟩)),
    (.ofMillis 5000, .event (.deleted (sample "b" "2" false))),
    (.ofMillis 5000, .pacedDue),
    (.ofMillis 6000, .pacedDue)]

theorem reachable_removedWhileQueued :
    Reachable { resync := .ofMillis 5000 }
      ((start { resync := .ofMillis 5000 } .zero).play removedWhileQueued) := by
  refine (Reachable.start _ _).play
    ⟨?_, ?_, ?_, ?_, ?_, ?_, ?_, ?_, ?_, ?_, ?_, ?_, ?_, ?_, trivial⟩
  · decide
  · exact .inl ⟨.seed, rfl⟩
  · decide
  · exact ⟨"1", rfl⟩
  · decide
  · exact ⟨.ofMillis 5000, List.mem_cons_self .., by decide⟩
  · decide
  · exact .inr ⟨.watching "1", rfl⟩
  · decide
  · exact ⟨"1", rfl⟩
  · decide
  · exact ⟨.ofMillis 5000, List.mem_cons_of_mem _ (List.mem_cons_self ..), by decide⟩
  · decide
  · exact ⟨.ofMillis 6000, List.mem_cons_of_mem _ (List.mem_cons_self ..), by decide⟩

/-- So `a` is handed out at the version that was last seen, and `b` is not sent again. -/
theorem handedOut_iff_current_removed :
    let l := (start { resync := .ofMillis 5000 } .zero).play removedWhileQueued
    (∃ before after, l.past = before ++ .carried (.send .update (sample "a" "1" false)) :: after ∧
        Handling before .pacedDue ∧ LastSeen before "a" "1") ∧
      ∃ before t phase since,
        l.past = before ++ .took t phase (.event (.deleted (sample "b" "2" false))) :: since ∧
          (∀ x ∈ since, x.copies "b" = []) ∧
            ∀ p, .carried (.send .update p) ∈ since → p.key ≠ "b" := by
  intro l
  obtain ⟨hcurrent, hremoved, -⟩ := handedOut_iff_current reachable_removedWhileQueued
  constructor
  · have hpast : l.past =
        l.past.take 16 ++ .carried (.send .update (sample "a" "1" false)) :: l.past.drop 17 := rfl
    have hhandling : Handling (l.past.take 16) .pacedDue := ⟨.resting (.watching "2"), rfl⟩
    exact ⟨_, _, hpast, hhandling, hcurrent _ _ _ _ hpast hhandling⟩
  · let since : List (Occurrence Unit) :=
      [.carried (.send .delete (sample "b" "2" false)),
        .took (.ofMillis 5000) (.resting (.watching "2")) .pacedDue,
        .carried (.send .update (sample "a" "1" false)),
        .took (.ofMillis 6000) (.resting (.watching "2")) .pacedDue,
        .carried (.log (.resyncSuperseded "b"))]
    have hpast : l.past = l.past.take 13 ++ .took (.ofMillis 5000) (.resting (.watching "1"))
        (.event (.deleted (sample "b" "2" false))) :: (since ++ []) := rfl
    have hsince : ∀ x ∈ since, x.copies "b" = [] := by
      simp [since, Occurrence.copies, Input.copies]
    exact ⟨l.past.take 13, _, _, since, rfl, hsince, fun p hp =>
      hremoved _ _ _ (sample "b" "2" false) since [] hpast hsince p hp⟩

end Loop

end Informer

end Reconciler
