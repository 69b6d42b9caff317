import Reconciler.Proofs.Informer.Delivery

/-!
# Removals on the delete stream

A removal that the watch reports is sent on, unless the object was last observed while being
deleted: then it was announced before. But a resync records a deletion without sending the object,
which waits in the queue. If the removal is reported before the turn of the object comes, the
removal is kept back and forgotten, and the queue passes the object over as superseded: nobody ever
hears of the deletion.

So the removal of a key is announced unless the informer owes the deletion to the stream, and what
it owes waits in its queue. The one exception are versions that contradict themselves: one copy is
being deleted, another of the same version is not and was sent as an update.

## Main definitions

* `Announced` : the deletion of a key was sent, and no update of that key since
* `Loop.Owes` : a deletion is recorded that was not announced, and why

## Main results

* `Cache.Heard` and `State.Effect.heard` : what every step keeps
* `Loop.announced_iff_not_owes` : which removals are announced
* `Loop.removal_kept_back` : a run in which one is not
-/

namespace Reconciler

namespace Informer

variable {β : Type}

/-- An object with this key was sent on the delete stream, and none on the update stream since. -/
def Announced (sends : List (Route × Object β)) (k : String) : Prop :=
  ∃ before o after, sends = before ++ (.delete, o) :: after ∧ o.key = k ∧
    ∀ p, (.update, p) ∈ after → p.key ≠ k

theorem announced_concat_delete (sends : List (Route × Object β)) (o : Object β) :
    Announced (sends ++ [(.delete, o)]) o.key :=
  ⟨sends, o, [], rfl, rfl, by simp⟩

/-- Only an update of the same key ends an announcement. -/
theorem Announced.append {sends : List (Route × Object β)} {k : String} (h : Announced sends k)
    {more : List (Route × Object β)} (hmore : ∀ p, (.update, p) ∈ more → p.key ≠ k) :
    Announced (sends ++ more) k := by
  obtain ⟨before, o, after, rfl, hkey, hafter⟩ := h
  refine ⟨before, o, after ++ more, by simp, hkey, ?_⟩
  intro p hp
  rcases List.mem_append.1 hp with hp | hp
  · exact hafter p hp
  · exact hmore p hp

/-- Where a deletion recorded at a version is, as long as it was not announced: in the queue, or
mistaken for an update, because a copy of that version was sent that was not being deleted. -/
def Held (sends : List (Route × Object β)) (queue : List (Object β)) (k version : String) : Prop :=
  (∃ o ∈ queue, o.key = k ∧ o.version = version) ∨
    ∃ o, (.update, o) ∈ sends ∧ o.key = k ∧ o.version = version ∧ o.isDeleting = false

theorem Held.append {sends : List (Route × Object β)} {queue : List (Object β)}
    {k version : String} (h : Held sends queue k version) (more : List (Route × Object β)) :
    Held (sends ++ more) queue k version := by
  refine h.imp_right ?_
  rintro ⟨o, ho, hsame⟩
  exact ⟨o, List.mem_append_left _ ho, hsame⟩

/-- The head of the queue may go if it is not what is held. -/
theorem Held.tail {sends : List (Route × Object β)} {o : Object β} {queue : List (Object β)}
    {k version : String} (h : Held sends (o :: queue) k version)
    (ho : o.key = k → o.version ≠ version) : Held sends queue k version := by
  refine h.imp_left ?_
  rintro ⟨p, hp, hkey, hversion⟩
  rcases List.mem_cons.1 hp with rfl | hp
  · exact absurd hversion (ho hkey)
  · exact ⟨p, hp, hkey, hversion⟩

end Informer

namespace Cache

open Informer

variable {β : Type}

/-- Every deletion that is recorded was announced or is held. -/
def Heard (c : Cache) (sends : List (Route × Object β)) (queue : List (Object β)) : Prop :=
  ∀ k v, c.get? k = some ⟨v, true⟩ → Announced sends k ∨ Held sends queue k v

theorem Heard.of_le {c c' : Cache} {sends : List (Route × Object β)} {queue : List (Object β)}
    (h : c.Heard sends queue) (hc : ∀ k e, c'.get? k = some e → c.get? k = some e) :
    c'.Heard sends queue := by
  intro k v hk
  exact h k v (hc k _ hk)

/-- An object is sent whose version is the one recorded of its key. For the other keys nothing is
new. -/
theorem Heard.send {c : Cache} {sends : List (Route × Object β)} {queue : List (Object β)}
    {o : Object β}
    (h : ∀ k v, k ≠ o.key → c.get? k = some ⟨v, true⟩ → Announced sends k ∨ Held sends queue k v)
    (ho : ∀ v, c.get? o.key = some ⟨v, true⟩ → o.version = v) :
    c.Heard (sends ++ [(o.route, o)]) queue := by
  intro k v hk
  by_cases hkey : k = o.key
  · subst hkey
    cases hroute : o.route with
    | delete => exact .inl (announced_concat_delete sends o)
    | update =>
      have hlive : o.isDeleting = false := by simpa [Object.route] using hroute
      exact .inr (.inr ⟨o, by simp, rfl, ho v hk, hlive⟩)
  · rcases h k v hkey hk with hann | hheld
    · refine .inl (hann.append ?_)
      intro p hp
      obtain ⟨-, rfl⟩ : .update = o.route ∧ p = o := by simpa using hp
      exact Ne.symm hkey
    · exact .inr (hheld.append _)

/-- An object is recorded and sent. -/
theorem Heard.put {c : Cache} {sends : List (Route × Object β)} {queue : List (Object β)}
    (h : c.Heard sends queue) (o : Object β) :
    (c.put o.key ⟨o.version, o.isDeleting⟩).Heard (sends ++ [(o.route, o)]) queue := by
  refine Heard.send ?_ ?_
  · intro k v hne hk
    rw [get?_put, if_neg hne] at hk
    exact h k v hk
  · intro v hv
    rw [get?_put, if_pos rfl, Option.some.injEq, Entry.mk.injEq] at hv
    exact hv.1

/-- A known object is sent again. -/
theorem Heard.resend {c : Cache} {sends : List (Route × Object β)} {queue : List (Object β)}
    (h : c.Heard sends queue) {o : Object β}
    (ho : ∃ e, c.get? o.key = some e ∧ e.version = o.version) :
    c.Heard (sends ++ [(o.route, o)]) queue := by
  obtain ⟨e, he, hversion⟩ := ho
  refine Heard.send (fun k v _ hk => h k v hk) ?_
  intro v hv
  rw [he] at hv
  cases hv
  exact hversion.symm

/-- Whatever is sent on the delete stream, nothing that was announced ends. -/
theorem Heard.delete {c : Cache} {sends : List (Route × Object β)} {queue : List (Object β)}
    (h : c.Heard sends queue) (o : Object β) : c.Heard (sends ++ [(.delete, o)]) queue := by
  intro k v hk
  rcases h k v hk with hann | hheld
  · exact .inl (hann.append (by simp))
  · exact .inr (hheld.append _)

end Cache

namespace Informer

variable {β : Type}

namespace State

theorem heard_applyList {s : State β} {sends : List (Route × Object β)} {queue : List (Object β)}
    (h : s.cache.Heard sends queue) (mode : ListMode) (items : List (Object β)) :
    (s.applyList mode items).1.cache.Heard (sends ++ sent (s.applyList mode items).2) queue := by
  refine applyList_induction (P := fun c sends => c.Heard sends queue) ?_ ?_ ?_ h mode items
  · intro c sends o h
    exact h.put o
  · intro c sends o hknows h
    exact h.resend (Cache.version_eq_of_knows hknows)
  · intro c c' sends hle h
    exact h.of_le hle

/-- What every step keeps: a recorded deletion was announced or is held. The list of a resync is the
one step that records without sending, and all that it records it puts in the queue. -/
theorem Effect.heard {s : State β} {i : Input β} {cache : Cache} {paced : List (Object β)}
    {sends : List (Route × Object β)} (he : s.Effect i cache paced sends)
    {before : List (Route × Object β)} (h : s.cache.Heard before s.paced) :
    cache.Heard (before ++ sends) paced := by
  cases he with
  | quiet => simpa using h
  | listed hphase l => exact heard_applyList h _ l.items
  | resynced hphase now l =>
    intro k v hk
    exact .inr (.inl (s.accounted_applyResync now l.items k _ hk))
  | @handedOut o _ hpaced hcurrent =>
    rw [hpaced] at h
    obtain ⟨e, hentry, hversion⟩ : ∃ e, s.cache.get? o.key = some e ∧ e.version = o.version := by
      simpa using hcurrent
    refine Cache.Heard.send ?_ ?_
    · intro k v hne hk
      exact (h k v hk).imp_right fun hheld => hheld.tail fun hkey => absurd hkey.symm hne
    · intro v hv
      rw [hentry] at hv
      cases hv
      exact hversion.symm
  | @passedOver o _ hpaced hcurrent =>
    rw [hpaced] at h
    intro k v hk
    rw [List.append_nil]
    refine (h k v hk).imp_right fun hheld => hheld.tail ?_
    rintro rfl rfl
    rw [hk] at hcurrent
    exact hcurrent rfl
  | @changed e o hevent hnews => exact h.put o
  | @removed o hnews => exact (h.of_le fun _ _ => Cache.get?_of_get?_erase).delete o
  | forgotten hentry hdel => simpa using h.of_le fun _ _ => Cache.get?_of_get?_erase

end State

namespace Loop

/-- Until the informer is cancelled every recorded deletion was announced or is held. -/
theorem Reachable.heard {config : Config} {l : Loop β} (hl : Reachable config l) :
    l.machine.phase = .stopped ∨
      l.machine.cache.Heard (l.sends ++ sent l.pending) l.machine.paced := by
  refine hl.invariant_of_effect ?_ fun heffect h => heffect.heard h
  intro k v hk
  simp [Cache.get?] at hk

/-- The deletion of a key is recorded but was not announced: an object of the recorded version waits
in the queue of a resync, or a copy of that version that was not being deleted was sent. -/
def Owes (l : Loop β) (k : String) : Prop :=
  ¬ Announced l.sends k ∧
    ∃ v, l.machine.cache.get? k = some ⟨v, true⟩ ∧ Held l.sends l.machine.paced k v

/-- What is sent for a removal that the watch reports. -/
theorem sends_removed {l : Loop β} {version : String}
    (hphase : l.machine.phase = .resting (.watching version)) (t : Instant) (o : Object β) :
    (l.take t (.event (.deleted o))).settle.sends =
      if (l.machine.cache.get? o.key).any (·.deleting) then l.sends
      else l.sends ++ [(.delete, o)] := by
  have hstep : sent (l.machine.step t (.event (.deleted o))).2 =
      if (l.machine.cache.get? o.key).any (·.deleting) then [] else [(.delete, o)] := by
    simp only [State.step, hphase, State.stepWatch, State.handleEvent, State.calm, Cache.remove]
    cases (l.machine.cache.get? o.key).any (·.deleting) <;> rfl
  rw [sends_settle, sends_take, take_pending, hstep]
  split
  · rw [List.append_nil]
  · rfl

/-- Once a removal that the watch reports is handled, its key is announced on the delete stream,
unless the informer owed the deletion. -/
theorem announced_iff_not_owes {config : Config} {l : Loop β} (hl : Reachable config l)
    (hpending : l.pending = []) {version : String}
    (hphase : l.machine.phase = .resting (.watching version)) (t : Instant) (o : Object β) :
    Announced (l.take t (.event (.deleted o))).settle.sends o.key ↔ ¬ l.Owes o.key := by
  rw [sends_removed hphase]
  split
  case isTrue hdel =>
    obtain ⟨⟨v, deleting⟩, hentry, hflag⟩ := (Option.any_eq_true ..).1 hdel
    obtain rfl : deleting = true := hflag
    have hheard := hl.heard.resolve_left (by simp [hphase]) o.key v hentry
    rw [hpending, sent_nil, List.append_nil] at hheard
    by_cases hann : Announced l.sends o.key
    · exact iff_of_true hann fun howes => howes.1 hann
    · exact iff_of_false hann
        (not_not_intro ⟨hann, v, hentry, hheard.resolve_left hann⟩)
  case isFalse hdel =>
    refine iff_of_true (announced_concat_delete l.sends o) ?_
    rintro ⟨-, v, hentry, -⟩
    exact hdel (by simp [hentry])

/-- The deletion of `a` is found by a resync, which queues `a` behind `b`. -/
def deletionQueued : List (Instant × Input Unit) :=
  [(.ofMillis 0, .listed (.ok ⟨[sample "a" "1" false, sample "b" "1" false], "1"⟩)),
    (.ofMillis 0, .opened (.ok ())),
    (.ofMillis 1000, .resyncDue),
    (.ofMillis 1000, .listed (.ok ⟨[sample "b" "1" false, sample "a" "2" true], "2"⟩)),
    (.ofMillis 1000, .pacedDue)]

theorem reachable_deletionQueued :
    Reachable { resync := .ofMillis 1000 }
      ((start { resync := .ofMillis 1000 } .zero).play deletionQueued) := by
  refine (Reachable.start _ _).play ⟨?_, ?_, ?_, ?_, ?_, ?_, ?_, ?_, ?_, ?_, trivial⟩
  · decide
  · exact .inl ⟨.seed, rfl⟩
  · decide
  · exact ⟨"1", rfl⟩
  · decide
  · exact ⟨.ofMillis 1000, List.mem_cons_self .., by decide⟩
  · decide
  · exact .inr ⟨.watching "1", rfl⟩
  · decide
  · exact ⟨.ofMillis 1000, List.mem_cons_of_mem _ (List.mem_cons_self ..), by decide⟩

/-- While `a` waits its deletion is owed, so its removal would not be announced. -/
theorem announced_iff_not_owes_queued :
    let l := (start { resync := .ofMillis 1000 } .zero).play deletionQueued
    let removed := (l.take (.ofMillis 1200) (.event (.deleted (sample "a" "3" true)))).settle
    l.machine.paced = [sample "a" "2" true] ∧
      (Announced removed.sends "a" ↔ ¬ l.Owes "a") := by
  intro l removed
  have hphase : l.machine.phase = .resting (.watching "1") := rfl
  exact ⟨rfl, announced_iff_not_owes reachable_deletionQueued rfl hphase (.ofMillis 1200)
    (sample "a" "3" true)⟩

/-- The removal of `a` is reported before its turn in the queue comes, and is kept back. -/
theorem removal_kept_back :
    let l := (start { resync := .ofMillis 1000 } .zero).play deletionQueued
    Reachable { resync := .ofMillis 1000 } l ∧ l.pending = [] ∧
      l.machine.phase = .resting (.watching "1") ∧
      ¬ Announced
        (l.take (.ofMillis 1200) (.event (.deleted (sample "a" "3" true)))).settle.sends "a" := by
  refine ⟨reachable_deletionQueued, rfl, rfl, ?_⟩
  rintro ⟨before, o, after, hsends, -, -⟩
  have hdelete : (.delete, o) ∈ [(Route.update, sample "a" "1" false),
      (.update, sample "b" "1" false), (.update, sample "b" "1" false)] := by
    rw [show [(Route.update, sample "a" "1" false), (.update, sample "b" "1" false),
      (.update, sample "b" "1" false)] = before ++ (.delete, o) :: after from hsends]
    simp
  simp at hdelete

end Loop

end Informer

end Reconciler
