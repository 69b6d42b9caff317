import Reconciler.Proofs.Informer.Loop

/-!
# What an informer tracks was sent or waits to be sent

A tracked version makes later reports of that version repetitions, so recording a version without
sending it would lose it for good. A list that seeds or repairs sends what it records. A resync only
records, puts what it listed in the queue, and drops the queue of the resync before; but a list
holds everything that is tracked after it, so its objects alone account for the whole cache.

## Main definitions

* `Cache.Accounted` : every tracked version is one of some objects

## Main results

* `State.applyList_induction` : what a list that seeds or repairs keeps
* `State.accounted_applyResync` : the list of a resync accounts for all that is tracked after it
* `State.Effect.accounted` : what every step keeps
* `Loop.tracked_sent_or_queued` : what is tracked was sent, or waits in the queue
-/

namespace Reconciler

variable {β : Type}

namespace Cache

/-! ### What an observation records -/

theorem version_eq_of_knows {c : Cache} {o : Object β} (hknows : c.knows o = true) :
    ∃ e, c.get? o.key = some e ∧ e.version = o.version := by
  rw [knows, Bool.and_eq_true, Option.any_eq_true] at hknows
  obtain ⟨-, e, he, hversion⟩ := hknows
  exact ⟨e, he, by simpa using hversion⟩

/-- After an observation the version of the object is tracked. -/
theorem get?_observe_self (c : Cache) (o : Object β) :
    ∃ e, (c.observe o).2.get? o.key = some e ∧ e.version = o.version := by
  cases hknows : c.knows o with
  | true =>
    rw [observe, if_pos hknows]
    exact version_eq_of_knows hknows
  | false =>
    rw [observe, if_neg (by simp [hknows])]
    exact ⟨⟨o.version, o.isDeleting⟩, by simp, rfl⟩

/-- An observation leaves the other keys alone. -/
theorem get?_observe_of_ne (c : Cache) {o : Object β} {k : String} (hk : k ≠ o.key) :
    (c.observe o).2.get? k = c.get? k := by
  cases hknows : c.knows o with
  | true => rw [observe, if_pos hknows]
  | false => rw [observe, if_neg (by simp [hknows]), get?_put, if_neg hk]

/-- Removals only take entries away. -/
theorem get?_of_get?_erase {c : Cache} {key k : String} {e : Entry}
    (he : (c.erase key).get? k = some e) : c.get? k = some e := by
  rw [get?_erase] at he
  split at he
  · cases he
  · exact he

/-- Forgetting what is not listed only takes entries away. -/
theorem get?_of_get?_retain {c : Cache} {keys : List String} {k : String} {e : Entry}
    (he : (c.retain keys).2.get? k = some e) : c.get? k = some e := by
  rw [get?_retain] at he
  split at he
  · exact he
  · cases he

/-! ### Accounting for what is tracked -/

/-- Every version that is tracked is the version of one of these objects. -/
def Accounted (c : Cache) (os : List (Object β)) : Prop :=
  ∀ k e, c.get? k = some e → ∃ o ∈ os, o.key = k ∧ o.version = e.version

theorem accounted_empty (os : List (Object β)) : Accounted {} os := by
  intro k e he
  simp [get?] at he

/-- Less may be tracked, and more objects may account for it. -/
theorem Accounted.of_le {c c' : Cache} {os os' : List (Object β)} (h : c.Accounted os)
    (hc : ∀ k e, c'.get? k = some e → c.get? k = some e) (hos : os ⊆ os') :
    c'.Accounted os' := by
  intro k e he
  obtain ⟨o, ho, hkey, hversion⟩ := h k e (hc k e he)
  exact ⟨o, hos ho, hkey, hversion⟩

theorem Accounted.mono {c : Cache} {os os' : List (Object β)} (h : c.Accounted os)
    (hos : os ⊆ os') : c.Accounted os' :=
  h.of_le (fun _ _ he => he) hos

theorem Accounted.put {c : Cache} {os : List (Object β)} (h : c.Accounted os) (o : Object β)
    (deleting : Bool) : (c.put o.key ⟨o.version, deleting⟩).Accounted (os ++ [o]) := by
  intro k e he
  rw [get?_put] at he
  split at he
  case isTrue hk =>
    cases he
    exact ⟨o, by simp, hk.symm, rfl⟩
  case isFalse =>
    obtain ⟨p, hp, hkey, hversion⟩ := h k e he
    exact ⟨p, by simp [hp], hkey, hversion⟩

/-- More may be sent. -/
theorem Accounted.send {c : Cache} {sends : List (Route × Object β)} {queue : List (Object β)}
    (h : c.Accounted (sends.map Prod.snd ++ queue)) (more : List (Route × Object β)) :
    c.Accounted ((sends ++ more).map Prod.snd ++ queue) := by
  refine h.mono ?_
  intro p hp
  simp only [List.map_append, List.mem_append] at hp ⊢
  exact hp.imp_left .inl

/-- An object is recorded and sent. -/
theorem Accounted.put_sent {c : Cache} {sends : List (Route × Object β)} {queue : List (Object β)}
    (h : c.Accounted (sends.map Prod.snd ++ queue)) (o : Object β) :
    (c.put o.key ⟨o.version, o.isDeleting⟩).Accounted
      ((sends ++ [(o.route, o)]).map Prod.snd ++ queue) := by
  refine (h.put o o.isDeleting).mono ?_
  intro p hp
  simp only [List.map_append, List.mem_append] at hp ⊢
  exact or_right_comm.1 hp

/-- The last of some objects that has the key. -/
def lastOf (items : List (Object β)) (k : String) : Option (Object β) :=
  items.reverse.find? fun o => o.key == k

/-- Observing objects one after the other leaves the version of every key to the last of them that
has it, or as it was. -/
theorem version_foldl_observe (items : List (Object β)) (c : Cache) (k : String) :
    ((items.foldl (fun c o => (c.observe o).2) c).get? k).map (·.version) =
      ((lastOf items k).map Object.version).or ((c.get? k).map (·.version)) := by
  induction items generalizing c with
  | nil => rfl
  | cons o os ih =>
    have hlast : lastOf (o :: os) k = (lastOf os k).or (if o.key = k then some o else none) := by
      by_cases hk : o.key = k <;> simp [lastOf, List.find?_append, hk]
    rw [List.foldl_cons, ih, hlast]
    cases lastOf os k with
    | some p => rfl
    | none =>
      by_cases hk : o.key = k
      · subst hk
        obtain ⟨e, he, hversion⟩ := c.get?_observe_self o
        simp [he, hversion]
      · simp [hk, get?_observe_of_ne c (Ne.symm hk)]

end Cache

namespace Informer

namespace State

/-! ### Lists -/

@[simp] theorem sent_forget (c : Cache) (items : List (Object β)) :
    sent (forget c items).2 = [] := by
  simp only [forget]
  split <;> rfl

theorem sent_observeListed (mode : ListMode) (c : Cache) (o : Object β) :
    sent (observeListed mode c o).2 = [(o.route, o)] ∨
      c.knows o = true ∧ sent (observeListed mode c o).2 = [] := by
  cases hknows : c.knows o <;> cases mode <;> simp [observeListed, Cache.observe, hknows]

theorem sent_observeAll_cons (mode : ListMode) (c : Cache) (o : Object β) (os : List (Object β)) :
    sent (observeAll mode c (o :: os)).2 = sent (observeListed mode c o).2 ++
      sent (observeAll mode (observeListed mode c o).1 os).2 := by
  rw [observeAll, sent_append]

/-- Whatever a list sends is one of its objects, where its deletion timestamp puts it. -/
theorem of_mem_sent_observeAll {mode : ListMode} {c : Cache} {items : List (Object β)}
    {route : Route} {o : Object β} (h : (route, o) ∈ sent (observeAll mode c items).2) :
    route = o.route ∧ o ∈ items := by
  induction items generalizing c with
  | nil => simp [observeAll] at h
  | cons p os ih =>
    rw [sent_observeAll_cons, List.mem_append] at h
    rcases h with h | h
    · rcases sent_observeListed mode c p with hsent | ⟨-, hsent⟩ <;> rw [hsent] at h
      · cases List.mem_singleton.1 h
        exact ⟨rfl, List.mem_cons_self ..⟩
      · cases h
    · exact (ih h).imp_right (List.mem_cons_of_mem _)

/-- So is whatever is sent when a list is applied. -/
theorem of_mem_sent_applyList {s : State β} {mode : ListMode} {items : List (Object β)}
    {route : Route} {o : Object β} (h : (route, o) ∈ sent (s.applyList mode items).2) :
    route = o.route ∧ o ∈ items := by
  rw [applyList, sent_append, sent_forget, List.append_nil] at h
  exact of_mem_sent_observeAll h

section Lists

/-! What a list that seeds or repairs does to the cache and to the streams is made of three things:
an object is recorded and sent, a known object is sent again, or an entry is forgotten. -/

variable {P : Cache → List (Route × Object β) → Prop}
  (hput : ∀ {c sends} (o : Object β), P c sends →
    P (c.put o.key ⟨o.version, o.isDeleting⟩) (sends ++ [(o.route, o)]))
  (hresend : ∀ {c sends} {o : Object β}, c.knows o = true → P c sends →
    P c (sends ++ [(o.route, o)]))
include hput hresend

theorem observeListed_induction {c : Cache} {sends : List (Route × Object β)} (h : P c sends)
    (mode : ListMode) (o : Object β) :
    P (observeListed mode c o).1 (sends ++ sent (observeListed mode c o).2) := by
  cases hknows : c.knows o with
  | true =>
    cases mode with
    | seed => simpa [observeListed, Cache.observe, hknows] using hresend hknows h
    | relist => simpa [observeListed, Cache.observe, hknows] using h
  | false => simpa [observeListed, Cache.observe, hknows] using hput o h

theorem observeAll_induction {c : Cache} {sends : List (Route × Object β)} (h : P c sends)
    (mode : ListMode) (items : List (Object β)) :
    P (observeAll mode c items).1 (sends ++ sent (observeAll mode c items).2) := by
  induction items generalizing c sends with
  | nil => simpa [observeAll] using h
  | cons o rest ih =>
    have hrest := ih (observeListed_induction hput hresend h mode o)
    simpa only [observeAll, sent_append, List.append_assoc] using hrest

/-- What all three keep is kept by the whole list. -/
theorem applyList_induction
    (hforget : ∀ {c c' sends}, (∀ k e, c'.get? k = some e → c.get? k = some e) → P c sends →
      P c' sends)
    {s : State β} {sends : List (Route × Object β)} (h : P s.cache sends) (mode : ListMode)
    (items : List (Object β)) :
    P (s.applyList mode items).1.cache (sends ++ sent (s.applyList mode items).2) := by
  simp only [applyList, sent_append, sent_forget, List.append_nil]
  exact hforget (fun _ _ => Cache.get?_of_get?_retain)
    (observeAll_induction hput hresend h mode items)

end Lists

/-- What the items of a list record was sent before or is sent for one of them. -/
theorem accounted_applyList {s : State β} {sends : List (Route × Object β)}
    {queue : List (Object β)} (h : s.cache.Accounted (sends.map Prod.snd ++ queue))
    (mode : ListMode) (items : List (Object β)) :
    (s.applyList mode items).1.cache.Accounted
      ((sends ++ sent (s.applyList mode items).2).map Prod.snd ++ queue) := by
  refine applyList_induction (P := fun c sends => c.Accounted (sends.map Prod.snd ++ queue))
    ?_ ?_ ?_ h mode items
  · intro c sends o h
    exact h.put_sent o
  · intro c sends o hknows h
    exact h.send _
  · intro c c' sends hle h
    exact h.of_le hle (List.Subset.refl _)

/-- After the list of a resync, exactly what it holds is tracked, at the version that is listed
last. -/
theorem version_applyResync (s : State β) (now : Duration) (items : List (Object β)) (k : String) :
    ((s.applyResync now items).1.cache.get? k).map (·.version) =
      (Cache.lastOf items k).map Object.version := by
  simp only [applyResync, forget, Cache.get?_retain]
  split
  case isTrue hlisted =>
    have hsome : (Cache.lastOf items k).isSome = true := by
      obtain ⟨o, ho, hkey⟩ : ∃ o ∈ items, o.key = k := by simpa using hlisted
      simpa [Cache.lastOf] using ⟨o, ho, hkey⟩
    obtain ⟨o, ho⟩ := Option.isSome_iff_exists.1 hsome
    rw [Cache.version_foldl_observe, ho]
    rfl
  case isFalse hlisted =>
    have hnone : Cache.lastOf items k = none := by
      simpa [Cache.lastOf] using hlisted
    rw [hnone]
    rfl

/-- So the list accounts for all that is tracked after it, whatever was sent before. -/
theorem accounted_applyResync (s : State β) (now : Duration) (items : List (Object β)) :
    (s.applyResync now items).1.cache.Accounted items := by
  intro k e he
  have hversion := s.version_applyResync now items k
  rw [he] at hversion
  obtain ⟨o, ho, heq⟩ := Option.map_eq_some_iff.1 hversion.symm
  have hkey := List.find?_some ho
  exact ⟨o, by simpa using List.mem_of_find?_eq_some ho, by simpa using hkey, heq⟩

/-- What every step keeps: the objects sent so far and those in the queue account for what is
tracked. -/
theorem Effect.accounted {s : State β} {i : Input β} {cache : Cache} {paced : List (Object β)}
    {sends : List (Route × Object β)} (he : s.Effect i cache paced sends)
    {before : List (Route × Object β)}
    (h : s.cache.Accounted (before.map Prod.snd ++ s.paced)) :
    cache.Accounted ((before ++ sends).map Prod.snd ++ paced) := by
  cases he with
  | quiet => simpa using h
  | listed hphase l => exact accounted_applyList h _ l.items
  | resynced hphase now l =>
    exact (s.accounted_applyResync now l.items).mono (List.subset_append_right ..)
  | handedOut hpaced hcurrent =>
    rw [hpaced] at h
    simpa using h
  | @passedOver o rest hpaced hcurrent =>
    -- the object that is dropped accounts for nothing: the version tracked of its key is another
    intro k e hk
    obtain ⟨p, hp, hkey, hversion⟩ := h k e hk
    rw [hpaced] at hp
    have hne : p ≠ o := by
      rintro rfl
      rw [hkey, hk, Option.map_some, hversion] at hcurrent
      exact hcurrent rfl
    refine ⟨p, ?_, hkey, hversion⟩
    simpa [hne] using hp
  | @changed e o hevent hnews => exact h.put_sent o
  | @removed o hnews =>
    exact (h.of_le (fun _ _ => Cache.get?_of_get?_erase) (List.Subset.refl _)).send _
  | forgotten hentry hdel =>
    simpa using h.of_le (fun _ _ => Cache.get?_of_get?_erase) (List.Subset.refl _)

end State

namespace Loop

/-- Until the informer is cancelled nothing that is tracked is unaccounted for. -/
theorem Reachable.accounted {config : Config} {l : Loop β} (hl : Reachable config l) :
    l.machine.phase = .stopped ∨ l.machine.cache.Accounted
      ((l.sends ++ sent l.pending).map Prod.snd ++ l.machine.paced) := by
  refine hl.invariant_of_effect
    (P := fun c sends queue => c.Accounted (sends.map Prod.snd ++ queue)) ?_ ?_
  · exact Cache.accounted_empty _
  · intro s i cache paced sends before heffect h
    exact heffect.accounted h

/-- Whenever an informer waits for something to happen, every version that it tracks was sent on one
of its streams or waits in the queue of the last resync. -/
theorem tracked_sent_or_queued {config : Config} {l : Loop β} (hl : Reachable config l)
    (hpending : l.pending = []) (hphase : l.machine.phase ≠ .stopped) {k : String}
    {e : Cache.Entry} (he : l.machine.cache.get? k = some e) :
    (∃ route o, (route, o) ∈ l.sends ∧ o.key = k ∧ o.version = e.version) ∨
      ∃ o ∈ l.machine.paced, o.key = k ∧ o.version = e.version := by
  have h := hl.accounted.resolve_left hphase
  obtain ⟨o, ho, hkey, hversion⟩ := h k e he
  rw [hpending, sent_nil, List.append_nil, List.mem_append] at ho
  rcases ho with hsent | hqueued
  · obtain ⟨⟨route, p⟩, hp, rfl⟩ := List.mem_map.1 hsent
    exact .inl ⟨route, p, hp, hkey, hversion⟩
  · exact .inr ⟨o, hqueued, hkey, hversion⟩

/-- A change of `a` that the watch never reports and only a resync finds. -/
def changeMissed : List (Instant × Input Unit) :=
  [(.ofMillis 0, .listed (.ok ⟨[sample "a" "1" false], "1"⟩)),
    (.ofMillis 0, .opened (.ok ())),
    (.ofMillis 1000, .resyncDue),
    (.ofMillis 1000, .listed (.ok ⟨[sample "a" "2" false], "2"⟩))]

theorem admits_changeMissed :
    (start { resync := .ofMillis 1000 } .zero).Admits changeMissed := by
  refine ⟨?_, ?_, ?_, ?_, ?_, ?_, ?_, ?_, trivial⟩
  · decide
  · exact .inl ⟨.seed, rfl⟩
  · decide
  · exact ⟨"1", rfl⟩
  · decide
  · exact ⟨.ofMillis 1000, List.mem_cons_self .., by decide⟩
  · decide
  · exact .inr ⟨.watching "1", rfl⟩

/-- Right after that resync the new version of `a` is tracked, and no object of that version was
sent yet. -/
theorem changed_sent_or_queued :
    let l := (start { resync := .ofMillis 1000 } .zero).play changeMissed
    l.machine.cache.get? "a" = some ⟨"2", false⟩ ∧ l.sends = [(.update, sample "a" "1" false)] ∧
      ((∃ route o, (route, o) ∈ l.sends ∧ o.key = "a" ∧ o.version = "2") ∨
        ∃ o ∈ l.machine.paced, o.key = "a" ∧ o.version = "2") := by
  have hl : Reachable { resync := .ofMillis 1000 }
      ((start { resync := .ofMillis 1000 } .zero).play changeMissed) :=
    (Reachable.start _ _).play admits_changeMissed
  have htracked : ((start { resync := .ofMillis 1000 } .zero).play changeMissed).machine.cache.get?
      "a" = some ⟨"2", false⟩ := rfl
  exact ⟨htracked, rfl, tracked_sent_or_queued hl rfl (by decide) htracked⟩

end Loop

end Informer

end Reconciler
