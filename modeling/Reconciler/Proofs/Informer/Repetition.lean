import Reconciler.Proofs.Informer.History
import Reconciler.Proofs.Informer.Removal

/-!
# Removals that were announced before

The removal of an object whose deletion was delivered is not delivered again: the cache remembers
that the last news of its key was a deletion. But the memory is in the entry, and lists change
entries. A list that no longer holds the object takes the entry away while the removal is still on
its way, and a resync that finds a successor of the object overwrites it without sending anything.
Then the removal, when it comes, is delivered a second time.

What was delivered stays remembered through everything else: repetitions, live changes, the objects
handed out again, and every list that still shows the object as being deleted.

## Main definitions

* `KnownDeleting` : the last news of a key is that it is being deleted
* `Occurrence.Spares` : what does not take a deletion out of memory without sending something

## Main results

* `State.leaving_news` and `State.leaving_news_of_sent` : what an input keeps, and what it adds
* `Loop.removal_silent_iff` : which removals are kept back
* `Loop.removal_sent_twice` : a run in which one is not
-/

namespace Reconciler

namespace Informer

variable {β : Type} {k : String} {last : Option (Object β)}

/-- The object is being deleted, by the last news of it. -/
def Leaving (last : Option (Object β)) : Prop := last.any Object.isDeleting = true

theorem leaving_some {o : Object β} : Leaving (some o) ↔ o.isDeleting = true := Iff.rfl

/-- The last news of a key is that it is being deleted. -/
def KnownDeleting (past : List (Occurrence β)) (k : String) : Prop := Leaving (lastNews past k)

/-- Copies that are all being deleted do not change what is known of a deletion. -/
theorem Leaving.foldl {copies : List (Object β)} (h : Leaving last)
    (hcopies : ∀ o ∈ copies, o.isDeleting = true) : Leaving (copies.foldl newer last) := by
  induction copies generalizing last with
  | nil => exact h
  | cons o os ih =>
    refine ih ?_ fun p hp => hcopies p (List.mem_cons_of_mem _ hp)
    rcases newer_eq last o with ⟨heq, -⟩ | heq <;> rw [heq]
    · exact h
    · exact hcopies o (List.mem_cons_self ..)

/-! ### Lists that seed or repair

Such a list sends what is news, so a deletion stays known unless an update is sent; and what it
sends as a deletion is known as one afterwards. -/

/-- A copy that is news and sent where it belongs keeps a deletion known, unless it is sent as an
update. -/
theorem leaving_newer {c : Cache} (hc : c.get? k = last.map Object.entry) (h : Leaving last)
    {o : Object β} {sends : List (Route × Object β)}
    (hsends : c.knows o = false → (o.route, o) ∈ sends)
    (hupdates : ∀ p, (.update, p) ∈ sends → p.key ≠ k) :
    Leaving (if o.key = k then newer last o else last) := by
  split
  case isFalse => exact h
  case isTrue hk =>
    subst hk
    cases hknows : c.knows o with
    | true => rwa [Cache.newer_of_knows hc hknows]
    | false =>
      rw [Cache.newer_of_not_knows hc hknows, leaving_some]
      cases hdel : o.isDeleting with
      | true => rfl
      | false =>
        have hroute : o.route = .update := by simp [Object.route, hdel]
        exact absurd rfl (hupdates o (hroute ▸ hsends hknows))

namespace State

theorem get?_observeListed {c : Cache} (hc : c.get? k = last.map Object.entry) (mode : ListMode)
    (o : Object β) :
    (observeListed mode c o).1.get? k =
      (if o.key = k then newer last o else last).map Object.entry := by
  rw [fst_observeListed, Cache.get?_observe hc]

/-- One more item of a list with the key, or not. -/
theorem foldl_filter_cons (o : Object β) (os : List (Object β)) :
    ((o :: os).filter fun o => o.key == k).foldl newer last =
      (os.filter fun o => o.key == k).foldl newer (if o.key = k then newer last o else last) := by
  by_cases hk : o.key = k <;> simp [hk]

theorem leaving_observeAll {c : Cache} (hc : c.get? k = last.map Object.entry) (h : Leaving last)
    {mode : ListMode} {items : List (Object β)}
    (hupdates : ∀ p, (.update, p) ∈ sent (observeAll mode c items).2 → p.key ≠ k) :
    Leaving ((items.filter fun o => o.key == k).foldl newer last) := by
  induction items generalizing c last with
  | nil => exact h
  | cons o os ih =>
    rw [sent_observeAll_cons] at hupdates
    rw [foldl_filter_cons]
    refine ih (get?_observeListed hc mode o) ?_ fun p hp => hupdates p (by simp [hp])
    refine leaving_newer hc h ?_ hupdates
    intro hnews
    rcases sent_observeListed mode c o with hsent | ⟨hknown, -⟩
    · simp [hsent]
    · simp [hknown] at hnews

/-- A deletion that a list sends is known afterwards, unless an update follows it or another copy of
the same version was not being deleted. -/
theorem leaving_observeAll_of_sent {c : Cache} (hc : c.get? k = last.map Object.entry)
    {mode : ListMode} {items : List (Object β)} {before after : List (Route × Object β)}
    {d : Object β} (hsent : sent (observeAll mode c items).2 = before ++ (.delete, d) :: after)
    (hkey : d.key = k) (hdel : d.isDeleting = true)
    (hagree : ∀ p, last = some p ∨ p ∈ items ∧ p.key = k → p.version = d.version →
      p.isDeleting = true)
    (hupdates : ∀ p, (.update, p) ∈ after → p.key ≠ k) :
    Leaving ((items.filter fun o => o.key == k).foldl newer last) := by
  induction items generalizing c last before with
  | nil => simp [observeAll] at hsent
  | cons o os ih =>
    rw [sent_observeAll_cons] at hsent
    rw [foldl_filter_cons]
    have hc' := get?_observeListed hc mode o
    have hlater (before' : List (Route × Object β))
        (h : sent (observeAll mode (observeListed mode c o).1 os).2 =
          before' ++ (.delete, d) :: after) :
        Leaving ((os.filter fun o => o.key == k).foldl newer
          (if o.key = k then newer last o else last)) := by
      refine ih hc' h ?_
      rintro p (hp | ⟨hp, hpkey⟩)
      · split at hp
        case isTrue hk =>
          rcases newer_eq last o with ⟨heq, -⟩ | heq <;> rw [heq] at hp
          · exact hagree p (.inl hp)
          · cases hp
            exact hagree o (.inr ⟨List.mem_cons_self .., hk⟩)
        case isFalse => exact hagree p (.inl hp)
      · exact hagree p (.inr ⟨List.mem_cons_of_mem _ hp, hpkey⟩)
    rcases sent_observeListed mode c o with hfirst | ⟨-, hfirst⟩ <;> rw [hfirst] at hsent
    · cases before with
      | cons x before => exact hlater before (List.cons.inj hsent).2
      | nil =>
        obtain ⟨hd, hrest⟩ := List.cons.inj hsent
        obtain rfl : o = d := (Prod.mk.inj hd).2
        refine leaving_observeAll hc' ?_ fun p hp => hupdates p (hrest ▸ hp)
        rw [if_pos hkey]
        rcases newer_eq last o with ⟨heq, p, hp, hversion⟩ | heq <;> rw [heq]
        · rw [hp, leaving_some]
          exact hagree p (.inl hp) hversion
        · exact hdel
    · exact hlater before hsent

/-! ### Inputs -/

theorem sent_stepListed {s : State β} {mode : ListMode} (hphase : s.phase = .listing mode)
    (t : Instant) (l : ObjectList β) :
    sent (s.step t (.listed (.ok l))).2 = sent (observeAll mode s.cache l.items).2 := by
  simp [step, hphase, stepListed, reopen, applyList, calm]

/-- An object with the key is on every list that does not drop it. -/
theorem exists_of_not_drops {l : ObjectList β} (h : (Input.listed (.ok l)).drops k = false) :
    ∃ o ∈ l.items, o.key = k := by
  simpa [Input.drops] using h

/-- A deletion stays known, unless an update is sent, or the key is dropped, or a resync lists a
copy that is not being deleted. -/
theorem leaving_news {s : State β} {t : Instant} {i : Input β} (hi : s.Awaits t.time i)
    (hc : s.cache.get? k = last.map Object.entry) (h : Leaving last) (hdrops : i.drops k = false)
    (hresync : ∀ rest, s.phase = .resyncing rest → ∀ o ∈ i.copies k, o.isDeleting = true)
    (hupdates : ∀ p, (.update, p) ∈ sent (s.step t i).2 → p.key ≠ k) : Leaving (i.news k last) := by
  have hchange (o : Object β) (hsent : sent (s.handleChange o).2 = sent (s.step t i).2) :
      Leaving (if o.key = k then newer last o else last) := by
    refine leaving_newer hc h ?_ hupdates
    intro hnews
    rw [← hsent]
    simp [handleChange, Cache.observe, hnews]
  cases i with
  | listed r =>
    cases r with
    | error e => exact h
    | ok l =>
      rw [Input.news_listed (exists_of_not_drops hdrops)]
      obtain ⟨mode, hphase⟩ | ⟨rest, hphase⟩ := hi
      · rw [sent_stepListed hphase] at hupdates
        exact leaving_observeAll hc h hupdates
      · exact h.foldl (hresync rest hphase)
  | event e =>
    obtain ⟨version, hphase⟩ := hi
    have hsent : (s.step t (.event e)).2 = (s.handleEvent e).2 := by
      simp only [step, hphase, stepWatch, handleEvent_calm]
    cases e with
    | added o =>
      have hleaving := hchange o (by rw [hsent]; rfl)
      by_cases hk : o.key = k <;> simpa [Input.news, Input.drops, Input.copies, hk] using hleaving
    | modified o =>
      have hleaving := hchange o (by rw [hsent]; rfl)
      by_cases hk : o.key = k <;> simpa [Input.news, Input.drops, Input.copies, hk] using hleaving
    | deleted o => rwa [Input.news, if_neg (by simp [hdrops])]
    | bookmark v => exact h
  | _ => exact h

/-- A deletion that is sent for anything but a removal is known afterwards, unless an update follows
it or another copy of the same version was not being deleted. -/
theorem leaving_news_of_sent {s : State β} {t : Instant} {i : Input β}
    (hc : s.cache.get? k = last.map Object.entry) {before after : List (Route × Object β)}
    {d : Object β} (hsent : sent (s.step t i).2 = before ++ (.delete, d) :: after)
    (hkey : d.key = k) (hdel : d.isDeleting = true) (hi : ∀ p, i ≠ .event (.deleted p))
    (hagree : ∀ p, last = some p ∨ p ∈ i.copies k → p.version = d.version → p.isDeleting = true)
    (hupdates : ∀ p, (.update, p) ∈ after → p.key ≠ k) : Leaving (i.news k last) := by
  -- a step that sends one object sends `d`
  have hone {route : Route} {o : Object β} (h : [(route, o)] = before ++ (.delete, d) :: after) :
      o = d := by
    have hd : (.delete, d) ∈ [(route, o)] := by simp [h]
    exact (Prod.mk.inj (List.mem_singleton.1 hd)).2.symm
  have heffect := s.effect_step t i
  rw [hsent] at heffect
  generalize hsends : before ++ (.delete, d) :: after = sends at heffect hsent
  generalize (s.step t i).1.cache = cache at heffect
  generalize (s.step t i).1.paced = paced at heffect
  cases heffect with
  | quiet => simp at hsends
  | resynced => simp at hsends
  | passedOver => simp at hsends
  | forgotten => simp at hsends
  | removed => exact absurd rfl (hi _)
  | listed hphase l =>
    rename_i mode
    rw [applyList, sent_append, sent_forget, List.append_nil] at hsends
    have hmem : (.delete, d) ∈ sent (observeAll mode s.cache l.items).2 := by simp [← hsends]
    rw [Input.news_listed ⟨d, (of_mem_sent_observeAll hmem).2, hkey⟩]
    refine leaving_observeAll_of_sent hc hsends.symm hkey hdel ?_ hupdates
    rintro p (hp | ⟨hp, hpkey⟩)
    · exact hagree p (.inl hp)
    · exact hagree p (.inr (by simp [Input.copies, hp, hpkey]))
  | handedOut hpaced hcurrent =>
    obtain rfl := hone hsends.symm
    rw [hkey, hc, Option.map_map] at hcurrent
    obtain ⟨p, hp, hversion⟩ := Option.map_eq_some_iff.1 hcurrent
    rw [show (Input.pacedDue : Input β).news k last = last from rfl, hp, leaving_some]
    exact hagree p (.inl hp) hversion
  | @changed e o he hnews =>
    obtain rfl := hone hsends.symm
    subst hkey
    have hnewer := Cache.newer_of_not_knows hc hnews
    rcases he with rfl | rfl <;>
      simpa [Input.news, Input.drops, Input.copies, hnewer] using leaving_some.2 hdel

end State

/-! ### Runs -/

/-- What does not take the deletion of a key out of memory without sending something: no list lacks
the key, and no list of a resync has a copy of it that is not being deleted. -/
def Occurrence.Spares (k : String) : Occurrence β → Prop
  | .took _ phase (.listed (.ok l)) => (∃ o ∈ l.items, o.key = k) ∧
      ((∃ rest, phase = .resyncing rest) → ∀ o ∈ l.items, o.key = k → o.isDeleting = true)
  | _ => True

/-- Nothing happened that would take the deletion of a key out of memory: no update was sent and no
removal observed, and the lists spared it. -/
structure Undisturbed (k : String) (since : List (Occurrence β)) : Prop where
  updates : ∀ p, .carried (.send .update p) ∈ since → p.key ≠ k
  removals : ∀ t phase p, .took t phase (.event (.deleted p)) ∈ since → p.key ≠ k
  lists : ∀ x ∈ since, x.Spares k

theorem Undisturbed.of_append_left {since more : List (Occurrence β)}
    (h : Undisturbed k (since ++ more)) : Undisturbed k since where
  updates p hp := h.updates p (List.mem_append_left _ hp)
  removals t phase p hp := h.removals t phase p (List.mem_append_left _ hp)
  lists x hx := h.lists x (List.mem_append_left _ hx)

theorem Undisturbed.of_append_right {since more : List (Occurrence β)}
    (h : Undisturbed k (since ++ more)) : Undisturbed k more where
  updates p hp := h.updates p (List.mem_append_right _ hp)
  removals t phase p hp := h.removals t phase p (List.mem_append_right _ hp)
  lists x hx := h.lists x (List.mem_append_right _ hx)

theorem Undisturbed.update_of_sent {outs : List (Output β)}
    (h : Undisturbed k (outs.map Occurrence.carried)) {p : Object β}
    (hp : (.update, p) ∈ sent outs) : p.key ≠ k :=
  h.updates p (List.mem_map.2 ⟨.send .update p, mem_sent.1 hp, rfl⟩)

theorem Undisturbed.drops {since : List (Occurrence β)} (h : Undisturbed k since) {t : Instant}
    {phase : Phase} {i : Input β} (hi : .took t phase i ∈ since) : i.drops k = false := by
  cases i with
  | listed r =>
    cases r with
    | error e => rfl
    | ok l => simpa [Input.drops] using (h.lists _ hi).1
  | event e =>
    cases e with
    | deleted o => simpa [Input.drops] using h.removals t phase o hi
    | _ => rfl
  | _ => rfl

theorem Undisturbed.copies {since : List (Occurrence β)} (h : Undisturbed k since) {t : Instant}
    {phase : Phase} {i : Input β} (hi : .took t phase i ∈ since)
    (hresync : ∃ rest, phase = .resyncing rest) {s : State β} (hs : s.phase = phase)
    (hawaits : s.Awaits t.time i) : ∀ o ∈ i.copies k, o.isDeleting = true := by
  obtain ⟨rest, rfl⟩ := hresync
  cases i with
  | listed r =>
    cases r with
    | error e => simp [Input.copies]
    | ok l =>
      intro o ho
      obtain ⟨hlisted, hkey⟩ : o ∈ l.items ∧ o.key = k := by simpa [Input.copies] using ho
      exact (h.lists _ hi).2 ⟨rest, rfl⟩ o hlisted hkey
  | event e =>
    obtain ⟨version, hphase⟩ := hawaits
    rw [hs] at hphase
    cases hphase
  | _ => simp [Input.copies]

namespace Loop

variable {config : Config} {l l' : Loop β}

/-- Unless it is disturbed a deletion stays known, however the informer goes on. -/
theorem Run.knownDeleting (hrun : Run l l') (hl : Reachable config l)
    (h : KnownDeleting l.past k) :
    l'.machine.phase = .stopped ∨ ∃ since, l'.account = l.account ++ since ∧
      (Undisturbed k since → KnownDeleting l'.past k) := by
  induction hrun with
  | refl => exact .inr ⟨[], (List.append_nil _).symm, fun _ => h⟩
  | @tail l₁ l₂ hrun hstep ih =>
    have hl₁ : Reachable config l₁ := by
      obtain ⟨now, hstart⟩ := hl
      exact ⟨now, hstart.trans hrun⟩
    cases hstep with
    | cancel t ht hs => exact .inl (State.phase_step_cancelled _ t)
    | @carry out rest hp =>
      refine ih.imp_right ?_
      rintro ⟨since, haccount, hknown⟩
      refine ⟨since, by rw [account_carry hp, haccount], fun hsince => ?_⟩
      have hsame := lastNews_append_carried l₁.past out k
      exact (congrArg Leaving hsame).mpr (hknown hsince)
    | take t i hp ht hi =>
      rcases ih with hstopped | ⟨since, haccount, hknown⟩
      · exact .inl (by rw [take_machine, State.step_stopped hstopped]; exact hstopped)
      refine .inr ⟨since ++ .took t l₁.machine.phase i :: (l₁.machine.step t i).2.map .carried, ?_,
        fun hsince => ?_⟩
      · rw [account_take, ← account_of_pending hp, haccount, List.append_assoc]
      have hlater := hsince.of_append_right
      rw [KnownDeleting, Loop.take, lastNews_append_took]
      refine State.leaving_news hi (hl₁.get?_cache k) (hknown hsince.of_append_left)
        (hlater.drops (List.mem_cons_self ..)) ?_ ?_
      · intro rest hphase
        exact hlater.copies (List.mem_cons_self ..) ⟨rest, hphase⟩ rfl hi
      · intro p hp
        rw [← List.singleton_append] at hlater
        exact hlater.of_append_right.update_of_sent hp

/-- A removal is kept back exactly if the last news of its key is a deletion. After a deletion was
delivered, and neither an update was sent nor a removal observed since, that is so if the delivery
was not itself one for a removal, if no copy of the version that was delivered was alive, and if no
list has taken the deletion out of memory. -/
theorem removal_silent_iff (hl : Reachable config l) (hpending : l.pending = []) {version : String}
    (hphase : l.machine.phase = .resting (.watching version)) (t : Instant) (o : Object β)
    {before since : List (Occurrence β)} {t₀ : Instant} {phase₀ : Phase} {i₀ : Input β}
    {outs : List (Output β)} {d : Object β}
    (hpast : l.past = before ++ .took t₀ phase₀ i₀ ::
      (outs.map .carried ++ .carried (.send .delete d) :: since))
    (hkey : d.key = o.key) (hdel : d.isDeleting = true)
    (hupdates : ∀ p, .carried (.send .update p) ∈ since → p.key ≠ o.key)
    (hremovals : ∀ t phase p, .took t phase (.event (.deleted p)) ∈ since → p.key ≠ o.key) :
    ((l.take t (.event (.deleted o))).settle.sends = l.sends ↔ KnownDeleting l.past o.key) ∧
      ((∀ p, i₀ ≠ .event (.deleted p)) →
        (∀ t phase i, .took t phase i ∈ l.past → ∀ p ∈ i.copies o.key, p.version = d.version →
          p.isDeleting = true) →
        (∀ x ∈ since, x.Spares o.key) →
          (l.take t (.event (.deleted o))).settle.sends = l.sends) := by
  have hsilent : (l.take t (.event (.deleted o))).settle.sends = l.sends ↔
      KnownDeleting l.past o.key := by
    rw [sends_removed hphase, hl.get?_cache, Option.any_map]
    change (if (lastNews l.past o.key).any Object.isDeleting = true then _ else _) = _ ↔
      (lastNews l.past o.key).any Object.isDeleting = true
    split <;> simp_all
  refine ⟨hsilent, fun hi₀ hagree hspares => hsilent.2 ?_⟩
  have hphase' : l.machine.phase ≠ .stopped := by simp [hphase]
  obtain ⟨l₀, rest, more, hl₀, rfl, hwanted, htaken, hrun, rfl, haccount⟩ :=
    exists_wanted hl hpending hphase' hpast
  have hsince : Undisturbed o.key (rest.map .carried ++ more) := ⟨hupdates, hremovals, hspares⟩
  have hsent : sent (l₀.machine.step t₀ i₀).2 = sent outs ++ (.delete, d) :: sent rest := by
    rw [hwanted, sent_append, sent_send]
  have hknown : KnownDeleting (l₀.take t₀ i₀).past o.key := by
    rw [KnownDeleting, Loop.take, lastNews_append_took]
    refine State.leaving_news_of_sent (hl₀.get?_cache o.key) hsent hkey hdel hi₀ ?_ ?_
    · rintro p (hp | hp) hversion
      · obtain ⟨t, phase, i, hmem, hcopy⟩ := mem_copies_of_lastNews hp
        exact hagree t phase i (by simp [hpast, hmem]) p hcopy hversion
      · exact hagree t₀ phase₀ i₀ (by simp [hpast]) p hp hversion
    · intro p hp
      exact hsince.of_append_left.update_of_sent hp
  obtain ⟨since, heq, hkept⟩ := (hrun.knownDeleting htaken hknown).resolve_left hphase'
  obtain rfl : more = since := List.append_cancel_left (haccount.symm.trans heq)
  exact hkept hsince.of_append_right

/-- The deletion of `a` is delivered, and then a resync gets a list. -/
def relisted (items : List (Object Unit)) : List (Instant × Input Unit) :=
  [(.ofMillis 0, .listed (.ok ⟨[sample "a" "1" false], "1"⟩)),
    (.ofMillis 0, .opened (.ok ())),
    (.ofMillis 200, .event (.modified (sample "a" "2" true))),
    (.ofMillis 1000, .resyncDue),
    (.ofMillis 1000, .listed (.ok ⟨items, "2"⟩))]

theorem reachable_relisted (items : List (Object Unit)) :
    Reachable { resync := .ofMillis 1000 }
      ((start { resync := .ofMillis 1000 } .zero).play (relisted items)) := by
  refine (Reachable.start _ _).play ⟨?_, ?_, ?_, ?_, ?_, ?_, ?_, ?_, ?_, ?_, trivial⟩
  · decide
  · exact .inl ⟨.seed, rfl⟩
  · decide
  · exact ⟨"1", rfl⟩
  · decide
  · exact ⟨"1", rfl⟩
  · decide
  · exact ⟨.ofMillis 1000, List.mem_cons_self .., by decide⟩
  · show Instant.time _ ≤ Instant.time _
    decide
  · exact .inr ⟨.watching "2", rfl⟩

/-- The list of the resync still shows `a`, so its removal is kept back. -/
theorem removal_silent_relisted :
    let l := (start { resync := .ofMillis 1000 } .zero).play (relisted [sample "a" "2" true])
    let removed := (l.take (.ofMillis 1200) (.event (.deleted (sample "a" "3" true)))).settle
    l.sends = [(.update, sample "a" "1" false), (.delete, sample "a" "2" true)] ∧
      removed.sends = l.sends := by
  intro l removed
  let before : List (Occurrence Unit) :=
    [.carried (.log (.informerStarted (.ofMillis 1000))), .carried .list,
      .took (.ofMillis 0) (.listing .seed) (.listed (.ok ⟨[sample "a" "1" false], "1"⟩)),
      .carried (.log (.objectsListed 1 "1")), .carried (.send .update (sample "a" "1" false)),
      .carried (.watch "1"), .took (.ofMillis 0) (.opening "1") (.opened (.ok ())),
      .carried (.log (.watchOpened "1"))]
  let since : List (Occurrence Unit) :=
    [.took (.ofMillis 1000) (.resting (.watching "2")) .resyncDue, .carried (.log (.resyncing 1)),
      .carried .list,
      .took (.ofMillis 1000) (.resyncing (.watching "2"))
        (.listed (.ok ⟨[sample "a" "2" true], "2"⟩))]
  have hphase : l.machine.phase = .resting (.watching "2") := rfl
  have hpast : l.past = before ++ .took (.ofMillis 200) (.resting (.watching "1"))
      (.event (.modified (sample "a" "2" true))) ::
        (([] : List (Output Unit)).map .carried ++
          .carried (.send .delete (sample "a" "2" true)) :: since) := rfl
  refine ⟨rfl, (removal_silent_iff (reachable_relisted _) rfl hphase (.ofMillis 1200)
    (sample "a" "3" true) hpast rfl rfl ?_ ?_).2 ?_ ?_ ?_⟩
  · simp [since]
  · simp [since]
  · simp
  · intro t phase i hi p hp hversion
    have hcopy : p = sample "a" "1" false ∨ p = sample "a" "2" true := by
      rw [hpast] at hi
      simp only [List.map_nil, List.nil_append, List.cons_append, List.mem_cons, reduceCtorEq,
        Occurrence.took.injEq, List.not_mem_nil, or_false, false_or, before, since] at hi
      rcases hi with ⟨-, -, rfl⟩ | ⟨-, -, rfl⟩ | ⟨-, -, rfl⟩ | ⟨-, -, rfl⟩ | ⟨-, -, rfl⟩ <;>
        simp_all [Input.copies]
    rcases hcopy with rfl | rfl
    · exact absurd hversion (by decide)
    · rfl
  · simp [since, Occurrence.Spares]
    decide

/-- The list of the resync lacks `a`, whose removal the watch is still to report. -/
theorem removal_sent_twice :
    let l := (start { resync := .ofMillis 1000 } .zero).play (relisted [])
    let removed := (l.take (.ofMillis 1200) (.event (.deleted (sample "a" "3" true)))).settle
    Reachable { resync := .ofMillis 1000 } l ∧ l.pending = [] ∧
      l.machine.phase = .resting (.watching "2") ∧
      l.sends = [(.update, sample "a" "1" false), (.delete, sample "a" "2" true)] ∧
      removed.sends = l.sends ++ [(.delete, sample "a" "3" true)] :=
  ⟨reachable_relisted [], rfl, rfl, rfl, rfl⟩

end Loop

end Informer

end Reconciler
