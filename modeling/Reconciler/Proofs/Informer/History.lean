import Reconciler.Proofs.Informer.Delivery

/-!
# What the history of an informer tells

The cache of an informer is what it makes of the copies that it was shown: of every key it remembers
the last copy that was news. An input shows the copies of a key that a list holds or that an event
brings, and a list without the key, or a removal, takes the memory away. So the cache can be read
off the history, and a statement about what was observed is a statement about the cache.

## Main definitions

* `Input.copies`, `Input.drops` : what an input tells about one key
* `newer`, `lastNews` : the last copy of a key that was news
* `Loop.account` : what happened, with what is still to be carried out

## Main results

* `State.get?_cache_step` : what an input does to the entry of one key
* `Loop.Reachable.get?_cache` : the cache holds the last news of every key
* `Loop.exists_take`, `Loop.exists_carry` : what happened was a step of the run
* `Loop.exists_wanted` : and what was carried out next was wanted for it
-/

namespace Reconciler

variable {β : Type}

/-- What a cache remembers of a copy. -/
def Object.entry (o : Object β) : Cache.Entry := ⟨o.version, o.isDeleting⟩

namespace Informer

/-! ### What an input tells about a key -/

/-- The copies of a key that an input shows, in order. -/
def Input.copies (k : String) : Input β → List (Object β)
  | .listed (.ok l) => l.items.filter fun o => o.key == k
  | .event (.added o) | .event (.modified o) => if o.key = k then [o] else []
  | _ => []

/-- The input tells that no object has the key. -/
def Input.drops (k : String) : Input β → Bool
  | .listed (.ok l) => !(l.items.map Object.key).contains k
  | .event (.deleted o) => o.key == k
  | _ => false

/-- The copy to go by once `o` is shown after `last`. Another copy of the same version is a
repetition; a copy without a version never is. -/
def newer (last : Option (Object β)) (o : Object β) : Option (Object β) :=
  if o.version != "" && last.any fun p => p.version == o.version then last else some o

/-- What an input makes of the last news of a key. -/
def Input.news (k : String) (i : Input β) (last : Option (Object β)) : Option (Object β) :=
  if i.drops k then none else (i.copies k).foldl newer last

theorem newer_eq (last : Option (Object β)) (o : Object β) :
    newer last o = last ∧ (∃ p, last = some p ∧ p.version = o.version) ∨ newer last o = some o := by
  unfold newer
  split
  case isTrue h =>
    obtain ⟨p, hp, hversion⟩ := (Option.any_eq_true ..).1 (Bool.and_eq_true .. ▸ h).2
    exact .inl ⟨rfl, p, hp, by simpa using hversion⟩
  case isFalse => exact .inr rfl

/-- What a list tells about a key that it holds. -/
theorem Input.news_listed {l : ObjectList β} {k : String} (hk : ∃ o ∈ l.items, o.key = k)
    (last : Option (Object β)) :
    (Input.listed (.ok l)).news k last = (l.items.filter fun o => o.key == k).foldl newer last := by
  have hheld : (Input.listed (.ok l)).drops k = false := by simpa [Input.drops] using hk
  simp only [Input.news, hheld, Input.copies, Bool.false_eq_true, if_false]

end Informer

namespace Cache

open Informer

variable {c : Cache} {k : String} {last : Option (Object β)}

theorem knows_eq {o : Object β} (h : c.get? o.key = last.map Object.entry) :
    c.knows o = (o.version != "" && last.any fun p => p.version == o.version) := by
  simp only [knows, h, Option.any_map]
  rfl

theorem newer_of_knows {o : Object β} (h : c.get? o.key = last.map Object.entry)
    (hknows : c.knows o = true) : newer last o = last := by
  rw [newer, ← knows_eq h, if_pos hknows]

theorem newer_of_not_knows {o : Object β} (h : c.get? o.key = last.map Object.entry)
    (hknows : c.knows o = false) : newer last o = some o := by
  rw [newer, ← knows_eq h, if_neg (by simp [hknows])]

/-- An observation is remembered if it is news. -/
theorem get?_observe (h : c.get? k = last.map Object.entry) (o : Object β) :
    (c.observe o).2.get? k = (if o.key = k then newer last o else last).map Object.entry := by
  by_cases hk : o.key = k
  · subst hk
    rw [if_pos rfl, newer, ← knows_eq h, observe]
    split
    · exact h
    · simp [Object.entry]
  · rw [get?_observe_of_ne c (Ne.symm hk), if_neg hk, h]

/-- So of some objects those with the key are. -/
theorem get?_foldl_observe (h : c.get? k = last.map Object.entry) (items : List (Object β)) :
    (items.foldl (fun c o => (c.observe o).2) c).get? k =
      ((items.filter fun o => o.key == k).foldl newer last).map Object.entry := by
  induction items generalizing c last with
  | nil => exact h
  | cons o os ih =>
    rw [List.foldl_cons, ih (get?_observe h o)]
    by_cases hk : o.key = k <;> simp [hk]

end Cache

namespace Informer

namespace State

variable {k : String} {last : Option (Object β)}

theorem fst_observeListed (mode : ListMode) (c : Cache) (o : Object β) :
    (observeListed mode c o).1 = (c.observe o).2 := by
  cases hknows : c.knows o <;> cases mode <;> simp [observeListed, Cache.observe, hknows]

/-- In every mode the objects of a list are observed one after the other. -/
theorem fst_observeAll (mode : ListMode) (c : Cache) (items : List (Object β)) :
    (observeAll mode c items).1 = items.foldl (fun c o => (c.observe o).2) c := by
  induction items generalizing c with
  | nil => rfl
  | cons o os ih => rw [observeAll, ih, fst_observeListed, List.foldl_cons]

/-- Once what a list no longer holds is forgotten, only the list counts. -/
theorem get?_forget {c : Cache} (h : c.get? k = last.map Object.entry) (l : ObjectList β) :
    (forget (l.items.foldl (fun c o => (c.observe o).2) c) l.items).1.get? k =
      ((Input.listed (.ok l)).news k last).map Object.entry := by
  simp only [forget, Cache.get?_retain, Cache.get?_foldl_observe h]
  by_cases hk : (l.items.map Object.key).contains k = true
  · rw [if_pos hk, Input.news_listed (by simpa using hk)]
  · have hdrops : (Input.listed (.ok l)).drops k = true := by simpa [Input.drops] using hk
    rw [if_neg hk, Input.news, if_pos hdrops]
    rfl

/-- Only lists and events change the cache. -/
theorem Effect.cache_eq {s : State β} {i : Input β} {cache : Cache} {paced : List (Object β)}
    {sends : List (Route × Object β)} (he : s.Effect i cache paced sends)
    (hlisted : ∀ r, i ≠ .listed r) (hevent : ∀ e, i ≠ .event e) : cache = s.cache := by
  cases he with
  | quiet => rfl
  | listed => exact absurd rfl (hlisted _)
  | resynced => exact absurd rfl (hlisted _)
  | handedOut => rfl
  | passedOver => rfl
  | changed => exact absurd rfl (hevent _)
  | removed => exact absurd rfl (hevent _)
  | forgotten => exact absurd rfl (hevent _)

theorem get?_cache_handleEvent {s : State β} (h : s.cache.get? k = last.map Object.entry)
    (e : WatchEvent β) :
    (s.handleEvent e).1.cache.get? k = ((Input.event e).news k last).map Object.entry := by
  have hchange (o : Object β) :
      (s.handleChange o).1.cache.get? k =
        (if o.key = k then newer last o else last).map Object.entry := by
    rw [← Cache.get?_observe h o]
    cases hknows : s.cache.knows o <;> simp [handleChange, Cache.observe, hknows]
  cases e with
  | added o =>
    rw [handleEvent, hchange]
    by_cases hk : o.key = k <;> simp [Input.news, Input.drops, Input.copies, hk]
  | modified o =>
    rw [handleEvent, hchange]
    by_cases hk : o.key = k <;> simp [Input.news, Input.drops, Input.copies, hk]
  | deleted o =>
    have hne : (k = o.key) = (o.key = k) := propext eq_comm
    by_cases hk : o.key = k <;>
      simp [handleEvent, Cache.remove, Input.news, Input.drops, Input.copies, hne, hk, h]
  | bookmark v => exact h

/-- What an input does to the entry of one key. -/
theorem get?_cache_step {s : State β} {t : Instant} {i : Input β}
    (hi : s.Awaits t.time i ∨ i = .cancelled) (h : s.cache.get? k = last.map Object.entry) :
    (s.step t i).1.cache.get? k = (i.news k last).map Object.entry := by
  have hother (hlisted : ∀ r, i ≠ .listed r) (hevent : ∀ e, i ≠ .event e)
      (hnews : i.news k last = last) :
      (s.step t i).1.cache.get? k = (i.news k last).map Object.entry := by
    rw [(s.effect_step t i).cache_eq hlisted hevent, hnews, h]
  cases i with
  | listed r =>
    obtain ⟨mode, hphase⟩ | ⟨rest, hphase⟩ := hi.resolve_right (by simp)
    · cases r with
      | error e => simp only [step, hphase, stepListed]; exact h
      | ok l =>
        simp only [step, hphase, stepListed, reopen, applyList, calm, fst_observeAll]
        exact get?_forget h l
    · cases r with
      | error e => simp only [step, hphase, stepResynced]; exact h
      | ok l =>
        simp only [step, hphase, stepResynced, applyResync]
        exact get?_forget h l
  | event e =>
    obtain ⟨version, hphase⟩ := hi.resolve_right (by simp)
    simp only [step, hphase, stepWatch, handleEvent_calm]
    exact get?_cache_handleEvent h e
  | _ => exact hother (by simp) (by simp) rfl

end State

/-! ### The history -/

/-- What something that happened makes of the last news of a key. -/
def Occurrence.news (k : String) (last : Option (Object β)) : Occurrence β → Option (Object β)
  | .took _ _ i => i.news k last
  | .carried _ => last

/-- The last copy of a key that was news, unless its removal was observed since. -/
def lastNews (past : List (Occurrence β)) (k : String) : Option (Object β) :=
  past.foldl (Occurrence.news k) none

theorem lastNews_concat (past : List (Occurrence β)) (x : Occurrence β) (k : String) :
    lastNews (past ++ [x]) k = x.news k (lastNews past k) := by
  rw [lastNews, List.foldl_append]
  rfl

theorem lastNews_append_took (past : List (Occurrence β)) (t : Instant) (phase : Phase)
    (i : Input β) (k : String) :
    lastNews (past ++ [.took t phase i]) k = i.news k (lastNews past k) :=
  lastNews_concat past _ k

theorem lastNews_append_carried (past : List (Occurrence β)) (out : Output β) (k : String) :
    lastNews (past ++ [.carried out]) k = lastNews past k :=
  lastNews_concat past _ k

theorem eq_or_mem_of_foldl_newer {last : Option (Object β)} {copies : List (Object β)}
    {p : Object β} (h : copies.foldl newer last = some p) : last = some p ∨ p ∈ copies := by
  induction copies generalizing last with
  | nil => exact .inl h
  | cons o os ih =>
    rcases ih h with hlast | hmem
    · rcases newer_eq last o with ⟨heq, -⟩ | heq <;> rw [heq] at hlast
      · exact .inl hlast
      · cases hlast
        exact .inr (List.mem_cons_self ..)
    · exact .inr (List.mem_cons_of_mem _ hmem)

theorem eq_or_mem_copies_of_foldl_news {past : List (Occurrence β)} {last : Option (Object β)}
    {k : String} {p : Object β} (h : past.foldl (Occurrence.news k) last = some p) :
    last = some p ∨ ∃ t phase i, .took t phase i ∈ past ∧ p ∈ i.copies k := by
  induction past generalizing last with
  | nil => exact .inl h
  | cons x past ih =>
    rcases ih h with hlast | ⟨t, phase, i, hmem, hcopy⟩
    · cases x with
      | carried out => exact .inl hlast
      | took t phase i =>
        rw [Occurrence.news, Input.news] at hlast
        split at hlast
        · cases hlast
        · refine (eq_or_mem_of_foldl_newer hlast).imp_right fun hcopy => ?_
          exact ⟨t, phase, i, List.mem_cons_self .., hcopy⟩
    · exact .inr ⟨t, phase, i, List.mem_cons_of_mem _ hmem, hcopy⟩

/-- The last news of a key is one of the copies that were shown. -/
theorem mem_copies_of_lastNews {past : List (Occurrence β)} {k : String} {p : Object β}
    (h : lastNews past k = some p) : ∃ t phase i, .took t phase i ∈ past ∧ p ∈ i.copies k :=
  (eq_or_mem_copies_of_foldl_news h).resolve_left (by simp)

/-- If a step adds at most one entry to a record, then every entry was made by a step of the run,
and the run went on from there. -/
theorem exists_step_of_grows {σ α : Type} {r : σ → σ → Prop} {record : σ → List α}
    (hgrows : ∀ {s s' : σ}, r s s' → record s' = record s ∨ ∃ a, record s' = record s ++ [a])
    {s₀ s : σ} (hstart : record s₀ = []) (hrun : Relation.ReflTransGen r s₀ s)
    {before after : List α} {a : α} (hrecord : record s = before ++ a :: after) :
    ∃ s₁ s₂, Relation.ReflTransGen r s₀ s₁ ∧ r s₁ s₂ ∧ record s₁ = before ∧
      record s₂ = before ++ [a] ∧ Relation.ReflTransGen r s₂ s := by
  induction hrun generalizing after with
  | refl => simp [hstart] at hrecord
  | @tail s s' hbefore hstep ih =>
    rcases hgrows hstep with hsame | ⟨a', ha'⟩
    · obtain ⟨s₁, s₂, hrun₁, hstep₁, h₁, h₂, hrun₂⟩ := ih (hsame.symm.trans hrecord)
      exact ⟨s₁, s₂, hrun₁, hstep₁, h₁, h₂, hrun₂.tail hstep⟩
    -- it was the last step, or it came before
    rcases List.eq_nil_or_concat after with rfl | ⟨earlier, last, rfl⟩
    · have hsame : record s = before := (List.append_inj' (ha'.symm.trans hrecord) rfl).1
      exact ⟨s, s', hbefore, hstep, hsame, hrecord, .refl⟩
    · rw [ha', List.concat_eq_append, ← List.cons_append, ← List.append_assoc] at hrecord
      obtain ⟨s₁, s₂, hrun₁, hstep₁, h₁, h₂, hrun₂⟩ := ih (List.append_inj' hrecord rfl).1
      exact ⟨s₁, s₂, hrun₁, hstep₁, h₁, h₂, hrun₂.tail hstep⟩

namespace Loop

variable {config : Config} {l l' : Loop β}

/-- The cache holds the last news of every key. -/
theorem Reachable.get?_cache (hl : Reachable config l) (k : String) :
    l.machine.cache.get? k = (lastNews l.past k).map Object.entry := by
  refine hl.invariant (P := fun l =>
    l.machine.cache.get? k = (lastNews l.past k).map Object.entry) ?_ ?_
  · intro now
    rfl
  · intro l l' hstep h
    cases hstep with
    | @carry out rest hp =>
      exact h.trans (congrArg _ (lastNews_append_carried l.past out k).symm)
    | take t i hp ht hi =>
      rw [take_machine, State.get?_cache_step (.inl hi) h, Loop.take, lastNews_append_took]
    | cancel t ht hs =>
      rw [take_machine, State.get?_cache_step (.inr rfl) h, Loop.take, lastNews_append_took]

/-- Whatever happened was a step of the run, and the run went on from there. -/
theorem exists_step (hl : Reachable config l) {before after : List (Occurrence β)}
    {x : Occurrence β} (hpast : l.past = before ++ x :: after) :
    ∃ l₁ l₂ : Loop β, Reachable config l₁ ∧ Step l₁ l₂ ∧ l₁.past = before ∧
      l₂.past = before ++ [x] ∧ Run l₂ l := by
  obtain ⟨now, hrun⟩ := hl
  obtain ⟨l₁, l₂, hbefore, hstep, hpast₁, hpast₂, hafter⟩ :=
    exists_step_of_grows (fun h => .inr h.exists_past) rfl hrun hpast
  exact ⟨l₁, l₂, ⟨now, hbefore⟩, hstep, hpast₁, hpast₂, hafter⟩

/-- Every input in the history was taken in a state of the run, and the run went on from there. -/
theorem exists_take (hl : Reachable config l) {before after : List (Occurrence β)} {t : Instant}
    {phase : Phase} {i : Input β} (hpast : l.past = before ++ .took t phase i :: after) :
    ∃ l₀ : Loop β, Reachable config l₀ ∧ l₀.past = before ∧ l₀.machine.phase = phase ∧
      (l₀.pending = [] ∧ l₀.machine.Awaits t.time i ∨ i = .cancelled) ∧
        Reachable config (l₀.take t i) ∧ Run (l₀.take t i) l := by
  obtain ⟨l₀, l₁, hl₀, hstep, rfl, hpast₁, hrun⟩ := exists_step hl hpast
  have htaken := hl₀.step hstep
  cases hstep with
  | carry hp =>
    obtain ⟨-, heq⟩ := List.append_inj' hpast₁ rfl
    simp at heq
  | take t' i' hp ht hi =>
    obtain ⟨-, heq⟩ := List.append_inj' hpast₁ rfl
    cases heq
    exact ⟨l₀, hl₀, rfl, rfl, .inl ⟨hp, hi⟩, htaken, hrun⟩
  | cancel t' ht hs =>
    obtain ⟨-, heq⟩ := List.append_inj' hpast₁ rfl
    cases heq
    exact ⟨l₀, hl₀, rfl, rfl, .inr rfl, htaken, hrun⟩

/-- Every output in the history was carried out in a state of the run that wanted it next. -/
theorem exists_carry (hl : Reachable config l) {before after : List (Occurrence β)}
    {out : Output β} (hpast : l.past = before ++ .carried out :: after) :
    ∃ l₀ : Loop β, Reachable config l₀ ∧ l₀.past = before ∧ out ∈ l₀.pending := by
  obtain ⟨l₀, l₁, hl₀, hstep, rfl, hpast₁, -⟩ := exists_step hl hpast
  cases hstep with
  | carry hp =>
    obtain ⟨-, heq⟩ := List.append_inj' hpast₁ rfl
    cases heq
    exact ⟨l₀, hl₀, rfl, by simp [hp]⟩
  | take t' i' hp ht hi =>
    obtain ⟨-, heq⟩ := List.append_inj' hpast₁ rfl
    simp at heq
  | cancel t' ht hs =>
    obtain ⟨-, heq⟩ := List.append_inj' hpast₁ rfl
    simp at heq

/-- What happened, and what is to be carried out before anything else can happen. -/
def account (l : Loop β) : List (Occurrence β) := l.past ++ l.pending.map .carried

theorem account_of_pending (hp : l.pending = []) : l.account = l.past := by
  simp [account, hp]

theorem account_carry {out : Output β} {rest : List (Output β)} (hp : l.pending = out :: rest) :
    account { l with pending := rest, past := l.past ++ [.carried out] } = l.account := by
  simp [account, hp]

theorem account_take (l : Loop β) (t : Instant) (i : Input β) :
    (l.take t i).account =
      l.past ++ .took t l.machine.phase i :: (l.machine.step t i).2.map .carried := by
  simp [account, take]

/-- Unless the informer was cancelled the account only grows, and by inputs with what they lead
to. -/
theorem Run.account (hrun : Run l l') :
    l'.machine.phase = .stopped ∨ l'.account = l.account ∨
      ∃ t phase i more, l'.account = l.account ++ .took t phase i :: more := by
  induction hrun with
  | refl => exact .inr (.inl rfl)
  | @tail l₁ l₂ hrun hstep ih =>
    cases hstep with
    | carry hp => rwa [account_carry hp]
    | cancel t ht hs => exact .inl (State.phase_step_cancelled _ t)
    | take t i hp ht hi =>
      rcases ih with hstopped | heq | ⟨t', phase, i', more, heq⟩
      · exact .inl (by rw [take_machine, State.step_stopped hstopped]; exact hstopped)
      · refine .inr (.inr ⟨t, l₁.machine.phase, i, (l₁.machine.step t i).2.map .carried, ?_⟩)
        rw [account_take, ← heq, account_of_pending hp]
      · refine .inr (.inr ⟨t', phase, i', more ++ .took t l₁.machine.phase i ::
          (l₁.machine.step t i).2.map .carried, ?_⟩)
        rw [account_take, ← account_of_pending hp, heq, List.append_assoc, List.cons_append]

/-- Up to the next input only what is wanted is carried out. -/
theorem eq_of_map_carried_append {wanted outs : List (Output β)} {out : Output β}
    {since more : List (Occurrence β)}
    (hmore : more = [] ∨ ∃ t phase i later, more = .took t phase i :: later)
    (h : wanted.map .carried ++ more = outs.map .carried ++ .carried out :: since) :
    ∃ rest, wanted = outs ++ out :: rest ∧ since = rest.map .carried ++ more := by
  induction outs generalizing wanted with
  | nil =>
    cases wanted with
    | nil => rcases hmore with rfl | ⟨t, phase, i, later, rfl⟩ <;> simp at h
    | cons first rest =>
      obtain ⟨hfirst, hrest⟩ := List.cons.inj h
      cases hfirst
      exact ⟨rest, rfl, hrest.symm⟩
  | cons first outs ih =>
    cases wanted with
    | nil => rcases hmore with rfl | ⟨t, phase, i, later, rfl⟩ <;> simp at h
    | cons first' wanted =>
      obtain ⟨hfirst, hrest⟩ := List.cons.inj h
      cases hfirst
      obtain ⟨rest, rfl, hsince⟩ := ih hrest
      exact ⟨rest, rfl, hsince⟩

/-- What was carried out between an input and the next was wanted for that input, in a state of the
run. -/
theorem exists_wanted (hl : Reachable config l) (hpending : l.pending = [])
    (hphase : l.machine.phase ≠ .stopped) {before since : List (Occurrence β)} {t : Instant}
    {phase : Phase} {i : Input β} {outs : List (Output β)} {out : Output β}
    (hpast : l.past = before ++ .took t phase i :: (outs.map .carried ++ .carried out :: since)) :
    ∃ (l₀ : Loop β) (rest : List (Output β)) (more : List (Occurrence β)),
      Reachable config l₀ ∧ l₀.past = before ∧ (l₀.machine.step t i).2 = outs ++ out :: rest ∧
        Reachable config (l₀.take t i) ∧ Run (l₀.take t i) l ∧
          since = rest.map .carried ++ more ∧ l.account = (l₀.take t i).account ++ more := by
  obtain ⟨l₀, hl₀, rfl, rfl, -, htaken, hrun⟩ := exists_take hl hpast
  obtain ⟨more, hmore, haccount⟩ : ∃ more,
      (more = [] ∨ ∃ t phase i later, more = .took t phase i :: later) ∧
        l.account = (l₀.take t i).account ++ more := by
    rcases hrun.account.resolve_left hphase with heq | ⟨t', phase, i', later, heq⟩
    · exact ⟨[], .inl rfl, by rw [heq, List.append_nil]⟩
    · exact ⟨_, .inr ⟨t', phase, i', later, rfl⟩, heq⟩
  have hcarried : (l₀.machine.step t i).2.map .carried ++ more =
      outs.map .carried ++ .carried out :: since := by
    rw [account_of_pending hpending, hpast, account_take, List.append_assoc] at haccount
    exact (List.cons.inj (List.append_cancel_left haccount)).2.symm
  obtain ⟨rest, hwanted, hsince⟩ := eq_of_map_carried_append hmore hcarried
  exact ⟨l₀, rest, more, hl₀, rfl, hwanted, htaken, hrun, hsince, haccount⟩

end Loop

end Informer

end Reconciler
