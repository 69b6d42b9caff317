import Reconciler.Program

/-!
# What happens while a program runs

A program says what it asks, but not what it is answered. `Program.Runs p as r` says that `as` can
happen while `p` runs against surroundings that answer whatever they like; `r` is the value of `p`,
or nothing for a run that was looked at before its end. What happens in a sequence of programs is
what happens in the first and then in the second, so a run of a large program is taken apart into
runs of its parts.

## Main definitions

* `Program.Act` : what can happen
* `Program.Step`, `Program.Runs` : one act, and a run
* `Program.Only`, `Program.Inquires` : whatever happens has a property, or something is asked
* `Program.Always` : every run has a property
* `Program.dialogue` : the questions of a run with their answers

## Main results

* `Runs.of_bind`, `Runs.of_andThen` : runs of a sequence
* `Runs.of_inSpan`, `Runs.of_interpret_ask` : spans and interfaces only rename what happens
* `Only.bind`, `Only.andThen` : what only happens in the parts only happens in the whole
* `Always.bind` : a property of runs that composes holds of a sequence
-/

namespace Reconciler

namespace Program

variable {I J : Interface} {α β : Type}

/-- Something that happens while a program runs. -/
inductive Act (I : Interface) where
  /-- The program logged or measured. -/
  | signalled (s : Signal)
  /-- The program slept. -/
  | slept (d : Duration)
  /-- The program read clock and chance. -/
  | looked (m : Moment)
  /-- The program asked and was answered. -/
  | asked (q : I.Request) (r : I.Reply q)

/-- One act, and what is left to run after it. -/
inductive Step : Program I α → Act I → Program I α → Prop where
  /-- Log or measure. -/
  | signal (s : Signal) (next : Program I α) : Step (.signal s next) (.signalled s) next
  /-- Sleep. -/
  | sleep (d : Duration) (next : Program I α) : Step (.sleep d next) (.slept d) next
  /-- Read clock and chance. -/
  | moment (m : Moment) (next : Moment → Program I α) : Step (.moment next) (.looked m) (next m)
  /-- Ask. -/
  | ask {q : I.Request} (r : I.Reply q) (next : I.Reply q → Program I α) :
      Step (.ask q next) (.asked q r) (next r)

/-- What happens in a run, and the value of the program if the run is complete. -/
inductive Runs : Program I α → List (Act I) → Option α → Prop where
  /-- The run is looked at before its end. -/
  | cut (p : Program I α) : Runs p [] none
  /-- The program ends. -/
  | done (a : α) : Runs (.done a) [] (some a)
  /-- An act happens. -/
  | step {p p' : Program I α} {a : Act I} {as : List (Act I)} {r : Option α} (h : Step p a p')
      (hr : Runs p' as r) : Runs p (a :: as) r

theorem Runs.of_done {a : α} {as : List (Act I)} {r : Option α} (h : Runs (.done a) as r) :
    as = [] ∧ (r = none ∨ r = some a) := by
  cases h with
  | cut => exact ⟨rfl, .inl rfl⟩
  | done => exact ⟨rfl, .inr rfl⟩
  | step h => cases h

/-- A run of a program that asks is looked at before, or has the answer. -/
theorem Runs.cut_or_ask {q : I.Request} {next : I.Reply q → Program I α} {as : List (Act I)}
    {r : Option α} (h : Runs (.ask q next) as r) :
    as = [] ∧ r = none ∨ ∃ rep as', as = .asked q rep :: as' ∧ Runs (next rep) as' r := by
  cases h with
  | cut => exact .inl ⟨rfl, rfl⟩
  | step hs h => cases hs with | ask rep => exact .inr ⟨rep, _, rfl, h⟩

/-- A complete run begins with the first act of the program. -/
theorem Runs.of_ask {q : I.Request} {next : I.Reply q → Program I α} {as : List (Act I)} {a : α}
    (h : Runs (.ask q next) as (some a)) :
    ∃ rep as', as = .asked q rep :: as' ∧ Runs (next rep) as' (some a) :=
  h.cut_or_ask.resolve_left (by simp)

theorem Runs.of_moment {next : Moment → Program I α} {as : List (Act I)} {a : α}
    (h : Runs (.moment next) as (some a)) :
    ∃ m as', as = .looked m :: as' ∧ Runs (next m) as' (some a) := by
  cases h with
  | step hs h => cases hs with | moment m => exact ⟨m, _, rfl, h⟩

theorem Runs.of_sleep {d : Duration} {next : Program I α} {as : List (Act I)} {a : α}
    (h : Runs (.sleep d next) as (some a)) :
    ∃ as', as = .slept d :: as' ∧ Runs next as' (some a) := by
  cases h with
  | step hs h => cases hs; exact ⟨_, rfl, h⟩

/-! ### Sequences -/

theorem Step.of_bind {p : Program I α} {f : α → Program I β} {a : Act I} {q : Program I β}
    (h : Step (p.bind f) a q) :
    (∃ p', Step p a p' ∧ q = p'.bind f) ∨ ∃ b, p = .done b ∧ Step (f b) a q := by
  cases p with
  | done b => exact .inr ⟨b, rfl, h⟩
  | unfinished => cases h
  | signal s next => cases h; exact .inl ⟨_, .signal s next, rfl⟩
  | sleep d next => cases h; exact .inl ⟨_, .sleep d next, rfl⟩
  | moment next => cases h with | moment m => exact .inl ⟨_, .moment m next, rfl⟩
  | ask q next => cases h with | ask r => exact .inl ⟨_, .ask r next, rfl⟩

theorem Step.bind {p p' : Program I α} {a : Act I} (h : Step p a p') (f : α → Program I β) :
    Step (p.bind f) a (p'.bind f) := by
  cases h with
  | signal s next => exact .signal s _
  | sleep d next => exact .sleep d _
  | moment m next => exact .moment m _
  | ask r next => exact .ask r _

/-- A complete run of the first program, and a run of what follows its value. -/
theorem Runs.bind {p : Program I α} {f : α → Program I β} {as bs : List (Act I)} {a : α}
    {r : Option β} (h : Runs p as (some a)) (hf : Runs (f a) bs r) :
    Runs (p.bind f) (as ++ bs) r := by
  generalize hx : some a = x at h
  induction h with
  | cut => cases hx
  | done b =>
    cases hx
    exact hf
  | step hs _ ih => exact .step (hs.bind f) (ih hx)

/-- A run of a sequence is still in the first program, or has a complete run of it behind it. -/
theorem Runs.of_bind {p : Program I α} {f : α → Program I β} {as : List (Act I)} {r : Option β}
    (h : Runs (p.bind f) as r) :
    r = none ∧ Runs p as none ∨
      ∃ a as₁ as₂, as = as₁ ++ as₂ ∧ Runs p as₁ (some a) ∧ Runs (f a) as₂ r := by
  generalize hp : p.bind f = pf at h
  induction h generalizing p with
  | cut => exact .inl ⟨rfl, .cut p⟩
  | done b =>
    cases p with
    | done a =>
      rw [done_bind] at hp
      exact .inr ⟨a, [], [], rfl, .done a, hp ▸ .done b⟩
    | _ => cases hp
  | step hs hr ih =>
    subst hp
    rcases hs.of_bind with ⟨p', hp', rfl⟩ | ⟨b, rfl, hb⟩
    · rcases ih rfl with ⟨hnone, hcut⟩ | ⟨a, as₁, as₂, rfl, hfirst, hrest⟩
      · exact .inl ⟨hnone, .step hp' hcut⟩
      · exact .inr ⟨a, _ :: as₁, as₂, rfl, .step hp' hfirst, hrest⟩
    · exact .inr ⟨b, [], _, rfl, .done b, .step hb hr⟩

/-- A complete run of a sequence has a complete run of either part. -/
theorem Runs.complete_of_bind {p : Program I α} {f : α → Program I β} {as : List (Act I)} {b : β}
    (h : Runs (p.bind f) as (some b)) :
    ∃ a as₁ as₂, as = as₁ ++ as₂ ∧ Runs p as₁ (some a) ∧ Runs (f a) as₂ (some b) :=
  h.of_bind.resolve_left (by simp)

/-- A run of what follows a success is still in the first program, or ends with its failure, or has
its success behind it. -/
theorem Runs.of_andThen {p : Program I (Except Error α)} {f : α → Program I (Except Error β)}
    {as : List (Act I)} {r : Option (Except Error β)} (h : Runs (p.andThen f) as r) :
    r = none ∧ Runs p as none ∨
      (∃ e, (r = none ∨ r = some (.error e)) ∧ Runs p as (some (.error e))) ∨
        ∃ a as₁ as₂, as = as₁ ++ as₂ ∧ Runs p as₁ (some (.ok a)) ∧ Runs (f a) as₂ r := by
  rcases h.of_bind with hcut | ⟨x, as₁, as₂, rfl, hfirst, hrest⟩
  · exact .inl hcut
  · cases x with
    | ok a => exact .inr (.inr ⟨a, as₁, as₂, rfl, hfirst, hrest⟩)
    | error e =>
      obtain ⟨rfl, hr⟩ := hrest.of_done
      rw [List.append_nil]
      exact .inr (.inl ⟨e, hr, hfirst⟩)

theorem Runs.complete_of_andThen {p : Program I (Except Error α)}
    {f : α → Program I (Except Error β)} {as : List (Act I)} {x : Except Error β}
    (h : Runs (p.andThen f) as (some x)) :
    (∃ e, x = .error e ∧ Runs p as (some (.error e))) ∨
      ∃ a as₁ as₂, as = as₁ ++ as₂ ∧ Runs p as₁ (some (.ok a)) ∧ Runs (f a) as₂ (some x) := by
  rcases h.of_andThen with ⟨hnone, -⟩ | ⟨e, hx, hfirst⟩ | hboth
  · cases hnone
  · exact .inl ⟨e, by simpa using hx, hfirst⟩
  · exact .inr hboth

/-! ### What only happens -/

/-- Whatever happens in a run of `p` has the property `P`. -/
def Only (P : Act I → Prop) (p : Program I α) : Prop :=
  ∀ as r, Runs p as r → ∀ a ∈ as, P a

/-- The program asks something whenever it runs to its end. -/
def Inquires (p : Program I α) : Prop :=
  ∀ as x, Runs p as (some x) → ∃ q rep, .asked q rep ∈ as

variable {P : Act I → Prop}

theorem only_done (a : α) : Only P (.done a : Program I α) := by
  intro as r h
  obtain ⟨rfl, -⟩ := h.of_done
  simp

/-- Every first act has the property, and so has whatever comes after it. -/
theorem only_of_step {p : Program I α} (h : ∀ a p', Step p a p' → P a ∧ Only P p') : Only P p := by
  intro as r hruns a ha
  cases hruns with
  | cut => cases ha
  | done => cases ha
  | step hstep hrest =>
    obtain ⟨hfirst, hlater⟩ := h _ _ hstep
    rcases List.mem_cons.1 ha with rfl | ha
    · exact hfirst
    · exact hlater _ r hrest a ha

theorem only_signal {s : Signal} (hs : P (.signalled s)) {next : Program I α} (h : Only P next) :
    Only P (.signal s next) := by
  refine only_of_step ?_
  rintro a p' ⟨⟩
  exact ⟨hs, h⟩

theorem only_sleep {d : Duration} (hd : P (.slept d)) {next : Program I α} (h : Only P next) :
    Only P (.sleep d next) := by
  refine only_of_step ?_
  rintro a p' ⟨⟩
  exact ⟨hd, h⟩

theorem only_moment (hm : ∀ m, P (.looked m)) {next : Moment → Program I α}
    (h : ∀ m, Only P (next m)) : Only P (.moment next) := by
  refine only_of_step ?_
  intro a p' hstep
  cases hstep with
  | moment m => exact ⟨hm m, h m⟩

theorem only_ask {q : I.Request} (hq : ∀ rep, P (.asked q rep)) {next : I.Reply q → Program I α}
    (h : ∀ rep, Only P (next rep)) : Only P (.ask q next) := by
  refine only_of_step ?_
  intro a p' hstep
  cases hstep with
  | ask rep => exact ⟨hq rep, h rep⟩

theorem only_unfinished : Only P (.unfinished : Program I α) :=
  only_of_step (by rintro a p' ⟨⟩)

theorem only_ite {c : Prop} [Decidable c] {p q : Program I α} (hp : Only P p) (hq : Only P q) :
    Only P (if c then p else q) := by
  split
  · exact hp
  · exact hq

theorem Only.bind {p : Program I α} (hp : Only P p) {f : α → Program I β} (hf : ∀ a, Only P (f a)) :
    Only P (p.bind f) := by
  intro as r h
  rcases h.of_bind with ⟨-, hcut⟩ | ⟨a, as₁, as₂, rfl, hfirst, hrest⟩
  · exact hp as none hcut
  · intro x hx
    rcases List.mem_append.1 hx with hx | hx
    · exact hp as₁ _ hfirst x hx
    · exact hf a as₂ r hrest x hx

theorem Only.andThen {p : Program I (Except Error α)} (hp : Only P p)
    {f : α → Program I (Except Error β)} (hf : ∀ a, Only P (f a)) : Only P (p.andThen f) := by
  refine hp.bind fun x => ?_
  cases x with
  | ok a => exact hf a
  | error e => exact only_done _

theorem only_log (hP : ∀ s, P (.signalled s)) (e : LogEvent) : Only P (log e) :=
  only_signal (hP _) (only_done _)

theorem only_measure_of_forall {ms : List Measurement}
    (h : ∀ m ∈ ms, P (.signalled (.measure m))) : Only P (measure ms) := by
  induction ms with
  | nil => exact only_done _
  | cons m ms ih =>
    obtain ⟨hm, hms⟩ := List.forall_mem_cons.1 h
    exact only_signal hm (ih hms)

theorem only_measure (hP : ∀ s, P (.signalled s)) (ms : List Measurement) :
    Only P (measure ms) :=
  only_measure_of_forall fun m _ => hP (.measure m)

/-! ### What holds of every run

`Only` is about the acts one by one. A property of a whole run goes through sequences just as well,
if it is kept when one run follows another and if what is no question always has it. -/

/-- The property is kept when one run follows another, and nothing but questions can break it. -/
structure Composable (T : List (Act I) → Prop) : Prop where
  nil : T []
  append : ∀ {as bs}, T as → T bs → T (as ++ bs)
  quiet : ∀ {a}, (∀ q rep, a ≠ .asked q rep) → T [a]

/-- Every run of the program has the property. -/
def Always (T : List (Act I) → Prop) (p : Program I α) : Prop := ∀ as r, Runs p as r → T as

variable {T : List (Act I) → Prop}

theorem Always.done (hT : Composable T) (a : α) : Always T (.done a : Program I α) := by
  intro as r h
  rw [h.of_done.1]
  exact hT.nil

/-- A program that begins with something that is no question. -/
theorem Always.of_step (hT : Composable T) {p : Program I α} (hp : ∀ a, p ≠ .done a)
    (h : ∀ a p', Step p a p' → (∀ q rep, a ≠ .asked q rep) ∧ Always T p') : Always T p := by
  intro as r hruns
  cases hruns with
  | cut => exact hT.nil
  | done a => exact absurd rfl (hp a)
  | step hstep hrest =>
    obtain ⟨hquiet, hp'⟩ := h _ _ hstep
    exact hT.append (hT.quiet hquiet) (hp' _ r hrest)

theorem Always.signal (hT : Composable T) (s : Signal) {next : Program I α} (h : Always T next) :
    Always T (.signal s next) := by
  refine of_step hT (by simp) ?_
  rintro a p' ⟨⟩
  exact ⟨by simp, h⟩

theorem Always.sleep (hT : Composable T) (d : Duration) {next : Program I α}
    (h : Always T next) : Always T (.sleep d next) := by
  refine of_step hT (by simp) ?_
  rintro a p' ⟨⟩
  exact ⟨by simp, h⟩

theorem Always.moment (hT : Composable T) {next : Moment → Program I α}
    (h : ∀ m, Always T (next m)) : Always T (.moment next) := by
  refine of_step hT (by simp) ?_
  rintro a p' ⟨m⟩
  exact ⟨by simp, h _⟩

theorem Always.bind (hT : Composable T) {p : Program I α} (hp : Always T p) {f : α → Program I β}
    (hf : ∀ a, Always T (f a)) : Always T (p.bind f) := by
  intro as r h
  rcases h.of_bind with ⟨-, hcut⟩ | ⟨a, as₁, as₂, rfl, hfirst, hrest⟩
  · exact hp as none hcut
  · exact hT.append (hp as₁ _ hfirst) (hf a as₂ r hrest)

/-! ### Renaming -/

/-- The act as it is seen within a span. -/
def Act.inSpan (span : Span) : Act I → Act I
  | .signalled (.log ⟨e, none⟩) => .signalled (.log ⟨e, some span⟩)
  | a => a

theorem Step.of_inSpan {span : Span} {p : Program I α} {a : Act I} {q : Program I α}
    (h : Step (p.inSpan span) a q) :
    ∃ a' p', Step p a' p' ∧ a = a'.inSpan span ∧ q = p'.inSpan span := by
  cases p with
  | done b => cases h
  | unfinished => cases h
  | signal s next =>
    rcases s with ⟨e, _ | sp⟩ | m <;> cases h <;> exact ⟨_, _, .signal _ next, rfl, rfl⟩
  | sleep d next => cases h; exact ⟨_, _, .sleep d next, rfl, rfl⟩
  | moment next => cases h with | moment m => exact ⟨_, _, .moment m next, rfl, rfl⟩
  | ask q next => cases h with | ask r => exact ⟨_, _, .ask r next, rfl, rfl⟩

/-- Within a span the log entries are put into it, and nothing else changes. -/
theorem Runs.of_inSpan {span : Span} {p : Program I α} {as : List (Act I)} {r : Option α}
    (h : Runs (p.inSpan span) as r) :
    ∃ as', Runs p as' r ∧ as = as'.map (Act.inSpan span) := by
  generalize hp : p.inSpan span = p₁ at h
  induction h generalizing p with
  | cut => exact ⟨[], .cut p, rfl⟩
  | done b =>
    cases p with
    | done a => cases hp; exact ⟨[], .done _, rfl⟩
    | signal s next => rcases s with ⟨e, _ | sp⟩ | m <;> cases hp
    | _ => cases hp
  | step hs hr ih =>
    subst hp
    obtain ⟨a, p', hp', rfl, rfl⟩ := hs.of_inSpan
    obtain ⟨as, hruns, rfl⟩ := ih rfl
    exact ⟨a :: as, .step hp' hruns, rfl⟩

theorem Only.inSpan {P : Act I → Prop} {p : Program I α} (h : Only P p) {span : Span}
    (hspan : ∀ a, P a → P (a.inSpan span)) : Only P (p.inSpan span) := by
  intro as r hruns a ha
  obtain ⟨as, hplain, rfl⟩ := hruns.of_inSpan
  obtain ⟨b, hb, rfl⟩ := List.mem_map.1 ha
  exact hspan b (h as r hplain b hb)

theorem asked_mem_map_inSpan {span : Span} {as : List (Act I)} {q : I.Request}
    {rep : I.Reply q} : .asked q rep ∈ as.map (Act.inSpan span) ↔ .asked q rep ∈ as := by
  have hact (a : Act I) : a.inSpan span = .asked q rep ↔ a = .asked q rep := by
    rcases a with ⟨⟨e, _ | sp⟩ | m⟩ | d | m | ⟨q', rep'⟩ <;> simp [Act.inSpan]
  simp [hact]

/-- What can be told without the log entries is the same within a span. -/
theorem filterMap_inSpan {f : Act I → Option β} (hf : ∀ entry, f (.signalled (.log entry)) = none)
    (span : Span) (as : List (Act I)) :
    (as.map (Act.inSpan span)).filterMap f = as.filterMap f := by
  have hact (a : Act I) : f (a.inSpan span) = f a := by
    rcases a with ⟨⟨e, _ | sp⟩ | m⟩ | d | m | ⟨q, rep⟩
    case signalled.log.none => exact (hf _).trans (hf _).symm
    all_goals rfl
  rw [List.filterMap_map]
  exact congrArg (as.filterMap ·) (funext hact)

/-- The act as the surroundings see it when every question of `I` is passed on as a question of `J`,
and `toReply` is what `J` answered. -/
def Act.embed (emb : I.Request → J.Request) (toReply : ∀ q, I.Reply q → J.Reply (emb q)) :
    Act I → Act J
  | .signalled s => .signalled s
  | .slept d => .slept d
  | .looked m => .looked m
  | .asked q r => .asked (emb q) (toReply q r)

section Embed

variable (emb : I.Request → J.Request) (toReply : ∀ q, I.Reply q → J.Reply (emb q))
  (ofReply : ∀ q, J.Reply (emb q) → I.Reply q)

theorem Step.of_interpret_ask (hto : ∀ q r, toReply q (ofReply q r) = r) {p : Program I α}
    {a : Act J} {q : Program J α}
    (h : Step (p.interpret fun q => .ask (emb q) fun r => .done (ofReply q r)) a q) :
    ∃ a' p', Step p a' p' ∧ a = a'.embed emb toReply ∧
      q = p'.interpret fun q => .ask (emb q) fun r => .done (ofReply q r) := by
  cases p with
  | done b => cases h
  | unfinished => cases h
  | signal s next => cases h; exact ⟨_, _, .signal s next, rfl, rfl⟩
  | sleep d next => cases h; exact ⟨_, _, .sleep d next, rfl, rfl⟩
  | moment next => cases h with | moment m => exact ⟨_, _, .moment m next, rfl, rfl⟩
  | ask q next =>
    cases h with
    | ask r =>
      refine ⟨_, _, .ask (ofReply q r) next, ?_, rfl⟩
      rw [Act.embed, hto]

/-- A program whose questions are passed on does what it would do by itself. -/
theorem Runs.of_interpret_ask (hto : ∀ q r, toReply q (ofReply q r) = r) {p : Program I α}
    {as : List (Act J)} {r : Option α}
    (h : Runs (p.interpret fun q => .ask (emb q) fun r => .done (ofReply q r)) as r) :
    ∃ as', Runs p as' r ∧ as = as'.map (Act.embed emb toReply) := by
  generalize hp : (p.interpret fun q => .ask (emb q) fun r => .done (ofReply q r)) = p₁ at h
  induction h generalizing p with
  | cut => exact ⟨[], .cut p, rfl⟩
  | done b =>
    cases p with
    | done a => cases hp; exact ⟨[], .done _, rfl⟩
    | _ => cases hp
  | step hs hr ih =>
    subst hp
    obtain ⟨a, p', hp', rfl, rfl⟩ := hs.of_interpret_ask emb toReply ofReply hto
    obtain ⟨as, hruns, rfl⟩ := ih rfl
    exact ⟨a :: as, .step hp' hruns, rfl⟩

end Embed

/-! ### What is asked -/

/-- The questions of a run with their answers. -/
def dialogue (as : List (Act I)) : List (Σ q : I.Request, I.Reply q) :=
  as.filterMap fun
    | .asked q r => some ⟨q, r⟩
    | _ => none

@[simp] theorem dialogue_nil : dialogue ([] : List (Act I)) = [] := rfl

@[simp] theorem dialogue_append (as bs : List (Act I)) :
    dialogue (as ++ bs) = dialogue as ++ dialogue bs :=
  List.filterMap_append

@[simp] theorem dialogue_cons_asked (q : I.Request) (r : I.Reply q) (as : List (Act I)) :
    dialogue (.asked q r :: as) = ⟨q, r⟩ :: dialogue as := rfl

@[simp] theorem dialogue_cons_signalled (s : Signal) (as : List (Act I)) :
    dialogue (.signalled s :: as) = dialogue as := rfl

@[simp] theorem dialogue_cons_slept (d : Duration) (as : List (Act I)) :
    dialogue (.slept d :: as) = dialogue as := rfl

@[simp] theorem dialogue_cons_looked (m : Moment) (as : List (Act I)) :
    dialogue (.looked m :: as) = dialogue as := rfl

/-- Without questions there is no dialogue. -/
theorem dialogue_eq_nil {as : List (Act I)} (h : ∀ a ∈ as, ∀ q r, a ≠ .asked q r) :
    dialogue as = [] := by
  refine List.filterMap_eq_nil_iff.2 fun a ha => ?_
  cases a with
  | asked q r => exact absurd rfl (h _ ha q r)
  | _ => rfl

/-! ### One run -/

/-- Run a program to its end against surroundings that answer by a function and may change. Every
act comes with the surroundings that it met. Time stands still. -/
def perform {σ : Type} (reply : (q : I.Request) → σ → I.Reply q × σ) (m : Moment) :
    Program I α → σ → List (Act I × σ) × Option α × σ
  | done a, s => ([], some a, s)
  | unfinished, s => ([], none, s)
  | signal e next, s =>
    let rest := next.perform reply m s
    ((.signalled e, s) :: rest.1, rest.2)
  | sleep d next, s =>
    let rest := next.perform reply m s
    ((.slept d, s) :: rest.1, rest.2)
  | moment next, s =>
    let rest := (next m).perform reply m s
    ((.looked m, s) :: rest.1, rest.2)
  | ask q next, s =>
    let answer := reply q s
    let rest := (next answer.1).perform reply m answer.2
    ((.asked q answer.1, s) :: rest.1, rest.2)

/-- What is performed is a run. -/
theorem runs_perform {σ : Type} (reply : (q : I.Request) → σ → I.Reply q × σ) (m : Moment)
    (p : Program I α) (s : σ) :
    Runs p ((p.perform reply m s).1.map Prod.fst) (p.perform reply m s).2.1 := by
  induction p generalizing s with
  | done a => exact .done a
  | unfinished => exact .cut _
  | signal e next ih => exact .step (.signal e next) (ih s)
  | sleep d next ih => exact .step (.sleep d next) (ih s)
  | moment next ih => exact .step (.moment m next) (ih m s)
  | ask q next ih => exact .step (.ask _ next) (ih _ _)

end Program

end Reconciler
