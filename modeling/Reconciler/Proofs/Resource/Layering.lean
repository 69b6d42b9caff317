import Reconciler.Proofs.Resource.Stack
import Reconciler.Proofs.Retry

/-!
# From one layer of a stack to the next

A call that a layer sees is passed on to the layer beneath, and comes to what it comes to there.
Only a layer that repeats calls may pass it on several times: then all but the last of them fail in
a way that may pass, and the call comes to what the last of them comes to (`Nests`). That is all
there is to say about how often the layers of a stack are called, from the calls of a pass down to
those of the resource itself, and it is read off the notes of a run.

The induction is over the layers. A note is made by the layer that a call comes back from, so that
the notes of a call through layers are those of the calls beneath and one more.

## Main definitions

* `Decorator.Repeats` : a decorator that may repeat calls
* `outcomes` : what the calls of an operation came to at a layer
* `Nests`, `Layered` : how calls are passed on, at one layer and at all of them
* `Stack.around` : the layers around an operation

## Main results

* `Decorator.rounds` : what is noted while a call is in a layer
* `layered_through` : a call through layers
* `Stack.ensures_layered`, `Stack.ensures_placed` : a pass over a stack
* `Layered.steady` : layers that do not repeat calls see the same calls
-/

namespace Reconciler

open Program

variable {I : Interface} {K S C P ι α : Type}

/-! ### Runs of a decorated call -/

namespace Decorator

variable {resource : String} {op : Operation} {body : Program I (Except Error α)}
  {as : List (Act I)} {x : Except Error α}

/-- Something before a call, and something after it that depends on what the call came to. -/
theorem runs_bracket {before : Program I Unit} {after : Except Error α → Program I Unit}
    (h : Runs (before.bind fun _ => body.bind fun r => (after r).bind fun _ => .done r) as
      (some x)) :
    ∃ as₁ during as₂, as = as₁ ++ (during ++ as₂) ∧ Runs before as₁ (some ()) ∧
      Runs body during (some x) ∧ Runs (after x) as₂ (some ()) := by
  obtain ⟨_, as₁, as, rfl, hbefore, h⟩ := h.complete_of_bind
  obtain ⟨y, during, as, rfl, hbody, h⟩ := h.complete_of_bind
  obtain ⟨_, as₂, as, rfl, hafter, h⟩ := h.complete_of_bind
  obtain ⟨rfl, hx⟩ := h.of_done
  obtain rfl : x = y := by simpa using hx
  rw [List.append_nil]
  exact ⟨as₁, during, as₂, rfl, hbefore, hbody, hafter⟩

theorem runs_logging (h : Runs (Decorator.logging.around resource op body) as (some x)) :
    ∃ during, as = [.signalled (.log ⟨.callStarted resource op, none⟩)] ++
        (during ++ [.signalled (.log ⟨outcome resource op x, none⟩)]) ∧
      Runs body during (some x) := by
  obtain ⟨started, during, ended, rfl, hstarted, hbody, hended⟩ := runs_bracket h
  rw [runs_log hstarted, runs_log hended]
  exact ⟨during, rfl, hbody⟩

theorem runs_metrics {handle : OperationMetrics}
    (h : Runs ((Decorator.metrics handle).around resource op body) as (some x)) :
    ∃ during, as = recordings (handle.begun resource op.label) ++
        (during ++ recordings (handle.ended resource op.label (succeeded x))) ∧
      Runs body during (some x) := by
  obtain ⟨begun, during, ended, rfl, hbegun, hbody, hended⟩ := runs_bracket h
  rw [runs_measure hbegun, runs_measure hended]
  exact ⟨during, rfl, hbody⟩

/-- The only acts of a retry layer of its own are its warnings, looks at the clock and sleeps. -/
theorem attempts_retry {policy : RetryPolicy} {T : Act I → Prop}
    (hwarned : ∀ attempt e delay,
      T (.signalled (.log ⟨.callRetried resource op attempt e delay, none⟩)))
    (hslept : ∀ d, T (.slept d)) (hlooked : ∀ m, T (.looked m))
    (h : Runs ((Decorator.retry policy).around resource op body) as (some x)) :
    Attempts T body as x :=
  attempts_of_retry hlooked hslept
    (fun attempt e delay => only_signal (hwarned attempt e delay) (only_done _)) h

end Decorator

/-! ### From one layer to the next -/

/-- The decorator may repeat calls. -/
def Decorator.Repeats : Decorator → Prop
  | .retry _ => True
  | _ => False

/-- What the calls of an operation came to that came back from where so many layers are left, in
order. -/
def outcomes (op : Operation) (depth : Nat) (vs : List Visit) : List (Option Error) :=
  (vs.filter fun v => v.operation = op ∧ v.layers.length = depth).map Visit.error

@[simp] theorem outcomes_nil (op : Operation) (depth : Nat) : outcomes op depth [] = [] := rfl

@[simp] theorem outcomes_append (op : Operation) (depth : Nat) (vs ws : List Visit) :
    outcomes op depth (vs ++ ws) = outcomes op depth vs ++ outcomes op depth ws := by
  rw [outcomes, List.filter_append, List.map_append]
  rfl

theorem outcomes_singleton {op : Operation} {depth : Nat} {v : Visit} :
    outcomes op depth [v] =
      if v.operation = op ∧ v.layers.length = depth then [v.error] else [] := by
  by_cases h : v.operation = op ∧ v.layers.length = depth
  · rw [if_pos h, outcomes, List.filter_cons_of_pos (by simpa using h)]
    rfl
  · rw [if_neg h, outcomes, List.filter_cons_of_neg (by simpa using h)]
    rfl

theorem outcomes_eq_nil {op : Operation} {depth : Nat} {vs : List Visit}
    (h : ∀ v ∈ vs, v.operation = op → v.layers.length ≠ depth) : outcomes op depth vs = [] := by
  rw [outcomes, List.map_eq_nil_iff, List.filter_eq_nil_iff]
  intro v hv hboth
  have hboth := of_decide_eq_true hboth
  exact h v hv hboth.1 hboth.2

/-- How the calls that a layer sees go on to the layer beneath. Each is passed on, and what it comes
to there it comes to. A decorator that repeats calls may have passed it on some times before, each
time to a failure that may pass. -/
inductive Nests (d : Decorator) : List (Option Error) → List (Option Error) → Prop where
  /-- No calls. -/
  | nil : Nests d [] []
  /-- A call is passed on for the last time. -/
  | passed {o : Option Error} {outer inner : List (Option Error)} (h : Nests d outer inner) :
      Nests d (o :: outer) (o :: inner)
  /-- A call is passed on, and will be again. -/
  | again {e : Error} {o : Option Error} {outer inner : List (Option Error)} (hd : d.Repeats)
      (he : e.isRetryable = true) (h : Nests d (o :: outer) inner) :
      Nests d (o :: outer) (some e :: inner)

namespace Nests

variable {d : Decorator} {outer inner outer' inner' : List (Option Error)}

theorem append (h : Nests d outer inner) (h' : Nests d outer' inner') :
    Nests d (outer ++ outer') (inner ++ inner') := by
  induction h with
  | nil => exact h'
  | passed _ ih => exact .passed ih
  | again hd he _ ih => exact .again hd he ih

/-- If calls are not repeated then the layer beneath sees the same. -/
theorem eq_of_not_repeats (h : Nests d outer inner) (hd : ¬ d.Repeats) : outer = inner := by
  induction h with
  | nil => rfl
  | passed _ ih => exact congrArg (_ :: ·) ih
  | again hrepeats => exact absurd hrepeats hd

end Nests

/-- The notes that are made while a call is in a layer: those of one call beneath it, or of several,
all but the last of which failed in a way that may pass. -/
inductive Rounds (d : Decorator) (R : List Visit → Except Error α → Prop) :
    List Visit → Except Error α → Prop where
  /-- The last call beneath. -/
  | last {vs : List Visit} {x : Except Error α} (h : R vs x) : Rounds d R vs x
  /-- A call beneath, and others after it. -/
  | again {vs rest : List Visit} {e : Error} {x : Except Error α} (hd : d.Repeats)
      (h : R vs (.error e)) (he : e.isRetryable = true) (hrest : Rounds d R rest x) :
      Rounds d R (vs ++ rest) x

theorem Rounds.ensured {d : Decorator} {R : List Visit → Except Error α → Prop}
    {T : List Visit → Prop} (hT : Accrues T) (hR : ∀ vs y, R vs y → T vs) {vs : List Visit}
    {x : Except Error α} (h : Rounds d R vs x) : T vs := by
  induction h with
  | last h => exact hR _ _ h
  | again _ h _ _ ih => exact hT.append (hR _ _ h) ih

/-- If each call beneath is seen as one, then they are seen as a call that is passed on. -/
theorem Rounds.nests {d : Decorator} {R : List Visit → Except Error α → Prop} {op : Operation}
    {depth : Nat} (hR : ∀ vs y, R vs y → outcomes op depth vs = [error? y]) {vs : List Visit}
    {x : Except Error α} (h : Rounds d R vs x) : Nests d [error? x] (outcomes op depth vs) := by
  induction h with
  | last h =>
    rw [hR _ _ h]
    exact .passed .nil
  | again hd h he _ ih =>
    rw [outcomes_append, hR _ _ h]
    exact .again hd he ih

/-- Whatever the decorator is, a call in its layer is one call beneath, or several. -/
theorem Decorator.rounds {d : Decorator} {resource : String} {op : Operation}
    {body : Program (noting I) (Except Error α)} {as : List (Act (noting I))} {x : Except Error α}
    (h : Runs (d.around resource op body) as (some x)) :
    Rounds d (fun vs y => ∃ during, Runs body during (some y) ∧ visits during = vs) (visits as)
      x := by
  cases d with
  | logging =>
    obtain ⟨during, rfl, hduring⟩ := runs_logging h
    refine .last ⟨during, hduring, ?_⟩
    rw [visits_append, visits_append]
    exact (List.append_nil _).symm
  | metrics handle =>
    obtain ⟨during, rfl, hduring⟩ := runs_metrics h
    refine .last ⟨during, hduring, ?_⟩
    rw [visits_append, visits_append, visits_recordings, visits_recordings, List.append_nil]
    rfl
  | retry policy =>
    have hattempts := attempts_retry (T := fun a => a.visit? = none) (fun _ _ _ => rfl)
      (fun _ => rfl) (fun _ => rfl) h
    have hidle {acts : List (Act (noting I))} (h : ∀ a ∈ acts, a.visit? = none) :
        visits acts = [] := List.filterMap_eq_nil_iff.2 h
    clear h
    induction hattempts with
    | succeeded hbefore hruns =>
      rw [visits_append, hidle hbefore, List.nil_append]
      exact .last ⟨_, hruns, rfl⟩
    | failed hbefore hruns hafter =>
      rw [visits_append, visits_append, hidle hbefore, hidle hafter, List.append_nil,
        List.nil_append]
      exact .last ⟨_, hruns, rfl⟩
    | again hbefore hruns he _ ih =>
      rw [visits_append, visits_append, hidle hbefore, List.nil_append]
      exact .again True.intro ⟨_, hruns, rfl⟩ he ih

/-! ### What the notes of a call through layers are -/

section Through

variable {resource : String} {op : Operation} {body : Program (noting I) (Except Error α)}

/-- What holds of the notes of the body, and of each note of a layer, holds of all of them. -/
theorem ensures_through {T : List Visit → Prop} (hT : Accrues T) {ds : List Decorator}
    (hown : ∀ below e, below <:+ ds → T [⟨below, resource, op, e⟩])
    (hbody : Ensures (fun as => T (visits as)) body) :
    Ensures (fun as => T (visits as)) (body.through resource op ds) := by
  induction ds with
  | nil =>
    intro as x h
    obtain ⟨before, rfl, hbefore⟩ := runs_reported h
    rw [visits_append]
    exact hT.append (hbody _ _ hbefore) (hown [] _ List.suffix_rfl)
  | cons d ds ih =>
    intro as x h
    obtain ⟨before, rfl, hbefore⟩ := runs_reported h
    have hbeneath := ih fun below e hbelow => hown below e (hbelow.trans (List.suffix_cons d ds))
    rw [visits_append]
    refine hT.append ?_ (hown (d :: ds) _ List.suffix_rfl)
    refine (Decorator.rounds hbefore).ensured hT fun vs y hvs => ?_
    obtain ⟨during, hruns, rfl⟩ := hvs
    exact hbeneath _ _ hruns

/-- At every layer the calls of the operation go on to the layer beneath. -/
def Layered (op : Operation) (ds : List Decorator) (vs : List Visit) : Prop :=
  ∀ d below, d :: below <:+ ds →
    Nests d (outcomes op (below.length + 1) vs) (outcomes op below.length vs)

theorem accrues_layered (op : Operation) (ds : List Decorator) : Accrues (Layered op ds) where
  nil _ _ _ := .nil
  append h h' d below hbelow := by
    rw [outcomes_append, outcomes_append]
    exact (h d below hbelow).append (h' d below hbelow)

/-- No note is about the operation. -/
def Without (op : Operation) (vs : List Visit) : Prop := ∀ v ∈ vs, v.operation ≠ op

theorem Without.outcomes_eq {vs : List Visit} (h : Without op vs) (depth : Nat) :
    outcomes op depth vs = [] :=
  outcomes_eq_nil fun v hv hop => absurd hop (h v hv)

theorem Without.layered {vs : List Visit} (h : Without op vs) (ds : List Decorator) :
    Layered op ds vs := by
  intro d below _
  rw [h.outcomes_eq, h.outcomes_eq]
  exact .nil

/-- A call through layers is one call at the outermost of them, and goes on from layer to layer. -/
theorem layered_through (hbody : Ensures (fun as => Without op (visits as)) body)
    {ds : List Decorator} {as : List (Act (noting I))} {x : Except Error α}
    (h : Runs (body.through resource op ds) as (some x)) :
    outcomes op ds.length (visits as) = [error? x] ∧ Layered op ds (visits as) := by
  induction ds generalizing as x with
  | nil =>
    obtain ⟨before, rfl, hbefore⟩ := runs_reported h
    refine ⟨?_, fun d below hbelow => absurd (List.suffix_nil.1 hbelow) (by simp)⟩
    rw [visits_append, outcomes_append, (hbody _ _ hbefore).outcomes_eq]
    simp [outcomes, visits, Act.visit?]
  | cons d ds ih =>
    obtain ⟨before, rfl, hbefore⟩ := runs_reported h
    have hrounds := Decorator.rounds hbefore
    -- What comes back while the call is in this layer comes back from beneath it.
    have hlower : ∀ v ∈ visits before, v.operation = op → v.layers.length ≠ ds.length + 1 := by
      refine hrounds.ensured (accrues_forall _) fun vs y hvs => ?_
      obtain ⟨during, hruns, rfl⟩ := hvs
      refine ensures_through
        (accrues_forall fun v => v.operation = op → v.layers.length ≠ ds.length + 1)
        (fun below e hbelow v hv _ => ?_)
        (fun as y hruns v hv hop => absurd hop (hbody as y hruns v hv)) _ _ hruns
      obtain rfl := List.mem_singleton.1 hv
      exact (Nat.lt_succ_of_le hbelow.length_le).ne
    have hinner : Nests d [error? x] (outcomes op ds.length (visits before)) := by
      refine hrounds.nests fun vs y hvs => ?_
      obtain ⟨during, hruns, rfl⟩ := hvs
      exact (ih hruns).1
    have hlayered : Layered op ds (visits before) := by
      refine hrounds.ensured (accrues_layered op ds) fun vs y hvs => ?_
      obtain ⟨during, hruns, rfl⟩ := hvs
      exact (ih hruns).2
    have hnote (depth : Nat) :
        outcomes op depth
            (visits (before ++ [.asked (.inr ⟨d :: ds, resource, op, error? x⟩) ()])) =
          outcomes op depth (visits before) ++
            if ds.length + 1 = depth then [error? x] else [] := by
      rw [visits_append, outcomes_append]
      refine congrArg (_ ++ ·) (outcomes_singleton.trans ?_)
      simp
    refine ⟨?_, fun d' below hbelow => ?_⟩
    · rw [List.length_cons, hnote, outcomes_eq_nil hlower, if_pos rfl, List.nil_append]
    · rw [hnote, hnote]
      rcases List.suffix_cons_iff.1 hbelow with heq | hbelow
      · cases heq
        rw [outcomes_eq_nil hlower, if_pos rfl, if_neg (by omega), List.nil_append, List.append_nil]
        exact hinner
      · have hlength : below.length + 1 ≤ ds.length := hbelow.length_le
        rw [if_neg (by omega), if_neg (by omega), List.append_nil, List.append_nil]
        exact hlayered d' below hbelow

/-- Layers that do not repeat calls see the same calls as what is beneath them. -/
theorem Layered.steady {ds above below : List Decorator} {vs : List Visit}
    (h : Layered op ds vs) (hds : above ++ below <:+ ds)
    (habove : ∀ d ∈ above, ¬ d.Repeats) :
    outcomes op (above ++ below).length vs = outcomes op below.length vs := by
  induction above with
  | nil => rfl
  | cons d above ih =>
    have hbeneath := ih ((List.suffix_cons d _).trans hds) fun d' hd' => habove d' (by simp [hd'])
    rw [← hbeneath]
    exact (h d (above ++ below) hds).eq_of_not_repeats (habove d (by simp))

end Through

/-! ### What the notes of a pass are -/

/-- The operation is a whole pass, and no call of a CRUD resource. -/
def Operation.isPass : Operation → Bool
  | .ensureCreated => true
  | .ensureDeleted => true
  | _ => false

theorem Pass.isPass_operation (pass : Pass) : pass.operation.isPass = true := by
  cases pass with
  | update => rfl
  | delete => rfl

theorem Call.isPass_operation (c : Call S C) : c.operation.isPass = false := by
  cases c with
  | getCurrent => rfl
  | getDesired => rfl
  | newPatch pass current desired => cases pass <;> rfl
  | apply slot c => cases slot <;> rfl

theorem Accrues.visits {T : List Visit → Prop} (hT : Accrues T) :
    Accrues fun as : List (Act (noting I)) => T (visits as) where
  nil := hT.nil
  append h h' := by
    rw [visits_append]
    exact hT.append h h'

/-- What every call ensures the pass ensures. -/
theorem Ops.ensures_reconcile {T : List (Act I) → Prop} (hT : Accrues T) {ops : Ops I K S C} {k : K}
    (h : ∀ call, Ensures T (ops.perform call k)) (pass : Pass) :
    Ensures T (ops.reconcile pass k) := by
  refine (h _).andThen hT fun _ => (h _).andThen hT fun _ => (h _).andThen hT fun _ => ?_
  refine ensures_sequence hT fun p hp => ?_
  obtain ⟨c, -, rfl⟩ := List.mem_map.1 hp
  exact h _

namespace Stack

variable (s : Stack I K P ι) (reg : Registry I K P ι) (pass : Pass) (k : K)

/-- What stands around an operation. -/
def around (op : Operation) : List Decorator := if op.isPass then s.layers else s.calls

variable {s} in
theorem around_pass {op : Operation} (h : op.isPass = true) : s.around op = s.layers := if_pos h

variable {s} in
theorem around_call {op : Operation} (h : op.isPass = false) : s.around op = s.calls := by
  rw [around, h]
  rfl

/-- What every call of the resource beneath ensures, its pass ensures. -/
theorem ensures_notedCore {T : List Visit → Prop} (hT : Accrues T)
    (h : ∀ c, s.base = .crud c → ∀ call, Ensures (fun as => T (visits as))
      ((c.ops.perform call k).noteless.through c.ops.name call.operation s.calls)) :
    Ensures (fun as => T (visits as)) (s.notedCore reg pass k) := by
  rcases s with ⟨i | ⟨d, inner⟩ | c, calls, layers⟩
  · exact ensures_noteless hT.nil _
  · exact ensures_noteless hT.nil _
  · exact Ops.ensures_reconcile hT.visits (h c rfl) pass

/-- A call that is made of the resource beneath, through the layers around its calls, has none of
the notes of a pass. -/
theorem ensures_without_pass {op : Operation} (hop : op.isPass = true) :
    Ensures (fun as => Without op (visits as)) (s.notedCore reg pass k) := by
  have hT : Accrues (Without op) := accrues_forall _
  refine s.ensures_notedCore reg pass k hT fun c _ call => ?_
  refine ensures_through hT (fun below e _ v hv => ?_) (ensures_noteless hT.nil _)
  obtain rfl := List.mem_singleton.1 hv
  rintro rfl
  exact absurd hop (by simp [Call.isPass_operation])

/-- A note is about the resource, and about a layer that stands around the operation. -/
def Places (name : String) (v : Visit) : Prop :=
  v.resource = name ∧ v.layers <:+ s.around v.operation

theorem ensures_placed :
    Ensures (fun as => ∀ v ∈ visits as, s.Places (reg.name s.base) v) (s.noted reg pass k) := by
  have hT : Accrues fun vs => ∀ v ∈ vs, s.Places (reg.name s.base) v := accrues_forall _
  refine ensures_through hT (fun below e hbelow v hv => ?_) ?_
  · obtain rfl := List.mem_singleton.1 hv
    exact ⟨rfl, by rwa [around_pass pass.isPass_operation]⟩
  refine s.ensures_notedCore reg pass k hT fun c hc call => ?_
  have hbody : Ensures (fun as => ∀ v ∈ visits as, s.Places (reg.name s.base) v)
      (c.ops.perform call k).noteless :=
    ensures_noteless (T := fun vs => ∀ v ∈ vs, s.Places (reg.name s.base) v) hT.nil _
  refine ensures_through hT (fun below e hbelow v hv => ?_) hbody
  obtain rfl := List.mem_singleton.1 hv
  exact ⟨by rw [hc]; rfl, by rwa [around_call call.isPass_operation]⟩

theorem ensures_layered (op : Operation) :
    Ensures (fun as => Layered op (s.around op) (visits as)) (s.noted reg pass k) := by
  have hother {op' : Operation} (h : op' ≠ op) (resource : String) (below : List Decorator)
      (e : Option Error) : Without op [⟨below, resource, op', e⟩] := by
    intro v hv
    obtain rfl := List.mem_singleton.1 hv
    exact h
  cases hop : op.isPass with
  | true =>
    have hcore := s.ensures_without_pass reg pass k hop
    rw [around_pass hop]
    by_cases hpass : pass.operation = op
    · subst hpass
      exact fun as x hruns => (layered_through hcore hruns).2
    · have hwithout : Ensures (fun as => Without op (visits as)) (s.noted reg pass k) :=
        ensures_through (accrues_forall _) (fun below e _ => hother hpass _ below e) hcore
      exact fun as x hruns => (hwithout as x hruns).layered _
  | false =>
    have hT := accrues_layered op s.calls
    have hpass : pass.operation ≠ op := by
      rintro rfl
      exact absurd hop (by simp [Pass.isPass_operation])
    rw [around_call hop]
    refine ensures_through hT (fun below e _ => (hother hpass _ below e).layered _) ?_
    refine s.ensures_notedCore reg pass k hT fun c _ call => ?_
    have hbody : Ensures (fun as => Without op (visits as)) (c.ops.perform call k).noteless :=
      ensures_noteless (accrues_forall _).nil _
    by_cases hcall : call.operation = op
    · subst hcall
      exact fun as x hruns => (layered_through hbody hruns).2
    · have hwithout := ensures_through (accrues_forall _)
        (fun below e (_ : below <:+ s.calls) => hother hcall c.ops.name below e) hbody
      exact fun as x hruns => Without.layered (hwithout as x hruns) _

end Stack

end Reconciler
