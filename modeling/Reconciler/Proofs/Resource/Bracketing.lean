import Reconciler.Proofs.Resource.Accounting
import Reconciler.Proofs.Resource.Signed

/-!
# What logging layers log

A logging layer logs when a call begins and when it ends, and between the two entries stands
whatever the layers beneath log while the call is in them. So the entries of all logging layers form
brackets that are nested as the layers are. A layer that repeats calls makes several brackets of the
layers beneath it follow one another; a pass that is given up has fewer brackets, but none that is
left open. A retry layer warns within the brackets of the logging layers around it.

The grammar of such logs (`Stack.Bracketed`) is about everything that is signalled, with its
signature, and about every call that comes back. It is carried through the layers by induction, from
the outermost to the resource itself, with the brackets that are open as its context.

## Main definitions

* `Mark`, `marks` : who signalled what, and which calls came back
* `Bracket` : a call in a logging layer, with what it logs
* `Stack.Inside` : which brackets are open where
* `Stack.Bracketed` : the grammar

## Main results

* `Bracketed.append` : one log after another
* `ensures_bracketed_throughSigned` : a call through layers
* `Registry.Decorated.log_bracketed` : a pass of a decorated resource
-/

namespace Reconciler

open Program

variable {I : Interface} {K S C P ι α : Type}

/-! ### What there is to see of a run -/

/-- A signal with its signature, or a call that came back. -/
inductive Mark where
  /-- The layer signalled something. -/
  | said (layers : List Decorator) (s : Signal)
  /-- A call came back. -/
  | back (v : Visit)

/-- What there is to see of the act. -/
def Program.Act.mark? : Act (noting (signing I)) → Option Mark
  | .asked (.inl (.inr (layers, s))) _ => some (.said layers s)
  | .asked (.inr v) _ => some (.back v)
  | _ => none

/-- What there is to see of a run. -/
def marks (as : List (Act (noting (signing I)))) : List Mark := as.filterMap Act.mark?

@[simp] theorem marks_append (as bs : List (Act (noting (signing I)))) :
    marks (as ++ bs) = marks as ++ marks bs :=
  List.filterMap_append

/-- What a run signalled. -/
def signals (as : List (Act I)) : List Signal :=
  as.filterMap fun
    | .signalled s => some s
    | _ => none

/-- The signal, without its signature. -/
def Mark.signal? : Mark → Option Signal
  | .said _ s => some s
  | .back _ => none

/-- If everything is signed then all that is signalled can be seen. -/
theorem AllSigned.signals_eq {as : List (Act (noting (signing I)))} (h : AllSigned as) :
    signals (unsigned as) = (marks as).filterMap Mark.signal? := by
  rw [signals, unsigned, plain, marks, List.filterMap_map, List.filterMap_filterMap,
    List.filterMap_filterMap]
  refine List.filterMap_congr fun a ha => ?_
  have hsigned := h a ha []
  rcases a with s | d | m | ⟨(q | signature) | v, rep⟩
  · cases hsigned
  · rfl
  · rfl
  · rfl
  · rfl
  · rfl

/-- Not from a logging layer, and not signalled by a retry layer. -/
def Mark.IsAside : Mark → Prop
  | .said (.logging :: _) _ => False
  | .said (.retry _ :: _) _ => False
  | .back ⟨.logging :: _, _, _, _⟩ => False
  | _ => True

/-! ### Brackets -/

/-- A call of an operation in a logging layer. -/
structure Bracket where
  /-- The layers beneath the logging layer. -/
  below : List Decorator
  /-- What was called. -/
  operation : Operation

namespace Bracket

/-- The logging layer and those beneath it. -/
def layers (b : Bracket) : List Decorator := .logging :: b.below

/-- The event says that a call began. -/
structure Opens (b : Bracket) (name : String) (event : LogEvent) : Prop where
  message : event.message = "Operation started"
  fields : event.fields = [("resource", .text name), ("operation", .text b.operation.label)]

/-- The event says that a call ended: that it failed, with the text of the error, if it did. -/
structure Closes (b : Bracket) (name : String) (error : Option Error) (event : LogEvent) :
    Prop where
  message : event.message = if error.isSome then "Operation failed" else "Operation finished"
  fields : event.fields = [("resource", .text name), ("operation", .text b.operation.label)] ++
    error.toList.map fun e => ("error", .text e.message)

variable (b : Bracket) (name : String)

theorem opens_callStarted : b.Opens name (.callStarted name b.operation) := ⟨rfl, rfl⟩

theorem closes_outcome (x : Except Error α) :
    b.Closes name (error? x) (Decorator.outcome name b.operation x) := by
  cases x with
  | ok a => exact ⟨rfl, rfl⟩
  | error e => exact ⟨rfl, rfl⟩

end Bracket

/-- The event says that a call failed and is repeated. -/
structure LogEvent.Warns (event : LogEvent) (name : String) (op : Operation) : Prop where
  message : event.message = "Operation failed, retrying"
  resource : ("resource", .text name) ∈ event.fields
  operation : ("operation", .text op.label) ∈ event.fields

theorem LogEvent.warns_callRetried (name : String) (op : Operation) (attempt : UInt32) (e : Error)
    (delay : Duration) : (callRetried name op attempt e delay).Warns name op :=
  ⟨rfl, by simp [fields], by simp [fields]⟩

/-! ### Which brackets are open -/

namespace Stack

/-- The bracket is that of a logging layer around the operation, further out than the layers; or it
is one of a logging layer around the pass that the operation is called in. -/
def Outside (s : Stack I K P ι) (pass : Pass) (op : Operation) (layers : List Decorator)
    (b : Bracket) : Prop :=
  (b.operation = op ∧ b.layers <:+ s.around op ∧ layers.length < b.layers.length) ∨
    (op.isPass = false ∧ b.operation = pass.operation ∧ b.layers <:+ s.layers)

/-- The layers stand around the operation, and the brackets that are open are those of all the
logging layers outside. -/
structure Inside (s : Stack I K P ι) (pass : Pass) (op : Operation) (layers : List Decorator)
    (opened : List Bracket) : Prop where
  suffix : layers <:+ s.around op
  mem_iff : ∀ b, b ∈ opened ↔ s.Outside pass op layers b

variable {s : Stack I K P ι} {pass : Pass} {op : Operation} {d : Decorator} {ds : List Decorator}
  {opened : List Bracket}

/-- What is outside of the layers beneath one layer is that layer, or outside of it. -/
theorem outside_iff (h : d :: ds <:+ s.around op) (b : Bracket) :
    s.Outside pass op ds b ↔
      (b.operation = op ∧ b.layers = d :: ds) ∨ s.Outside pass op (d :: ds) b := by
  constructor
  · rintro (⟨hop, hsuffix, hlength⟩ | hpass)
    · rcases Nat.lt_or_ge (d :: ds).length b.layers.length with hlt | hge
      · exact .inr (.inl ⟨hop, hsuffix, hlt⟩)
      · have heq : b.layers.length = (d :: ds).length := Nat.le_antisymm hge hlength
        have hboth := List.suffix_of_suffix_length_le hsuffix h hge
        exact .inl ⟨hop, hboth.eq_of_length heq⟩
    · exact .inr (.inr hpass)
  · rintro (⟨hop, hlayers⟩ | ⟨hop, hsuffix, hlength⟩ | hpass)
    · refine .inl ⟨hop, ?_, ?_⟩
      · rwa [hlayers]
      · rw [hlayers]
        exact Nat.lt_succ_self _
    · exact .inl ⟨hop, hsuffix, Nat.lt_of_succ_lt hlength⟩
    · exact .inr hpass

namespace Inside

/-- Nothing is open outside of all layers. -/
theorem outermost (s : Stack I K P ι) (pass : Pass) : s.Inside pass pass.operation s.layers [] where
  suffix := by rw [around_pass pass.isPass_operation]
  mem_iff b := by
    constructor
    · intro h
      cases h
    · rintro (⟨-, hsuffix, hlength⟩ | ⟨hop, -⟩)
      · rw [around_pass pass.isPass_operation] at hsuffix
        exact absurd hsuffix.length_le (Nat.not_le_of_lt hlength)
      · rw [pass.isPass_operation] at hop
        cases hop

/-- A logging layer opens a bracket around the layers beneath it. -/
theorem logging (h : s.Inside pass op (.logging :: ds) opened) :
    s.Inside pass op ds (⟨ds, op⟩ :: opened) where
  suffix := (List.suffix_cons _ ds).trans h.suffix
  mem_iff b := by
    rw [outside_iff h.suffix, List.mem_cons, h.mem_iff]
    refine or_congr_left ⟨?_, ?_⟩
    · rintro rfl
      exact ⟨rfl, rfl⟩
    · rintro ⟨rfl, hlayers⟩
      obtain ⟨below, operation⟩ := b
      cases hlayers
      rfl

/-- No other layer does. -/
theorem beneath (h : s.Inside pass op (d :: ds) opened) (hd : d ≠ .logging) :
    s.Inside pass op ds opened where
  suffix := (List.suffix_cons _ ds).trans h.suffix
  mem_iff b := by
    rw [outside_iff h.suffix, h.mem_iff]
    refine ⟨.inr, ?_⟩
    rintro (⟨-, hlayers⟩ | houtside)
    · exact absurd (List.cons.inj hlayers).1.symm hd
    · exact houtside

/-- Outside of the layers around a call those around the pass are open. -/
theorem call (h : s.Inside pass pass.operation [] opened) (hop : op.isPass = false) :
    s.Inside pass op s.calls opened where
  suffix := by rw [around_call hop]
  mem_iff b := by
    rw [h.mem_iff]
    constructor
    · rintro (⟨hb, hsuffix, -⟩ | ⟨hpass, -⟩)
      · rw [around_pass pass.isPass_operation] at hsuffix
        exact .inr ⟨hop, hb, hsuffix⟩
      · rw [pass.isPass_operation] at hpass
        cases hpass
    · rintro (⟨-, hsuffix, hlength⟩ | ⟨-, hb, hsuffix⟩)
      · rw [around_call hop] at hsuffix
        exact absurd hsuffix.length_le (Nat.not_le_of_lt hlength)
      · refine .inl ⟨hb, ?_, Nat.succ_pos _⟩
        rwa [around_pass pass.isPass_operation]

end Inside

/-! ### The grammar -/

/-- The log of a pass, within brackets that are open. Every bracket is closed, around a log within
it, when the call comes back; it is closed as the call came back. No logging layer logs anything
else. The brackets that are open where a bracket opens, or where a retry layer warns, are those of
the logging layers outside. -/
inductive Bracketed (s : Stack I K P ι) (name : String) (pass : Pass) :
    List Bracket → List Mark → Prop where
  /-- Nothing is logged. -/
  | nil {opened : List Bracket} : Bracketed s name pass opened []
  /-- A call in a logging layer, and what follows it. -/
  | bracket {opened : List Bracket} {b : Bracket} {opening closing : LogEvent}
      {error : Option Error} {during rest : List Mark}
      (hinside : s.Inside pass b.operation b.layers opened) (hopens : b.Opens name opening)
      (hduring : Bracketed s name pass (b :: opened) during)
      (hcloses : b.Closes name error closing) (hrest : Bracketed s name pass opened rest) :
      Bracketed s name pass opened
        (.said b.layers (.log ⟨opening, none⟩) ::
          (during ++ .said b.layers (.log ⟨closing, none⟩) ::
            .back ⟨b.layers, name, b.operation, error⟩ :: rest))
  /-- A retry layer warns. -/
  | warning {opened : List Bracket} {policy : RetryPolicy} {below : List Decorator}
      {op : Operation} {event : LogEvent} {rest : List Mark}
      (hinside : s.Inside pass op (.retry policy :: below) opened) (hwarns : event.Warns name op)
      (hrest : Bracketed s name pass opened rest) :
      Bracketed s name pass opened (.said (.retry policy :: below) (.log ⟨event, none⟩) :: rest)
  /-- Something else. -/
  | aside {opened : List Bracket} {m : Mark} {rest : List Mark} (hm : m.IsAside)
      (hrest : Bracketed s name pass opened rest) : Bracketed s name pass opened (m :: rest)

variable {name : String}

theorem Bracketed.append {ms ms' : List Mark} (h : s.Bracketed name pass opened ms)
    (h' : s.Bracketed name pass opened ms') : s.Bracketed name pass opened (ms ++ ms') := by
  induction h with
  | nil => exact h'
  | bracket hinside hopens hduring hcloses _ _ ihrest =>
    rw [List.cons_append, List.append_assoc]
    exact .bracket hinside hopens hduring hcloses (ihrest h')
  | warning hinside hwarns _ ih => exact .warning hinside hwarns (ih h')
  | aside hm _ ih => exact .aside hm (ih h')

theorem accrues_bracketed (s : Stack I K P ι) (name : String) (pass : Pass)
    (opened : List Bracket) : Accrues (s.Bracketed name pass opened) :=
  ⟨.nil, .append⟩

theorem bracketed_of_isAside {ms : List Mark} (h : ∀ m ∈ ms, m.IsAside) :
    s.Bracketed name pass opened ms :=
  (accrues_bracketed s name pass opened).of_forall fun m hm => .aside (h m hm) .nil

end Stack

/-! ### From layer to layer -/

theorem Accrues.marks {T : List Mark → Prop} (hT : Accrues T) :
    Accrues fun as : List (Act (noting (signing I))) => T (marks as) where
  nil := hT.nil
  append h h' := by
    rw [marks_append]
    exact hT.append h h'

theorem marks_sign_recordings (layers : List Decorator) (ms : List Measurement) :
    marks ((recordings ms).map (Act.sign (I := I) layers)) =
      ms.map fun m => .said layers (.measure m) := by
  rw [recordings, List.map_map, marks, List.filterMap_map]
  exact congrFun (List.filterMap_eq_map (f := fun m => Mark.said layers (.measure m))) ms

section Through

variable {s : Stack I K P ι} {name : String} {pass : Pass} {op : Operation} {ds : List Decorator}
  {opened : List Bracket} {body : Program (noting (signing I)) (Except Error α)}

/-- A call of the resource itself is signed with no layers, so it opens no bracket. -/
theorem ensures_bracketed_beneath (opened : List Bracket) (p : Program I α) :
    Ensures (fun as => s.Bracketed name pass opened (marks as)) p.beneath := by
  intro as a h
  obtain ⟨as, hruns, rfl⟩ := runs_signed h
  obtain ⟨as, -, rfl⟩ := Runs.of_interpret_ask (J := noting (signing I)) (fun q => .inl (.inl q))
    (fun _ rep => rep) (fun _ rep => rep) (fun _ _ => rfl) hruns
  refine Stack.bracketed_of_isAside fun m hm => ?_
  rw [marks, List.map_map, List.filterMap_map] at hm
  obtain ⟨a, -, hm⟩ := List.mem_filterMap.1 hm
  cases a with
  | signalled signal =>
    obtain rfl : .said [] signal = m := Option.some.inj hm
    trivial
  | _ => cases hm

/-- A call in a logging layer is a bracket. -/
theorem bracketed_logging {p : Program (noting (signing I)) (Except Error α)}
    (hsigned : Ensures AllSigned p) (hinside : s.Inside pass op (.logging :: ds) opened)
    (hp : Ensures (fun as => s.Bracketed name pass (⟨ds, op⟩ :: opened) (marks as)) p) :
    Ensures (fun as => s.Bracketed name pass opened (marks as))
      (aroundSigned .logging ds name op p) := by
  intro as x h
  obtain ⟨acts, hacts, rfl⟩ := runs_aroundSigned h
  obtain ⟨during, rfl, hduring⟩ := Decorator.runs_logging hacts
  rw [List.map_append, List.map_append, (hsigned during x hduring).map_sign]
  simp only [marks_append, List.append_assoc]
  exact .bracket (b := ⟨ds, op⟩) hinside (Bracket.opens_callStarted _ name) (hp during x hduring)
    (Bracket.closes_outcome _ name x) .nil

/-- A metrics layer logs nothing. -/
theorem bracketed_metrics {handle : OperationMetrics}
    {p : Program (noting (signing I)) (Except Error α)} (hsigned : Ensures AllSigned p)
    (hp : Ensures (fun as => s.Bracketed name pass opened (marks as)) p) :
    Ensures (fun as => s.Bracketed name pass opened (marks as))
      (aroundSigned (.metrics handle) ds name op p) := by
  have haside (ms : List Measurement) : s.Bracketed name pass opened
      (marks ((recordings ms).map (Act.sign (I := I) (.metrics handle :: ds)))) := by
    rw [marks_sign_recordings]
    refine Stack.bracketed_of_isAside fun m hm => ?_
    obtain ⟨m, -, rfl⟩ := List.mem_map.1 hm
    trivial
  intro as x h
  obtain ⟨acts, hacts, rfl⟩ := runs_aroundSigned h
  obtain ⟨during, rfl, hduring⟩ := Decorator.runs_metrics hacts
  rw [List.map_append, List.map_append, (hsigned during x hduring).map_sign]
  simp only [marks_append]
  exact ((haside _).append ((hp during x hduring).append (haside _))).append (.aside trivial .nil)

/-- A retry layer logs its warnings between the calls beneath it. -/
theorem bracketed_retry {policy : RetryPolicy}
    {p : Program (noting (signing I)) (Except Error α)} (hsigned : Ensures AllSigned p)
    (hinside : s.Inside pass op (.retry policy :: ds) opened)
    (hp : Ensures (fun as => s.Bracketed name pass opened (marks as)) p) :
    Ensures (fun as => s.Bracketed name pass opened (marks as))
      (aroundSigned (.retry policy) ds name op p) := by
  let T (as : List (Act (noting (signing I)))) : Prop :=
    s.Bracketed name pass opened (marks (as.map (Act.sign (.retry policy :: ds))))
  have hT : Accrues T := by
    refine ⟨.nil, fun {as bs} has hbs => ?_⟩
    change s.Bracketed name pass opened (marks ((as ++ bs).map _))
    rw [List.map_append, marks_append]
    exact has.append hbs
  have hcalls : Ensures T p := by
    intro during y hduring
    change s.Bracketed name pass opened (marks (during.map _))
    rw [(hsigned during y hduring).map_sign]
    exact hp during y hduring
  have hwarned (attempt : UInt32) (e : Error) (delay : Duration) :
      T [.signalled (.log ⟨.callRetried name op attempt e delay, none⟩)] :=
    .warning hinside (LogEvent.warns_callRetried name op attempt e delay) .nil
  intro as x h
  obtain ⟨acts, hacts, rfl⟩ := runs_aroundSigned h
  have hattempts := Decorator.attempts_retry (T := fun a => T [a]) hwarned (fun _ => .nil)
    (fun _ => .nil) hacts
  rw [marks_append]
  exact (hattempts.ensured hT hcalls).append (.aside trivial .nil)

/-- A call through layers, within the brackets of the logging layers outside of them. -/
theorem ensures_bracketed_throughSigned (hsigned : Ensures AllSigned body)
    (hbody : ∀ opened, s.Inside pass op [] opened →
      Ensures (fun as => s.Bracketed name pass opened (marks as)) body)
    (hinside : s.Inside pass op ds opened) :
    Ensures (fun as => s.Bracketed name pass opened (marks as))
      (body.throughSigned name op ds) := by
  induction ds generalizing opened with
  | nil =>
    intro as x h
    obtain ⟨before, rfl, hbefore⟩ := runs_reported h
    rw [marks_append]
    exact (hbody opened hinside before x hbefore).append (.aside trivial .nil)
  | cons d ds ih =>
    have hbeneath : Ensures AllSigned (body.throughSigned name op ds) :=
      ensures_allSigned_throughSigned hsigned ds
    cases d with
    | logging => exact bracketed_logging hbeneath hinside (ih hinside.logging)
    | metrics handle => exact bracketed_metrics hbeneath (ih (hinside.beneath (by simp)))
    | retry policy => exact bracketed_retry hbeneath hinside (ih (hinside.beneath (by simp)))

end Through

theorem Stack.ensures_bracketed (s : Stack I K P ι) (reg : Registry I K P ι) (pass : Pass)
    (k : K) :
    Ensures (fun as => s.Bracketed (reg.name s.base) pass [] (marks as)) (s.signed reg pass k) := by
  refine ensures_bracketed_throughSigned (s.ensures_allSigned_signedCore reg pass k)
    (fun opened hopened => ?_) (Inside.outermost s pass)
  rcases s with ⟨i | ⟨d, inner⟩ | c, calls, layers⟩
  · exact ensures_bracketed_beneath opened _
  · exact ensures_bracketed_beneath opened _
  · refine Ops.ensures_reconcile (accrues_bracketed _ _ pass opened).marks (fun call => ?_) pass
    exact ensures_bracketed_throughSigned (ensures_allSigned_signed [] _)
      (fun opened _ => ensures_bracketed_beneath opened _) (hopened.call call.isPass_operation)

/-! ### A pass of a decorated resource -/

/-- A decorated resource is a stack of decorators, and its passes are those of the stack without
notes and signatures, so that every pass that has come to its end is a run of the stack. However
such a run went, all that it signalled is signed, and its log consists of brackets: one for every
call that came back from a logging layer, around the log of the layers beneath it. -/
theorem Registry.Decorated.log_bracketed {reg : Registry I K P ι} {s : Stack I K P ι}
    {r : Resource I K P ι} (h : reg.Decorated s r) (pass : Pass) (k : K) :
    (s.signed reg pass k).bare = reg.ensure pass r k ∧
      (∀ as x, Runs (reg.ensure pass r k) as (some x) →
        ∃ bs, Runs (s.signed reg pass k) bs (some x) ∧ unsigned bs = as) ∧
      ∀ bs x, Runs (s.signed reg pass k) bs (some x) →
        signals (unsigned bs) = (marks bs).filterMap Mark.signal? ∧
          s.Bracketed (reg.name r) pass [] (marks bs) := by
  obtain rfl := h.resource_eq
  refine ⟨s.bare_signed reg pass k, fun as x hruns => ?_, fun bs x hruns => ⟨?_, ?_⟩⟩
  · rw [← s.bare_signed] at hruns
    exact exists_run_of_bare hruns
  · exact (s.ensures_allSigned reg pass k bs x hruns).signals_eq
  · have hname : reg.name s.resource = reg.name s.base :=
      (reg.name_foldr_layer s.layers s.core).trans (s.name_core reg)
    rw [hname]
    exact s.ensures_bracketed reg pass k bs x hruns

/-! ### A flag that is logged twice -/

namespace Registry

/-- A flag whose calls are logged and retried once, and whose passes are logged as well. -/
def flagLogged : Stack flagpole Unit (Bool ⊕ Bool) Empty where
  base := .crud flagCrud
  calls := [.retry ⟨.capped .zero 1 0, 2⟩, .logging]
  layers := [.logging]

theorem decorated_flagLogged : flagRegistry.Decorated flagLogged flagLogged.resource := by
  have hlogged := (Decorated.base (.crud flagCrud)).wrapOne
    (wrapOne_crud flagRegistry .logging _)
  have hretried := hlogged.wrapOne (wrapOne_crud flagRegistry (.retry ⟨.capped .zero 1 0, 2⟩) _)
  exact hretried.layer

/-- An update pass over it, if it is down and cannot be put up at once. -/
def flagLog : List (Act flagpole) :=
  ((flagRegistry.ensure .update flagLogged.resource ()).perform stuck default false).1.map Prod.fst

/-- The messages of the pass, one after the other; with signatures all that it signalled stands in
brackets. -/
theorem log_bracketed_flagLog :
    (signals flagLog).filterMap (fun
        | .log entry => some entry.event.message
        | .measure _ => none) =
      ["Operation started",
        "Operation started", "Operation finished",
        "Operation started", "Operation finished",
        "Operation started", "Operation finished",
        "Operation started", "Operation failed",
        "Operation failed, retrying",
        "Operation started", "Operation finished",
      "Operation finished"] ∧
      ∃ ms : List Mark, signals flagLog = ms.filterMap Mark.signal? ∧
        flagLogged.Bracketed "flag" .update [] ms := by
  obtain ⟨-, hexists, hall⟩ := decorated_flagLogged.log_bracketed .update ()
  have hruns : Runs (flagRegistry.ensure .update flagLogged.resource ()) flagLog
      (some (.ok ())) := runs_perform stuck default _ false
  obtain ⟨bs, hbs, hunsigned⟩ := hexists flagLog (.ok ()) hruns
  obtain ⟨hsignals, hbracketed⟩ := hall bs (.ok ()) hbs
  rw [hunsigned] at hsignals
  exact ⟨rfl, marks bs, hsignals, hbracketed⟩

end Registry

end Reconciler
