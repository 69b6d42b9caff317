import Mathlib.Logic.Relation
import Reconciler.Proofs.Controller.Pass

/-!
# Runs of a controller

A controller takes one item after the other from the streams of its informer and runs a pass over
it. Meanwhile the informer goes on sending, and others write to the server. A `Boot` is a controller
at work together with the streams and the stored objects; one step is one item sent, one act of the
running pass, or one foreign write, so passes, sends and writes interleave in every way. The
informer may send whatever it likes, in any order.

The server keeps its contract: a read of an object that is not stored fails as not found, and a
write is a compare and swap on the version. Every request may fail for other reasons.

An update may reach the controller late: after the delete pass of the same object, because deletions
overtake updates. Whether its pass still creates something depends on the finalizer alone. If the
object is gone, the server cannot settle the finalizer any more; but a copy that carries it settles
it without asking, and such a copy is what an update of a live object usually is.

## Main definitions

* `Answers`, `Allows` : the contract of the server
* `Boot`, `Boot.Step`, `Boot.Reachable` : a controller at work
* `Controller.Late` : a pass over an update that was overtaken by its deletion

## Main results

* `Boot.Reachable.runs` : every pass in a run is a run of its program
* `Boot.late_asksResource_iff` : which late passes reach the resources
* `Boot.created_after_deletion` : a run in which one does
-/

namespace Reconciler

open Program (Act Runs)

variable {I : Interface} {β P ι α : Type}

/-- What the server keeps, by object key. -/
abbrev Stored (β : Type) : Type := String → Option (Object β)

/-- A copy at another version. -/
def Object.atVersion (o : Object β) (version : String) : Object β :=
  { o with metadata := { o.metadata with resourceVersion := some version } }

/-- The contract of the server: what it may answer, and what it keeps then. -/
inductive Answers (stored : Stored β) :
    ObjectRequest β → Except Error (Object β) → Stored β → Prop where
  /-- A read of a stored object. -/
  | found {ns : Option String} {name : String} {o : Object β}
      (h : stored (objectKey ns name) = some o) : Answers stored (.get ns name) (.ok o) stored
  /-- A read of an object that is not stored. -/
  | missing {ns : Option String} {name : String} {e : Error}
      (h : stored (objectKey ns name) = none) (he : e.isNotFound = true) :
      Answers stored (.get ns name) (.error e) stored
  /-- A write over the version it was made from. -/
  | swapped {o old : Object β} (h : stored o.key = some old) (hversion : old.version = o.version)
      (version : String) : Answers stored (.replace o) (.ok (o.atVersion version))
        fun k => if k = o.key then some (o.atVersion version) else stored k
  /-- A write over anything else. -/
  | refused {o : Object β} (h : ∀ old, stored o.key = some old → old.version ≠ o.version)
      {e : Error} (he : e.isConflict = true ∨ e.isNotFound = true) :
      Answers stored (.replace o) (.error e) stored
  /-- A failure that says nothing about the object. -/
  | fault (q : ObjectRequest β) {e : Error} (he : e.isNotFound = false) :
      Answers stored q (.error e) stored

/-- The acts of a controller that the contract of the server allows. Whatever else is asked may be
answered in any way. -/
inductive Allows (stored : Stored β) : Act (controllerInterface I β) → Stored β → Prop where
  /-- A question about a stored object. -/
  | object {q : ObjectRequest β} {rep : Except Error (Object β)} {stored' : Stored β}
      (h : Answers stored q rep stored') : Allows stored (.asked (.object q) rep) stored'
  /-- A question of a resource. -/
  | resource (q : I.Request) (rep : I.Reply q) : Allows stored (.asked (.resource q) rep) stored
  /-- A failure is recorded. -/
  | publish (ref : ObjectReference) (f : Failure) :
      Allows stored (.asked (.publish ref f) ()) stored
  /-- A log entry or a measurement. -/
  | signalled (s : Signal) : Allows stored (.signalled s) stored
  /-- A sleep. -/
  | slept (d : Duration) : Allows stored (.slept d) stored
  /-- A look at the clock. -/
  | looked (m : Moment) : Allows stored (.looked m) stored

/-- A server that never fails: versions grow by a letter. -/
def serverAnswer (stored : Stored β) : ObjectRequest β → Except Error (Object β) × Stored β
  | .get ns name =>
    match stored (objectKey ns name) with
    | some o => (.ok o, stored)
    | none => (.error (.notFound (objectKey ns name)), stored)
  | .replace o =>
    match stored o.key with
    | none => (.error (.notFound o.key), stored)
    | some old =>
      if old.version = o.version then
        (.ok (o.atVersion (o.version ++ "i")),
          fun k => if k = o.key then some (o.atVersion (o.version ++ "i")) else stored k)
      else (.error (.conflict o.key), stored)

/-- It keeps the contract. -/
theorem answers_serverAnswer (stored : Stored β) (q : ObjectRequest β) :
    Answers stored q (serverAnswer stored q).1 (serverAnswer stored q).2 := by
  cases q with
  | get ns name =>
    rw [serverAnswer]
    cases h : stored (objectKey ns name) with
    | some o => exact .found h
    | none => exact .missing h rfl
  | replace o =>
    rw [serverAnswer]
    cases h : stored o.key with
    | none => exact .refused (by simp [h]) (.inr rfl)
    | some old =>
      by_cases hversion : old.version = o.version
      · simp only [if_pos hversion]
        exact .swapped h hversion _
      · simp only [if_neg hversion]
        refine .refused ?_ (.inl rfl)
        rintro old' hold'
        rw [h] at hold'
        cases hold'
        exact hversion

/-- That server, and resources whose questions are answered by a function. -/
def surroundings (resource : (q : I.Request) → I.Reply q) (q : (controllerInterface I β).Request)
    (stored : Stored β) : (controllerInterface I β).Reply q × Stored β :=
  match q with
  | .object q => serverAnswer stored q
  | .resource q => (resource q, stored)
  | .publish _ _ => ((), stored)

theorem allows_surroundings (resource : (q : I.Request) → I.Reply q)
    (q : (controllerInterface I β).Request) (stored : Stored β) :
    Allows stored (.asked q (surroundings resource q stored).1)
      (surroundings resource q stored).2 := by
  cases q with
  | object q => exact .object (answers_serverAnswer stored q)
  | resource q => exact .resource q _
  | publish ref f => exact .publish ref f

/-- The pass, or the notice, for one item, with its result. -/
def Controller.serve (c : Controller I β P ι) (item : Received β) :
    Task I β (Except Error Unit) :=
  (Program.measure (c.metrics.received item.stream)).bind fun _ =>
    match item with
    | .deletion o => c.reconcile .delete o
    | .change o => c.reconcile .update o
    | .failure e => (Program.log (.informerErrorReceived c.name e)).bind fun _ => .done (.ok ())

/-- A controller does not look at the results of its passes. -/
theorem Controller.handle_eq_serve (c : Controller I β P ι) (item : Received β) :
    c.handle item = (c.serve item).bind fun _ => .done () := by
  cases item with
  | deletion o => simp only [handle, serve, Program.bind_assoc]
  | change o => simp only [handle, serve, Program.bind_assoc]
  | failure e =>
    simp only [handle, serve, Program.bind_assoc]
    rfl

/-- What happened in a pass: every act, with what the server kept then. -/
abbrev Course (I : Interface) (β : Type) := List (Act (controllerInterface I β) × Stored β)

/-- The acts alone. -/
abbrev Course.acts (as : Course I β) : List (Act (controllerInterface I β)) := as.map Prod.fst

/-- The server kept its contract. -/
def Course.Allowed (course : Course I β) : Prop :=
  ∀ a stored, (a, stored) ∈ course → ∃ stored', Allows stored a stored'

/-- The server has something under a key at one of the acts. -/
def Course.Holds (course : Course I β) (key : String) : Prop :=
  ∃ a stored o, (a, stored) ∈ course ∧ stored key = some o

/-- A server that keeps its contract finds only what it has. -/
theorem Course.Allowed.holds {course : Course I β} (h : course.Allowed) {o : Object β}
    (hfinds : Controller.Finds o course.acts) : course.Holds o.key := by
  obtain ⟨latest, hmem⟩ := hfinds
  obtain ⟨⟨a, stored⟩, hcourse, rfl⟩ := List.mem_map.1 hmem
  obtain ⟨stored', hallows⟩ := h _ stored hcourse
  cases hallows with
  | object hanswers =>
    cases hanswers with
    | found hfound => exact ⟨_, stored, latest, hcourse, hfound⟩

/-- Something that happened in a run. -/
inductive Happening (I : Interface) (β : Type) where
  /-- The informer sent an object on a stream. -/
  | sent (route : Route) (o : Object β)
  /-- The controller handled an item: what happened, and the result unless it is still at it. -/
  | handled (item : Received β) (course : Course I β) (result : Option (Except Error Unit))

/-- An item that the controller handles. -/
structure Underway (I : Interface) (β : Type) where
  /-- The item. -/
  item : Received β
  /-- What happened so far. -/
  course : Course I β
  /-- What is left to do. -/
  rest : Controller.Task I β (Except Error Unit)

/-- A controller at work. -/
structure Boot (I : Interface) (β : Type) where
  /-- The streams of its informer. -/
  outlets : Outlets β
  /-- What the server keeps. -/
  stored : Stored β
  /-- The item it handles, if any. -/
  running : Option (Underway I β) := none
  /-- What happened so far, oldest first. -/
  past : List (Happening I β) := []

namespace Boot

/-- A controller as it starts, with streams of a capacity. -/
def start (capacity : Nat) (stored : Stored β) : Boot I β :=
  { outlets := .ofCapacity capacity, stored := stored }

/-- One step of a run. -/
inductive Step (c : Controller I β P ι) : Boot I β → Boot I β → Prop where
  /-- The informer sends an object for which there is room. -/
  | send {b : Boot I β} {route : Route} {o : Object β} {outlets : Outlets β}
      (h : b.outlets.send o route = .sent outlets) :
      Step c b { b with outlets := outlets, past := b.past ++ [.sent route o] }
  /-- The informer reports an error. -/
  | report {b : Boot I β} {e : Error} {outlets : Outlets β}
      (h : b.outlets.report e = .sent outlets) : Step c b { b with outlets := outlets }
  /-- The controller takes the next item. -/
  | take {b : Boot I β} {item : Received β} {outlets : Outlets β} (hidle : b.running = none)
      (h : b.outlets.take? = some (item, outlets)) :
      Step c b { b with outlets := outlets, running := some ⟨item, [], c.serve item⟩ }
  /-- The next act of the running pass. -/
  | act {b : Boot I β} {u : Underway I β} {a : Act (controllerInterface I β)}
      {rest : Controller.Task I β (Except Error Unit)} {stored : Stored β}
      (hrunning : b.running = some u)
      (h : Program.Step u.rest a rest) (hallows : Allows b.stored a stored) :
      Step c b { b with
        stored := stored
        running := some { u with course := u.course ++ [(a, b.stored)], rest := rest } }
  /-- The running pass ends. -/
  | finish {b : Boot I β} {u : Underway I β} {x : Except Error Unit}
      (hrunning : b.running = some u) (h : u.rest = .done x) :
      Step c b { b with running := none, past := b.past ++ [.handled u.item u.course (some x)] }
  /-- Somebody else writes to the server. -/
  | foreign {b : Boot I β} (stored : Stored β) : Step c b { b with stored := stored }

/-- The states that a controller can come to with streams of a capacity. -/
def Reachable (c : Controller I β P ι) (capacity : Nat) (b : Boot I β) : Prop :=
  ∃ stored, Relation.ReflTransGen (Step c) (start capacity stored) b

/-- What happened so far, with what happens now. -/
def account (b : Boot I β) : List (Happening I β) :=
  b.past ++ (b.running.map fun u => .handled u.item u.course none).toList

/-! ### Every pass runs its program -/

/-- What happened so far happens in the program of the item, and what is left continues it. -/
def Continues (c : Controller I β P ι) (u : Underway I β) : Prop :=
  ∀ as r, Runs u.rest as r → Runs (c.serve u.item) (u.course.acts ++ as) r

/-- What was handled was handled by the program of the controller. -/
structure Faithful (c : Controller I β P ι) (b : Boot I β) : Prop where
  past : ∀ item course r, .handled item course r ∈ b.past →
    Runs (c.serve item) course.acts r ∧ course.Allowed
  running : ∀ u, b.running = some u → Continues c u ∧ u.course.Allowed

theorem Faithful.step {c : Controller I β P ι} {b b' : Boot I β} (h : Faithful c b)
    (hstep : Step c b b') : Faithful c b' := by
  cases hstep with
  | send hsend =>
    refine ⟨fun item course r hmem => ?_, h.running⟩
    exact h.past item course r (by simpa using hmem)
  | report => exact ⟨h.past, h.running⟩
  | foreign => exact ⟨h.past, h.running⟩
  | take hidle htake =>
    refine ⟨h.past, ?_⟩
    rintro u ⟨⟩
    exact ⟨fun as r hruns => hruns, by simp [Course.Allowed]⟩
  | @act u a rest stored hrunning hact hallows =>
    refine ⟨h.past, ?_⟩
    rintro u' ⟨⟩
    obtain ⟨hcontinues, hallowed⟩ := h.running u hrunning
    constructor
    · intro as r hruns
      rw [Course.acts, List.map_append, List.append_assoc]
      exact hcontinues _ r (.step hact hruns)
    · intro a' kept hmem
      rcases List.mem_append.1 hmem with hmem | hmem
      · exact hallowed a' kept hmem
      · cases List.mem_singleton.1 hmem
        exact ⟨stored, hallows⟩
  | @finish u x hrunning hdone =>
    refine ⟨?_, by simp⟩
    intro item course r hmem
    rcases List.mem_append.1 hmem with hmem | hmem
    · exact h.past item course r hmem
    · cases List.mem_singleton.1 hmem
      obtain ⟨hcontinues, hallowed⟩ := h.running u hrunning
      have hruns := hcontinues [] (some x) (hdone ▸ .done x)
      rw [List.append_nil] at hruns
      exact ⟨hruns, hallowed⟩

theorem Reachable.faithful {c : Controller I β P ι} {capacity : Nat} {b : Boot I β}
    (h : Reachable c capacity b) : Faithful c b := by
  obtain ⟨stored, hrun⟩ := h
  induction hrun with
  | refl => exact ⟨by simp [start], by simp [start]⟩
  | tail _ hstep ih => exact ih.step hstep

/-- Every pass in a run, the one that is running included, is a run of its program against a server
that keeps its contract. -/
theorem Reachable.runs {c : Controller I β P ι} {capacity : Nat} {b : Boot I β}
    (h : Reachable c capacity b) {item : Received β} {course : Course I β}
    {r : Option (Except Error Unit)} (hmem : .handled item course r ∈ b.account) :
    Runs (c.serve item) course.acts r ∧ course.Allowed := by
  rcases List.mem_append.1 hmem with hmem | hmem
  · exact h.faithful.past item course r hmem
  · obtain ⟨u, hu, heq⟩ : ∃ u, b.running = some u ∧
        Happening.handled u.item u.course none = .handled item course r := by simpa using hmem
    cases heq
    obtain ⟨hcontinues, hallowed⟩ := h.faithful.running u hu
    have hruns := hcontinues [] none (.cut _)
    rw [List.append_nil] at hruns
    exact ⟨hruns, hallowed⟩

/-! ### Late updates -/

/-- The pass over an update that comes too late: the object was sent as an update, then as a
deletion, and the delete pass of the set that handles it succeeded before. -/
structure Late (c : Controller I β P ι) (b : Boot I β) (o : Object β) (course : Course I β)
    (r : Option (Except Error Unit)) : Prop where
  ordered : ∃ d deleting,
    [.sent .update o, .sent .delete d, .handled (.deletion d) deleting (some (.ok ())),
        .handled (.change o) course r].Sublist b.account ∧
      d.metadata.namespaceName = o.metadata.namespaceName ∧ d.name = o.name ∧
      d.metadata.uid = o.metadata.uid ∧ ∃ s, c.sets.filter (fun s => s.handles d) = [s]

theorem Late.mem {c : Controller I β P ι} {b : Boot I β} {o : Object β} {course : Course I β}
    {r : Option (Except Error Unit)} (h : Late c b o course r) :
    .handled (.change o) course r ∈ b.account := by
  obtain ⟨d, deleting, hsub, -⟩ := h.ordered
  exact hsub.subset (by simp)

/-- Which late passes reach the resources. A resource asks something only if one set handles the
object and the finalizer was settled: by the copy that came late, or by a server that still or again
had an object under the key. And if one set handles the object, a pass that came to its end reached
the resources exactly if the finalizer was settled; if the object was gone, exactly if the copy that
came late carries the finalizer. -/
theorem late_asksResource_iff {c : Controller I β P ι} {capacity : Nat} {b : Boot I β}
    (hb : Reachable c capacity b) {o : Object β} {course : Course I β}
    {r : Option (Except Error Unit)} (hlate : Late c b o course r) :
    (Controller.AsksResource course.acts → (∃ s, c.sets.filter (fun s => s.handles o) = [s]) ∧
        (o.hasFinalizer c.finalizers.name = true ∨
          c.Shows course.acts ∧ course.Holds o.key)) ∧
      ∀ s first others, c.sets.filter (fun s => s.handles o) = [s] →
        s.resources = first :: others → (c.registry.ensure .update first o).Inquires → r ≠ none →
        (Controller.AsksResource course.acts ↔
          o.hasFinalizer c.finalizers.name = true ∨ c.Shows course.acts) ∧
        (¬ course.Holds o.key →
          (Controller.AsksResource course.acts ↔ o.hasFinalizer c.finalizers.name = true)) := by
  obtain ⟨hruns, hallowed⟩ := hb.runs hlate.mem
  obtain ⟨as, hpass, hsame⟩ := Controller.runs_measured hruns
  have hsettled (hasks : Controller.AsksResource course.acts) :
      (∃ s, c.sets.filter (fun s => s.handles o) = [s]) ∧
        (o.hasFinalizer c.finalizers.name = true ∨
          c.Shows course.acts ∧ course.Holds o.key) := by
    obtain ⟨hset, hsettled⟩ := Controller.settled_of_asksResource hpass (hsame.asksResource.1 hasks)
    rw [← hsame.shows, ← hsame.finds] at hsettled
    exact ⟨hset, hsettled.imp_right (And.imp_right hallowed.holds)⟩
  refine ⟨hsettled, ?_⟩
  intro s first others hs hres hfirst hr
  obtain ⟨x, rfl⟩ := Option.ne_none_iff_exists'.1 hr
  have hiff : Controller.AsksResource course.acts ↔
      o.hasFinalizer c.finalizers.name = true ∨ c.Shows course.acts := by
    rw [hsame.asksResource, hsame.shows]
    exact Controller.asksResource_iff hs hres hfirst hpass
  refine ⟨hiff, fun hgone => ⟨fun hasks => ?_, fun hon => hiff.2 (.inl hon)⟩⟩
  exact (hsettled hasks).2.resolve_right fun hshown => hgone hshown.2

/-! ### A server that answers every request -/

/-- One more act before a run of a pass. -/
theorem run_act {c : Controller I β P ι} {p p' : Controller.Task I β (Except Error Unit)}
    {a : Act (controllerInterface I β)} (hstep : Program.Step p a p') {b : Boot I β}
    {stored : Stored β} (hallows : Allows b.stored a stored) {item : Received β}
    {before after : Course I β} {x : Except Error Unit} {kept : Stored β}
    (hrest : Relation.ReflTransGen (Step c)
      { b with stored := stored, running := some ⟨item, before ++ [(a, b.stored)], p'⟩ }
      { b with
        stored := kept
        running := some ⟨item, before ++ [(a, b.stored)] ++ after, .done x⟩ }) :
    Relation.ReflTransGen (Step c) { b with running := some ⟨item, before, p⟩ }
      { b with
        stored := kept
        running := some ⟨item, before ++ (a, b.stored) :: after, .done x⟩ } := by
  rw [List.append_assoc, List.singleton_append] at hrest
  exact .head (Step.act rfl hstep hallows) hrest

/-- The acts of a program that is answered in accordance with the contract are steps of a run. -/
theorem run_perform {c : Controller I β P ι}
    {reply : (q : (controllerInterface I β).Request) → Stored β →
      (controllerInterface I β).Reply q × Stored β}
    (hreply : ∀ q stored, Allows stored (.asked q (reply q stored).1) (reply q stored).2)
    (m : Moment) {p : Controller.Task I β (Except Error Unit)} (b : Boot I β) (item : Received β)
    (before : Course I β) {x : Except Error Unit}
    (hx : (p.perform reply m b.stored).2.1 = some x) :
    Relation.ReflTransGen (Step c) { b with running := some ⟨item, before, p⟩ }
      { b with
        stored := (p.perform reply m b.stored).2.2
        running := some ⟨item, before ++ (p.perform reply m b.stored).1, .done x⟩ } := by
  induction p generalizing b before with
  | done a =>
    obtain rfl : a = x := by simpa [Program.perform] using hx
    simp only [Program.perform, List.append_nil]
    exact .refl
  | unfinished => cases hx
  | signal e next ih => exact run_act (.signal e next) (.signalled e) (ih b _ hx)
  | sleep d next ih => exact run_act (.sleep d next) (.slept d) (ih b _ hx)
  | moment next ih => exact run_act (.moment m next) (.looked m) (ih m b _ hx)
  | ask q next ih =>
    exact run_act (.ask _ next) (hreply q b.stored)
      (ih _ { b with stored := (reply q b.stored).2 } _ hx)

/-- A controller that has nothing to do takes an item, runs the pass, and has nothing to do
again. -/
theorem run_serve {c : Controller I β P ι}
    {reply : (q : (controllerInterface I β).Request) → Stored β →
      (controllerInterface I β).Reply q × Stored β}
    (hreply : ∀ q stored, Allows stored (.asked q (reply q stored).1) (reply q stored).2)
    (m : Moment) {b : Boot I β} (hidle : b.running = none) {item : Received β}
    {outlets : Outlets β} (htake : b.outlets.take? = some (item, outlets)) {x : Except Error Unit}
    (hx : ((c.serve item).perform reply m b.stored).2.1 = some x) :
    Relation.ReflTransGen (Step c) b
      { outlets := outlets
        stored := ((c.serve item).perform reply m b.stored).2.2
        running := none
        past := b.past ++
          [.handled item ((c.serve item).perform reply m b.stored).1 (some x)] } := by
  refine .head (Step.take hidle htake) ?_
  refine .tail (run_perform hreply m { b with outlets := outlets } item [] hx) ?_
  exact Step.finish (u := ⟨item, _, .done x⟩) rfl rfl

/-! ### A late update that carries the finalizer -/

/-- A resource that only calls out: its questions are the passes it is asked to run. -/
def callOut : Interface where
  Request := Pass × String
  Reply _ := Except Error Unit

/-- A controller of one such resource. -/
def caller : Controller callOut Unit Unit Unit where
  name := "demo"
  kind := ⟨"demo/v1", "Demo"⟩
  registry := { lookup := fun _ =>
    { name := "r", ensure := fun pass o => .request (I := callOut) (pass, o.key) } }
  sets := [⟨fun _ => true, [.basic ()]⟩]
  finalizers := ⟨"operon.dev/demo", ⟨.stop, 1⟩⟩
  metrics := { namespaceName := "operon", controller := "demo" }
  informer := {}
  schema := none
  publishes := false

/-- A copy of its object, with the finalizer on. -/
def owned (version : String) (deleting : Bool) : Object Unit where
  metadata :=
    { name := some "a"
      resourceVersion := some version
      uid := some "4a1f"
      deletionTimestamp := if deleting then some "2024-01-01T00:00:00Z" else none
      finalizers := some ["operon.dev/demo"] }
  body := ()

/-- How its passes go when nothing fails. -/
def served (item : Received Unit) (stored : Stored Unit) :
    Course callOut Unit × Option (Except Error Unit) × Stored Unit :=
  (caller.serve item).perform (surroundings fun _ => .ok ()) default stored

/-- Both copies are sent before the controller takes anything. -/
def bothSent : Boot callOut Unit where
  outlets :=
    { updates := { capacity := 1, items := [owned "1" false] }
      deletes := { capacity := 1, items := [owned "2" true] }
      errors := { capacity := 1 } }
  stored k := if k = "a" then some (owned "2" true) else none
  past := [.sent .update (owned "1" false), .sent .delete (owned "2" true)]

/-- The delete pass comes first, and once it has succeeded the object goes. -/
def deletionHandled : Boot callOut Unit where
  outlets := { Outlets.ofCapacity 1 with updates := { capacity := 1, items := [owned "1" false] } }
  stored _ := none
  past := bothSent.past ++ [.handled (.deletion (owned "2" true))
    (served (.deletion (owned "2" true)) bothSent.stored).1 (some (.ok ()))]

/-- The update pass comes last. -/
def updateHandled : Boot callOut Unit where
  outlets := .ofCapacity 1
  stored := (served (.change (owned "1" false)) fun _ => none).2.2
  past := deletionHandled.past ++ [.handled (.change (owned "1" false))
    (served (.change (owned "1" false)) fun _ => none).1 (some (.ok ()))]

theorem reachable_updateHandled : Reachable caller 1 updateHandled := by
  have hallows := allows_surroundings (I := callOut) (β := Unit) fun _ => .ok ()
  have hupdate : Step caller (start 1 bothSent.stored)
      { start 1 bothSent.stored with
        outlets := deletionHandled.outlets, past := [.sent .update (owned "1" false)] } := .send rfl
  have hdelete : Step caller
      { start 1 bothSent.stored with
        outlets := deletionHandled.outlets, past := [.sent .update (owned "1" false)] }
      bothSent := .send rfl
  have hdeleted : Relation.ReflTransGen (Step caller) bothSent { deletionHandled with
      stored := (served (.deletion (owned "2" true)) bothSent.stored).2.2 } :=
    run_serve hallows default rfl rfl rfl
  have hgone : Step caller { deletionHandled with
      stored := (served (.deletion (owned "2" true)) bothSent.stored).2.2 } deletionHandled :=
    .foreign fun _ => none
  have hupdated : Relation.ReflTransGen (Step caller) deletionHandled updateHandled :=
    run_serve hallows default rfl rfl rfl
  exact ⟨bothSent.stored, .head hupdate (.head hdelete (hdeleted.trans (.head hgone hupdated)))⟩

theorem late_updateHandled : Late caller updateHandled (owned "1" false)
    (served (.change (owned "1" false)) fun _ => none).1 (some (.ok ())) :=
  ⟨owned "2" true, (served (.deletion (owned "2" true)) bothSent.stored).1, List.Sublist.refl _,
    rfl, rfl, rfl, _, rfl⟩

/-- The late copy carries the finalizer, so its pass reaches the resource although there is nothing
on the server. -/
theorem updateHandled_asksResource :
    (caller.sets.filter fun s => s.handles (owned "1" false)).length = 1 ∧
      Controller.AsksResource (served (.change (owned "1" false)) fun _ => none).1.acts := by
  refine ⟨rfl, ?_⟩
  refine ((late_asksResource_iff reachable_updateHandled late_updateHandled).2
    ⟨fun _ => true, [.basic ()]⟩ (.basic ()) [] rfl rfl ?_ (by simp)).1.2 (.inl rfl)
  intro as x hruns
  obtain ⟨rep, as', rfl, -⟩ := hruns.of_ask
  exact ⟨_, rep, List.mem_cons_self ..⟩

/-- Although the object is gone, the late update pass calls out to create. -/
theorem created_after_deletion :
    Reachable caller 1 updateHandled ∧ updateHandled.stored "a" = none ∧
      Late caller updateHandled (owned "1" false)
        (served (.change (owned "1" false)) fun _ => none).1 (some (.ok ())) ∧
      .asked (.resource (.update, "a")) (.ok ()) ∈
        (served (.change (owned "1" false)) fun _ => none).1.acts :=
  ⟨reachable_updateHandled, rfl, late_updateHandled, List.mem_of_getElem? (i := 2) rfl⟩

end Boot

end Reconciler
