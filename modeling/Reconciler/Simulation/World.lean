import Reconciler.Controller.Stage
import Reconciler.Simulation.Definitions
import Reconciler.Simulation.Site
import Reconciler.Simulation.Store
import Reconciler.Simulation.Units

/-!
# A controller at work

A `World` holds everything a scripted controller run consists of: the store, the managed units, the
definitions, the list and watch API, the running informer, the booted controller and the clock.

Booting goes through the stages of `Stage`. While a controller serves, the informer runs until
it waits, then the controller handles one item after the other until none is left or a pass sleeps;
this repeats until neither has anything to do (`World.settle`).

A controller may be booted again. The boot before goes on with its own informer, and it shares
everything else; only how the last one ends is told. The informers take turns (`Session.turn`), and
so do the boots, the first one first.
-/

namespace Reconciler.Simulation

/-- The controllers that are run here. -/
abbrev ScriptedController := Controller unitInterface Unit Payload Nat

/-- What the programs of a controller talk to. -/
structure Scene where
  /-- The stored objects. -/
  store : Store Unit := {}
  /-- The managed units. -/
  units : Units := {}
  /-- The definitions. -/
  definitions : ScriptedDefinitions := {}
  /-- The instruments registered so far, oldest first. -/
  instruments : List Registration := []
  /-- Failed passes recorded on objects, newest first. -/
  published : List (ObjectReference × Failure) := []
  /-- Log entries and measurements, newest first. -/
  signals : List Signal := []

namespace Scene

/-- Take note of a signal. -/
def observe (e : Signal) (s : Scene) : Scene := { s with signals := e :: s.signals }

/-- Log an event outside of any pass. -/
def log (s : Scene) (e : LogEvent) : Scene := s.observe (.log ⟨e, none⟩)

/-- Answer a controller's question. -/
def answer : (q : ControllerRequest unitInterface Unit) → Scene →
    (controllerInterface unitInterface Unit).Reply q × Scene
  | .object q, s =>
    let r := s.store.answer q
    (r.1, { s with store := r.2 })
  | .resource q, s =>
    let r := s.units.answer q
    (r.1, { s with units := r.2 })
  | .publish object failure, s => ((), { s with published := (object, failure) :: s.published })

/-- The surroundings of a controller. -/
def surroundings : Program.Surroundings (controllerInterface unitInterface Unit) Scene where
  answer := answer
  moment s := (stillMoment, s)
  observe := observe

/-- The surroundings of an object client. -/
def storeSurroundings : Program.Surroundings (objectClient Unit) Scene where
  answer q s := answer (.object q) s
  moment s := (stillMoment, s)
  observe := observe

/-- The surroundings of resources. -/
def unitSurroundings : Program.Surroundings unitInterface Scene where
  answer q s := answer (.resource q) s
  moment s := (stillMoment, s)
  observe := observe

/-- The surroundings of a schema definition. -/
def definitionSurroundings : Program.Surroundings Reconciler.definitions Scene where
  answer q s :=
    let r := s.definitions.answer q
    (r.1, { s with definitions := r.2 })
  moment s := (stillMoment, s)
  observe := observe

end Scene

/-- How far booting has come. -/
inductive BootPhase where
  /-- A stage; if it holds a program then this goes on at `wake`. -/
  | staged (stage : Stage unitInterface Unit) (wake : Duration)
  /-- A program was cut off at its horizon. -/
  | cutOff

/-- A boot of the controller with the informer it started. -/
structure Boot where
  /-- The informer. -/
  session : Option (Session Unit) := none
  /-- How far it has come, if it began. -/
  phase : Option BootPhase := none

/-- A controller and all it works with. -/
structure World where
  /-- The controller. -/
  controller : ScriptedController
  /-- Where its informer runs. -/
  site : Site Unit := {}
  /-- What its programs talk to. -/
  scene : Scene := {}
  /-- How far booting has come, if it began. -/
  boot : Option BootPhase := none
  /-- Boots that another one has replaced, oldest first. -/
  former : List Boot := []

namespace World

/-- The boot that was begun last. -/
def current (w : World) : Boot := ⟨w.site.session?, w.boot⟩

/-- The world as another boot sees it. -/
def withBoot (w : World) (b : Boot) : World :=
  { w with site := { w.site with sessions := b.session.toList }, boot := b.phase }

/-- Let a boot act: the boot and the world afterwards; nothing if it waits. -/
def act? (w : World) (f : World → Option World) (b : Boot) : Option (Boot × World) :=
  (f (w.withBoot b)).map fun v => (v.current, v.withBoot w.current)

/-- Let the first of several boots act that does not wait. -/
def actFirst? (w : World) (f : World → Option World) : List Boot → Option (List Boot × World)
  | [] => none
  | b :: rest =>
    match w.act? f b with
    | some (b, w) => some (b :: rest, w)
    | none => (w.actFirst? f rest).map fun r => (b :: r.1, r.2)

/-- Let a boot act, a former one if possible. -/
def stepAny? (w : World) (f : World → Option World) : Option World :=
  match w.actFirst? f w.former with
  | some (former, w) => some { w with former := former }
  | none => f w

/-- Log an event. -/
def log (w : World) (e : LogEvent) : World := { w with scene := w.scene.log e }

/-- One small step of the informer of the current boot; nothing while it waits. -/
def stepOwnInformer? (w : World) : Option World :=
  w.site.step?.map fun site =>
    { w with
      site := { site with logged := [] }
      scene := site.logged.foldr (fun e s => s.log e) w.scene }

/-- The next turn of an informer; nothing while all of them wait. -/
def informerTurn? (w : World) : Option Nat :=
  ((w.current :: w.former).filterMap fun b => (w.withBoot b).site.turn?).min?

/-- One small step of the informer that has its turn; nothing while all of them wait. -/
def stepInformer? (w : World) : Option World :=
  w.informerTurn?.bind fun turn =>
    w.stepAny? fun v => if v.site.turn? = some turn then v.stepOwnInformer? else none

/-- Small steps of the informers until they wait. -/
def settleInformer : (fuel : Nat) → World → World
  | 0, w => w
  | fuel + 1, w =>
    match w.stepInformer? with
    | some w => w.settleInformer fuel
    | none => w

/-- When a sleep that begins now ends. -/
def wake (w : World) (d : Duration) : Duration := (w.site.now + d).ceilMillis

/-- Go over to a stage. -/
def enter (w : World) (stage : Stage unitInterface Unit) : World :=
  { w with boot := some (.staged stage w.site.now) }

/-- The program for an item went as far as it could. -/
def handled (w : World) (item : Received Unit)
    (r : Program.Progress (controllerInterface unitInterface Unit) Unit × Scene) : World :=
  let w := { w with scene := r.2 }
  match r.1 with
  | .finished _ => w.enter .serving
  | .cutOff => { w with boot := some .cutOff }
  | .asleep d rest => { w with boot := some (.staged (.handling item rest) (w.wake d)) }

/-- The definition is served, or none is needed: the informer starts. -/
def serve (w : World) : World :=
  { w with site := w.site.start w.controller.informer }.log w.controller.greeting

/-- The program that brings the definition into service went as far as it could. -/
def prepared (w : World)
    (r : Program.Progress Reconciler.definitions (Except Error Unit) × Scene) : World :=
  let w := { w with scene := r.2 }
  match r.1 with
  | .finished x =>
    let w := w.enter (.afterPreparing x)
    match x with
    | .ok () => w.serve
    | .error _ => w
  | .cutOff => { w with boot := some .cutOff }
  | .asleep d rest => { w with boot := some (.staged (.preparing rest) (w.wake d)) }

/-- Begin to boot. A boot that was begun before goes on by itself. -/
def startBoot (w : World) : World :=
  let w := { w with former := w.former ++ [w.current] }.withBoot {}
  w.prepared (w.controller.prepare.advance Scene.definitionSurroundings w.scene)

/-- What is shown of an informer that was taken down. -/
def crashText : String := "task panicked"

/-- The controller ends after its informer. -/
def stop (w : World) (crash : Option String) : World :=
  (w.controller.farewell crash).foldl log (w.enter (.ended (.ok ())))

/-- One step of the controller in the current boot; nothing while it waits. -/
def stepOwnController? (w : World) : Option World :=
  match w.boot with
  | some (.staged (.preparing rest) wake) =>
    if wake ≤ w.site.now then
      some (w.prepared (rest.advance Scene.definitionSurroundings w.scene))
    else none
  | some (.staged (.handling item rest) wake) =>
    if wake ≤ w.site.now then some (w.handled item (rest.advance Scene.surroundings w.scene))
    else none
  | some (.staged .serving _) =>
    (w.site.outlets?.bind (w.controller.attend w.site.cancelled)).map fun r =>
      { w with site := w.site.setOutlets r.2 }.enter r.1
  | some (.staged .closing _) =>
    match w.site.liveness? with
    | some .finished => some (w.stop none)
    | some .crashed => some (w.stop (some crashText))
    | _ => none
  | _ => none

/-- One step of the controller; nothing while it waits in all boots. -/
def stepController? (w : World) : Option World := w.stepAny? stepOwnController?

/-- Steps of the controller until it waits. -/
def settleController : (fuel : Nat) → World → World
  | 0, w => w
  | fuel + 1, w =>
    match w.stepController? with
    | some w => w.settleController fuel
    | none => w

/-- The informer until it waits, then the controller until it waits, until both wait. -/
def settleRounds : (fuel : Nat) → World → World
  | 0, w => w
  | fuel + 1, w =>
    if w.stepInformer?.isNone && w.stepController?.isNone then w
    else ((w.settleInformer patience).settleController patience).settleRounds fuel

/-- Do whatever there is to do now. -/
def settle (w : World) : World := w.settleRounds patience

/-- When the controller goes on in the current boot. -/
def controllerTimer? (w : World) : Option Duration :=
  match w.boot with
  | some (.staged (.preparing _) wake) => some wake
  | some (.staged (.handling ..) wake) => some wake
  | _ => none

/-- The next time at which a timer goes off. -/
def nextTimer? (w : World) : Option Duration :=
  earliest? (w.current :: w.former |>.flatMap fun b =>
    let w := w.withBoot b
    [w.site.nextTimer?, w.controllerTimer?])

/-- How a world reacts to time. -/
def timed : Timed World where
  settle t w := { w with site := { w.site with now := t } }.settle
  nextTimer? := nextTimer?

/-- Let time pass. -/
def elapse (w : World) (d : Duration) : World :=
  let target := w.wake d
  let w := timed.elapse target patience w
  { w with site := { w.site with now := target } }.settle

/-- Run a program in the foreground: while it sleeps, time passes for everything else. -/
def runForeground {I : Interface} {α : Type} (env : Program.Surroundings I Scene) :
    (fuel : Nat) → Program I α → World → Option α × World
  | 0, _, w => (none, w)
  | fuel + 1, p, w =>
    let r := p.advance env w.scene
    let w := { w with scene := r.2 }
    match r.1 with
    | .finished a => (some a, w)
    | .cutOff => (none, w)
    | .asleep d rest => runForeground env fuel rest (w.settle.elapse d)

/-- Cancel the run. -/
def cancel (w : World) : World := { w with site := w.site.cancel }

end World

end Reconciler.Simulation
