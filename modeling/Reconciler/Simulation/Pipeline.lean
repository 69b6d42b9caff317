import Reconciler.Simulation.World

/-!
# Driving resources

A `Pipeline` is a list of resources over text objects, which are their own key. It is driven by
commands: passes, single calls, looks at a resource, clones and decorations.
-/

namespace Reconciler.Simulation

/-- Resources, what they are built from, and what they act on. -/
structure Pipeline where
  /-- The basic resources. -/
  shop : Shop String
  /-- The resources. -/
  resources : List (UnitResource String)
  /-- What they act on. -/
  scene : Scene

/-- What a pipeline can be told. -/
inductive PipelineCommand where
  /-- Run a pass of a resource. -/
  | ensure (index : Nat) (pass : Pass) (object : String)
  /-- Make a single call of a CRUD resource. -/
  | call (index : Nat) (c : Call Payload Payload) (object : String)
  /-- Look at a resource. -/
  | describe (index : Nat)
  /-- Append a copy of a resource. -/
  | clone (index : Nat)
  /-- Decorate a resource in place. -/
  | decorate (index : Nat) (d : Decorator) (mode : Mode)
  /-- Decorate all resources in place. -/
  | wrap (d : Decorator)
  /-- Read the metrics. -/
  | readMetrics

/-- What is seen of a resource from outside. -/
structure Face where
  /-- Its name. -/
  name : String
  /-- It is driven by the patch protocol. -/
  isCrud : Bool
  /-- Its diagnostic notation. -/
  debugText : String

/-- A look at a resource. -/
structure Description where
  /-- The resource itself. -/
  face : Face
  /-- What it wraps. -/
  wrapped : Option Face
  /-- The innermost resource. -/
  underlying : Except Error Face
  /-- The diagnostic notation of the protocol that drives it. -/
  crudText : Option String

/-- What a command leads to. -/
inductive PipelineOutcome where
  /-- It cannot be carried out. -/
  | impossible
  /-- It was cut off at a horizon. -/
  | cutOff
  /-- It failed. -/
  | failed (e : Error)
  /-- It succeeded. -/
  | succeeded
  /-- It yielded a state. -/
  | state (p : Payload)
  /-- It yielded a patch. -/
  | patch (p : Patch Payload)
  /-- A look at a resource. -/
  | description (d : Description)
  /-- The index of a resource. -/
  | index (n : Nat)
  /-- The diagnostic notation of all resources. -/
  | debugTexts (l : List String)
  /-- The measurements so far. -/
  | metrics (ms : List Measurement)

/-- The resource seen from outside. -/
def Shop.face {K : Type} (s : Shop K) (r : UnitResource K) : Face :=
  ⟨s.registry.name r, r.isCrud, s.registry.debugText r⟩

/-- Look at a resource. -/
def Shop.describe {K : Type} (s : Shop K) (r : UnitResource K) : Description where
  face := s.face r
  wrapped := (s.registry.wrapped? r).map s.face
  underlying := (s.registry.underlying r).map s.face
  crudText :=
    match r with
    | .crud c => some c.debugText
    | _ => none

/-- Build resources one after the other. -/
def buildAll {K : Type} (key : K → String) (typeName : String) :
    List Blueprint → Shop K → Except Error (List (UnitResource K) × Shop K)
  | [], s => .ok ([], s)
  | b :: bs, s => do
    let first ← b.build key typeName s
    let rest ← buildAll key typeName bs first.2
    .ok (first.1 :: rest.1, rest.2)

/-- The answer of a call as an outcome. -/
def answerOutcome : (c : Call Payload Payload) → c.Reply → PipelineOutcome
  | .getCurrent, s => .state s
  | .getDesired, s => .state s
  | .newPatch .., p => .patch p
  | .apply .., _ => .succeeded

/-- The recorded measurements among signals, newest first. -/
def measurements (signals : List Signal) : List Measurement :=
  signals.filterMap fun
    | .measure m => some m
    | .log _ => none

/-- The measurements so far as they count, newest first. -/
def Scene.measured (s : Scene) : List Measurement :=
  (measurements s.signals).map (Metrics.unify s.instruments)

/-- The log entries among signals. -/
def logEntries (signals : List Signal) : List LogEntry :=
  signals.filterMap fun
    | .log e => some e
    | .measure _ => none

/-- The call that an operation stands for, if it takes that many payloads. -/
def callOf? : Operation → List Payload → Option (Call Payload Payload)
  | .getCurrentState, _ => some .getCurrent
  | .getDesiredState, _ => some .getDesired
  | .newUpdatePatch, [c, d] => some (.newPatch .update c d)
  | .newDeletePatch, [c, d] => some (.newPatch .delete c d)
  | .applyCreateChange, [c] => some (.apply .create c)
  | .applyDeleteChange, [c] => some (.apply .delete c)
  | .applyUpdateChange, [c] => some (.apply .update c)
  | _, _ => none

namespace Pipeline

/-- Build a pipeline. -/
def build (typeName : String) (bs : List Blueprint) : Except Error Pipeline := do
  let r ← buildAll (fun s => s) typeName bs {}
  .ok ⟨r.2, r.1, { units := r.2.units, instruments := r.2.instruments }⟩

/-- Run a pass. -/
def ensure (p : Pipeline) (r : UnitResource String) (pass : Pass) (object : String) :
    PipelineOutcome × Pipeline :=
  let ran := (p.shop.registry.ensure pass r object).run Scene.unitSurroundings p.scene
  (match ran.1 with
    | none => .cutOff
    | some (.ok ()) => .succeeded
    | some (.error e) => .failed e,
    { p with scene := ran.2 })

/-- Make a single call. -/
def call (p : Pipeline) (r : UnitResource String) (c : Call Payload Payload) (object : String) :
    PipelineOutcome × Pipeline :=
  match r with
  | .crud crud =>
    let ran := (crud.ops.perform c object).run Scene.unitSurroundings p.scene
    (match ran.1 with
      | none => .cutOff
      | some (.ok a) => answerOutcome c a
      | some (.error e) => .failed e,
      { p with scene := ran.2 })
  | _ => (.impossible, p)

/-- A decorator was made, whether it can be applied or not. -/
def addDecorator (p : Pipeline) (d : Decorator) : Pipeline :=
  { p with scene := { p.scene with instruments := p.scene.instruments ++ d.registrations } }

/-- Carry out a command about one resource. -/
def withResource (p : Pipeline) (index : Nat)
    (f : UnitResource String → PipelineOutcome × Pipeline) : PipelineOutcome × Pipeline :=
  match p.resources[index]? with
  | some r => f r
  | none => (.impossible, p)

/-- Carry out a command. -/
def obey (p : Pipeline) : PipelineCommand → PipelineOutcome × Pipeline
  | .ensure index pass object => p.withResource index fun r => p.ensure r pass object
  | .call index c object => p.withResource index fun r => p.call r c object
  | .describe index => p.withResource index fun r => (.description (p.shop.describe r), p)
  | .clone index =>
    p.withResource index fun r =>
      (.index p.resources.length, { p with resources := p.resources ++ [r] })
  | .decorate index d mode =>
    let p := p.addDecorator d
    p.withResource index fun r =>
      match p.shop.decorate d mode r with
      | .ok r => (.description (p.shop.describe r), { p with resources := p.resources.set index r })
      | .error e => (.failed e, p)
  | .wrap d =>
    let p := p.addDecorator d
    match p.shop.registry.wrap d p.resources with
    | .ok rs => (.debugTexts (rs.map p.shop.registry.debugText), { p with resources := rs })
    | .error e => (.failed e, p)
  | .readMetrics => (.metrics p.scene.measured, p)

end Pipeline

end Reconciler.Simulation
