import Reconciler.Simulation.Pipeline

/-!
# Driving a controller

Commands to a world with a controller, and what there is to see after each of them. The commands for
the finalizer bookkeeping and for a definition alone are here too.
-/

namespace Reconciler.Simulation

/-- What a world can be told. -/
inductive WorldCommand where
  /-- Change the store. -/
  | store (c : StoreCommand Unit)
  /-- Change what the list and watch API does. -/
  | api (c : ApiCommand Unit)
  /-- Let time pass. -/
  | advance (d : Duration)
  /-- Cancel the run. -/
  | cancel
  /-- Boot the controller in the background. -/
  | boot
  /-- Run a pass and wait for its end. -/
  | reconcile (pass : Pass) (target : Target Unit)
  /-- Read the metrics. -/
  | readMetrics
  /-- Point to an object. -/
  | refer (target : Target Unit)

/-- What a command leads to. -/
inductive WorldOutcome where
  /-- It cannot be carried out. -/
  | impossible
  /-- Nothing to tell. -/
  | done
  /-- The result of a pass; nothing if it was cut off at a horizon. -/
  | passed (r : Option (Except Error Unit))
  /-- Booting has ended. -/
  | booted (r : Except Error Unit)
  /-- The measurements so far. -/
  | metrics (ms : List Measurement)
  /-- A pointer to an object. -/
  | reference (r : ObjectReference)

/-- What there is to see after a command. -/
structure WorldReport where
  /-- What it led to. -/
  outcome : WorldOutcome
  /-- Calls of resources. -/
  calls : List CallRecord
  /-- Calls of the object client. -/
  client : List StoreCall
  /-- The store. -/
  store : Store Unit
  /-- Failed passes recorded. -/
  published : List (ObjectReference × Failure)
  /-- Calls to the list and watch API. -/
  api : List ApiCall
  /-- Calls about the definition. -/
  schema : List DefinitionRequest
  /-- What was logged. -/
  logged : List LogEntry

namespace Scene

/-- Forget the calls made so far, and what was logged; measurements stay. -/
def clear (s : Scene) : Scene :=
  { s with
    units := { s.units with records := [] }
    store := { s.store with calls := [] }
    definitions := { s.definitions with calls := [] }
    published := []
    signals := (measurements s.signals).map Signal.measure }

end Scene

namespace World

/-- Carry out a command. -/
def obey (w : World) : WorldCommand → WorldOutcome × World
  | .store c => (.done, { w with scene := { w.scene with store := w.scene.store.apply c } })
  | .api c => (.done, { w with site := { w.site with api := w.site.api.apply c } })
  | .advance d => (.done, w.elapse d)
  | .cancel => (.done, w.cancel)
  | .boot => (.done, w.startBoot)
  | .reconcile pass target =>
    match w.scene.store.target? target with
    | some o =>
      let r := runForeground Scene.surroundings patience (w.controller.reconcile pass o) w
      (.passed r.1, r.2)
    | none => (.impossible, w)
  | .readMetrics => (.metrics w.scene.measured, w)
  | .refer target =>
    match w.scene.store.target? target with
    | some o => (.reference (o.reference w.controller.kind), w)
    | none => (.impossible, w)

/-- Booting is over, and how. -/
def booted? (w : World) : Option (Except Error Unit) :=
  match w.boot with
  | some (.staged (.ended r) _) => some r
  | _ => none

/-- Carry out a command, let everything settle, and report. That a boot has ended is told once. -/
def step (w : World) (command : WorldCommand) : WorldReport × World :=
  let obeyed := w.obey command
  let after := obeyed.2.settle
  let told :=
    match command with
    | .boot => none
    | _ => w.booted?
  let outcome :=
    match told, after.booted? with
    | none, some r => .booted r
    | _, _ => obeyed.1
  ({ outcome := outcome
     calls := after.scene.units.records.reverse
     client := after.scene.store.calls.reverse
     store := after.scene.store
     published := after.scene.published.reverse
     api := after.site.api.calls.reverse
     schema := after.scene.definitions.calls.reverse
     logged := (logEntries after.scene.signals).reverse },
    { after with
      site := { after.site with api := { after.site.api with calls := [] } }
      scene := after.scene.clear })

end World

/-- What the finalizer bookkeeping can be told. -/
inductive FinalizerCommand where
  /-- Change the store. -/
  | store (c : StoreCommand Unit)
  /-- Put the finalizer on. -/
  | ensure (target : Target Unit)
  /-- Take the finalizer off. -/
  | remove (target : Target Unit)
  /-- Look whether the finalizer is there. -/
  | look (target : Target Unit)

/-- What a command leads to. -/
inductive FinalizerOutcome where
  /-- It cannot be carried out. -/
  | impossible
  /-- Nothing to tell. -/
  | done
  /-- The result of an edit; nothing if it was cut off at a horizon. -/
  | edited (r : Option (Except Error Unit))
  /-- Whether the finalizer is there. -/
  | found (b : Bool)

/-- Carry out a command of the finalizer bookkeeping. -/
def Scene.editFinalizer (s : Scene) (f : Finalizers) :
    FinalizerCommand → FinalizerOutcome × Scene
  | .store c => (.done, { s with store := s.store.apply c })
  | .ensure target => edit target f.ensure
  | .remove target => edit target f.remove
  | .look target =>
    match s.store.target? target with
    | some o => (.found (o.hasFinalizer f.name), s)
    | none => (.impossible, s)
where
  /-- Run an edit of the object that is meant. -/
  edit (target : Target Unit)
      (p : Object Unit → Program (objectClient Unit) (Except Error Unit)) :
      FinalizerOutcome × Scene :=
    match s.store.target? target with
    | some o =>
      let r := (p o).run Scene.storeSurroundings s
      (.edited r.1, r.2)
    | none => (.impossible, s)

/-- Bring a definition into service; nothing if it was cut off at a horizon. -/
def Scene.establish (s : Scene) (d : Definition) : Option (Except Error Unit) × Scene :=
  d.ensureEstablished.run Scene.definitionSurroundings s

/-- Build the resource sets of a controller, each against what is registered so far. -/
def buildSets (typeName : String) :
    List (Option (Object Unit → Bool) × List Blueprint) → Shop (Object Unit) →
      Except Error (List (ResourceSet unitInterface (Object Unit) Payload Nat) × Shop (Object Unit))
  | [], s => .ok ([], s)
  | (handles, bs) :: rest, s => do
    let built ← buildAll Object.key typeName bs s
    let set ← ResourceSet.ofConfig built.2.registry ⟨handles, built.1⟩
    let others ← buildSets typeName rest built.2
    .ok (set :: others.1, others.2)

end Reconciler.Simulation
