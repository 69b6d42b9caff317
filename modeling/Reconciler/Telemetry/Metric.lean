import Reconciler.Pass

/-!
# Metrics

An instrument is a name with a unit and a description; a measurement is one recording of an
instrument under a set of labels. Counters only ever count by one and histograms are asked how often
they were recorded, so the value of a series is the number of its measurements
(`Metrics.value`), and the state of all instruments is the list of measurements made so far.

The case of a name does not count: instruments of one meter that differ in nothing else are one, and
it goes by the name under which it was registered first (`Metrics.unify`).
-/

namespace Reconciler

/-- A name from its parts, joined by underscores; empty parts are left out. -/
def metricName (parts : List String) : String :=
  String.intercalate "_" (parts.filter fun p => !p.isEmpty)

/-- What an instrument does with a recording. -/
inductive InstrumentKind where
  /-- Adds one. -/
  | counter
  /-- Sorts the recorded value into a distribution. -/
  | histogram
deriving DecidableEq, Inhabited, Repr

/-- Label of an instrument kind. -/
def InstrumentKind.label : InstrumentKind → String
  | .counter => "counter"
  | .histogram => "histogram"

/-- Something that can be recorded. -/
structure Instrument where
  /-- Full name. -/
  name : String
  /-- Unit of the recorded values. -/
  unit : String
  /-- Description for people. -/
  description : String
  /-- What happens with a recording. -/
  kind : InstrumentKind
deriving DecidableEq, Inhabited, Repr

/-- The character may stand in an instrument name. -/
def isNameChar (c : Char) : Bool :=
  c.isAlphanum || c == '_' || c == '.' || c == '-' || c == '/'

/-- Instruments can be registered under this name: it begins with a letter and is short enough. What
is recorded on other instruments is lost. -/
def isInstrumentName (name : String) : Bool :=
  name.toList.head?.any Char.isAlpha && name.toList.all isNameChar && name.utf8ByteSize ≤ 255

/-- The meter that instruments are registered on unless they were given another. -/
def globalMeter : String := "operon"

/-- One recording of an instrument under labels. -/
structure Measurement where
  /-- The meter that the instrument is registered on. -/
  meter : String
  /-- What was recorded. -/
  instrument : Instrument
  /-- Labels of the series. -/
  labels : List (String × String)
deriving DecidableEq, Inhabited, Repr

/-- An instrument on a meter. -/
structure Registration where
  /-- The meter. -/
  meter : String
  /-- The instrument. -/
  instrument : Instrument
deriving DecidableEq, Inhabited, Repr

/-- Two instruments differ in the case of their names at most. -/
def Instrument.isSame (i j : Instrument) : Bool :=
  { i with name := i.name.toLower } == { j with name := j.name.toLower }

/-- Series about the calls of resources, on behalf of one service. -/
structure OperationMetrics where
  /-- Where the series are registered. -/
  meter : String := globalMeter
  /-- First part of the series names. -/
  namespaceName : String
  /-- Second part of the series names. -/
  subsystem : String
  /-- Who runs the resources. -/
  service : String
deriving DecidableEq, Inhabited, Repr

namespace OperationMetrics

/-- Counts the calls. -/
def operations (m : OperationMetrics) : Instrument where
  name := metricName [m.namespaceName, m.subsystem, "operation_total"]
  unit := "\x7boperations\x7d"
  description := "Number of operations executed"
  kind := .counter

/-- Counts the calls that failed. -/
def errors (m : OperationMetrics) : Instrument where
  name := metricName [m.namespaceName, m.subsystem, "operation_error_total"]
  unit := "\x7berrors\x7d"
  description := "Number of operations that returned an error"
  kind := .counter

/-- Times the calls. -/
def duration (m : OperationMetrics) : Instrument where
  name := metricName [m.namespaceName, m.subsystem, "operation"]
  unit := "s"
  description := "Duration of operations in seconds"
  kind := .histogram

/-- What is registered. -/
def registrations (m : OperationMetrics) : List Registration :=
  [⟨m.meter, m.operations⟩, ⟨m.meter, m.errors⟩, ⟨m.meter, m.duration⟩]

/-- Labels of one call. -/
def labels (m : OperationMetrics) (resource operation : String) : List (String × String) :=
  [("service", m.service), ("resource", resource), ("operation", operation)]

/-- Recorded when a call begins. -/
def begun (m : OperationMetrics) (resource operation : String) : List Measurement :=
  [⟨m.meter, m.operations, m.labels resource operation⟩]

/-- Recorded when a call ends. -/
def ended (m : OperationMetrics) (resource operation : String) (succeeded : Bool) :
    List Measurement :=
  ⟨m.meter, m.duration, m.labels resource operation⟩ ::
    if succeeded then [] else [⟨m.meter, m.errors, m.labels resource operation⟩]

end OperationMetrics

/-- Series about the passes and the informer events of one controller. -/
structure ControllerMetrics where
  /-- Where the series are registered. -/
  meter : String := globalMeter
  /-- First part of the series names. -/
  namespaceName : String
  /-- Name of the controller. -/
  controller : String
deriving DecidableEq, Inhabited, Repr

namespace ControllerMetrics

/-- Counts the passes. -/
def reconciles (m : ControllerMetrics) : Instrument where
  name := metricName [m.namespaceName, "controller", "reconcile_total"]
  unit := "\x7breconciles\x7d"
  description := "Number of reconciliation passes"
  kind := .counter

/-- Counts the passes that failed. -/
def errors (m : ControllerMetrics) : Instrument where
  name := metricName [m.namespaceName, "controller", "reconcile_error_total"]
  unit := "\x7berrors\x7d"
  description := "Number of failed reconciliation passes"
  kind := .counter

/-- Times the passes. -/
def duration (m : ControllerMetrics) : Instrument where
  name := metricName [m.namespaceName, "controller", "reconcile_duration_seconds"]
  unit := "s"
  description := "Duration of reconciliation passes in seconds"
  kind := .histogram

/-- Counts the informer events received. -/
def events (m : ControllerMetrics) : Instrument where
  name := metricName [m.namespaceName, "informer", "event_total"]
  unit := "\x7bevents\x7d"
  description := "Number of informer events received"
  kind := .counter

/-- Labels of one pass. -/
def labels (m : ControllerMetrics) (pass : Pass) : List (String × String) :=
  [("controller", m.controller), ("kind", pass.label)]

/-- Recorded when a pass begins. -/
def begun (m : ControllerMetrics) (pass : Pass) : List Measurement :=
  [⟨m.meter, m.reconciles, m.labels pass⟩]

/-- Recorded when a pass ends. -/
def ended (m : ControllerMetrics) (pass : Pass) (succeeded : Bool) : List Measurement :=
  ⟨m.meter, m.duration, m.labels pass⟩ ::
    if succeeded then [] else [⟨m.meter, m.errors, m.labels pass⟩]

/-- Recorded when an event arrives. -/
def received (m : ControllerMetrics) (stream : Stream) : List Measurement :=
  [⟨m.meter, m.events, [("controller", m.controller), ("stream", stream.label)]⟩]

end ControllerMetrics

namespace Metrics

/-- Value of the series that `m` belongs to: how often it was recorded. -/
def value (recorded : List Measurement) (m : Measurement) : Nat := recorded.count m

/-- The measurement as it counts: on the first instrument of its meter that was registered under
this name in any case. -/
def unify (registered : List Registration) (m : Measurement) : Measurement :=
  match registered.find? fun r => r.meter == m.meter && r.instrument.isSame m.instrument with
  | some r => { m with instrument := r.instrument }
  | none => m

/-- The instruments that were recorded, each once, in the order of their first recording. -/
def instruments (recorded : List Measurement) : List Instrument :=
  (recorded.map (·.instrument)).eraseDups

/-- The series of an instrument, each once, with its value. -/
def series (recorded : List Measurement) (i : Instrument) : List (Measurement × Nat) :=
  (recorded.filter fun m => m.instrument == i).eraseDups.map fun m => (m, value recorded m)

end Metrics

end Reconciler
