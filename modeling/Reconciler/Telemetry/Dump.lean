import Reconciler.Telemetry.Metric
import Reconciler.Text.Json

/-!
# Metric dumps

All series recorded so far, in an order that does not depend on when they were recorded: instruments
by name, series by the compact JSON text of their labels with sorted keys.
-/

namespace Reconciler.Metrics

/-- One series of an instrument. -/
structure Point where
  /-- Labels, sorted by key. -/
  labels : List (String × String)
  /-- How often it was recorded. -/
  value : Nat
deriving DecidableEq, Repr

/-- All series of an instrument. -/
structure Readout where
  /-- The instrument. -/
  instrument : Instrument
  /-- Its series. -/
  points : List Point
deriving DecidableEq, Repr

/-- Labels sorted by key. -/
def sortLabels (labels : List (String × String)) : List (String × String) :=
  labels.mergeSort fun a b => decide (a.1 ≤ b.1)

/-- The series of an instrument in order. -/
def points (recorded : List Measurement) (i : Instrument) : List Point :=
  ((series recorded i).map fun s => (⟨sortLabels s.1.labels, s.2⟩ : Point)).mergeSort fun a b =>
    decide ((Text.Json.ofTexts a.labels).compact ≤ (Text.Json.ofTexts b.labels).compact)

/-- All instruments of a meter that were recorded, in order. -/
def dump (meter : String) (all : List Measurement) : List Readout :=
  let recorded := all.filter fun m => m.meter == meter && isInstrumentName m.instrument.name
  ((instruments recorded).map fun i => (⟨i, points recorded i⟩ : Readout)).mergeSort fun a b =>
    decide (a.instrument.name ≤ b.instrument.name)

end Reconciler.Metrics
