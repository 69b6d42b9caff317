import Reconciler.Telemetry.Metric
import Mathlib.Tactic.Tauto

/-!
# Which series a handle records on

A handle counts calls, counts failures and times calls, each on a series of its own for every
resource and operation. Handles are values, so two of them may have come to the same names. If their
instruments that count calls are the same then so are the others, since the names differ only in
their last part.

## Main definitions

* `OperationMetrics.Shares` : two handles record on the same series
* `OperationMetrics.operationSeries`, `errorSeries`, `durationSeries` : the series

## Main results

* `OperationMetrics.operationSeries_eq_iff` and its siblings : two handles share a series exactly if
  they share all
-/

namespace Reconciler

/-! ### Names -/

/-- What stands before the last part of a name. -/
def namePrefix (first second : String) : String :=
  (if first.isEmpty then "" else first ++ "_") ++ if second.isEmpty then "" else second ++ "_"

theorem metricName_eq {first second last : String} (h : last.isEmpty = false) :
    metricName [first, second, last] = namePrefix first second ++ last := by
  rw [metricName, namePrefix]
  cases hfirst : first.isEmpty <;> cases hsecond : second.isEmpty <;>
    simp [hfirst, hsecond, h, String.append_assoc]

theorem Operation.label_injective : Function.Injective Operation.label := by
  intro a b h
  cases a <;> cases b <;> simp_all [Operation.label]

namespace OperationMetrics

/-! ### Instruments -/

/-- Two handles record on the same series: their instruments are registered as the same, and they
act on behalf of the same service. -/
def Shares (h h' : OperationMetrics) : Prop :=
  h.meter = h'.meter ∧ h.operations = h'.operations ∧ h.service = h'.service

instance (h h' : OperationMetrics) : Decidable (h.Shares h') :=
  inferInstanceAs (Decidable (_ ∧ _ ∧ _))

theorem operations_eq_iff {h h' : OperationMetrics} : h.operations = h'.operations ↔
    namePrefix h.namespaceName h.subsystem = namePrefix h'.namespaceName h'.subsystem := by
  have hlast : "operation_total".isEmpty = false := by decide
  simp [operations, metricName_eq hlast]

theorem errors_eq_iff {h h' : OperationMetrics} : h.errors = h'.errors ↔
    namePrefix h.namespaceName h.subsystem = namePrefix h'.namespaceName h'.subsystem := by
  have hlast : "operation_error_total".isEmpty = false := by decide
  simp [errors, metricName_eq hlast]

theorem duration_eq_iff {h h' : OperationMetrics} : h.duration = h'.duration ↔
    namePrefix h.namespaceName h.subsystem = namePrefix h'.namespaceName h'.subsystem := by
  have hlast : "operation".isEmpty = false := by decide
  simp [duration, metricName_eq hlast]

/-! ### Series -/

/-- The series that counts the calls of an operation. -/
def operationSeries (h : OperationMetrics) (resource : String) (op : Operation) : Measurement :=
  ⟨h.meter, h.operations, h.labels resource op.label⟩

/-- The series that counts those that failed. -/
def errorSeries (h : OperationMetrics) (resource : String) (op : Operation) : Measurement :=
  ⟨h.meter, h.errors, h.labels resource op.label⟩

/-- The series that times them. -/
def durationSeries (h : OperationMetrics) (resource : String) (op : Operation) : Measurement :=
  ⟨h.meter, h.duration, h.labels resource op.label⟩

variable {h h' : OperationMetrics} {resource resource' : String} {op op' : Operation}

theorem labels_eq_iff : h'.labels resource' op'.label = h.labels resource op.label ↔
    h'.service = h.service ∧ resource' = resource ∧ op' = op := by
  simp [labels, Operation.label_injective.eq_iff]

theorem operationSeries_eq_iff : h'.operationSeries resource' op' = h.operationSeries resource op ↔
    h'.Shares h ∧ resource' = resource ∧ op' = op := by
  simp only [operationSeries, Measurement.mk.injEq, labels_eq_iff, Shares]
  tauto

theorem errorSeries_eq_iff : h'.errorSeries resource' op' = h.errorSeries resource op ↔
    h'.Shares h ∧ resource' = resource ∧ op' = op := by
  simp only [errorSeries, Measurement.mk.injEq, labels_eq_iff, Shares, errors_eq_iff,
    operations_eq_iff]
  tauto

theorem durationSeries_eq_iff : h'.durationSeries resource' op' = h.durationSeries resource op ↔
    h'.Shares h ∧ resource' = resource ∧ op' = op := by
  simp only [durationSeries, Measurement.mk.injEq, labels_eq_iff, Shares, duration_eq_iff,
    operations_eq_iff]
  tauto

theorem operationSeries_ne_errorSeries :
    h'.operationSeries resource' op' ≠ h.errorSeries resource op := by
  simp [operationSeries, errorSeries, operations, errors]

theorem operationSeries_ne_durationSeries :
    h'.operationSeries resource' op' ≠ h.durationSeries resource op := by
  simp [operationSeries, durationSeries, operations, duration]

theorem errorSeries_ne_durationSeries :
    h'.errorSeries resource' op' ≠ h.durationSeries resource op := by
  simp [errorSeries, durationSeries, errors, duration]

end OperationMetrics

end Reconciler
