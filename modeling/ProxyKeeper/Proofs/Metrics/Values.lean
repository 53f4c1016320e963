import Mathlib.Tactic.Common
import ProxyKeeper.Metrics

/-!
# The values of metrics

The values that are reported are a list by name, in which a counter stands only when it is not zero.
Every series has a name of its own, so the value under its name is the number of its events.

## Main Definitions

* `Metrics.value` — the value under the name of a series
* `Metrics.counters` — the names of counters and histograms with what they count

## Main Results

* `Metrics.value_of_counters` — the value of a counter is the number of its events
* `Metrics.operations_eq_countP` — operations of all kinds, as the number of their events
-/

namespace ProxyKeeper

/-- The kinds of operations that are counted. -/
def OperationKind.all : List OperationKind :=
  [.apply, .remove, .sync]

/-- Whether the end of an operation is counted, one that was a success or not. -/
def Event.isOperation (ok : Bool) : Event → Bool
  | .operation _ ok' => ok' = ok
  | _ => false

namespace Metrics

variable (metrics : Metrics)

/-- The value that is reported under the name of a series. -/
def value (metric : Metric) (labels : List (String × String)) : Nat :=
  (metrics.values.lookup (metric.series labels)).getD 0

/-- The names of counters and histograms, with what they count. -/
def counters : List (String × Event) :=
  (OperationKind.all.flatMap fun kind => [true, false].map fun ok =>
    (Metric.operations.series (operationLabels kind ok), .operation kind ok)) ++
  [(Metric.testDuration.series [], .test),
   (Metric.testFailures.series [], .testFailure),
   (Metric.reloadFailures.series [], .reloadFailure),
   (Metric.rollbacks.series [], .rollback)]

/-- The only gauge. -/
def gauges : List (String × Nat) :=
  match metrics.activeRules? with
  | some count => [(Metric.activeRules.series [], count)]
  | none => []

theorem values_eq :
    metrics.values = (counters.flatMap fun (name, event) => metrics.counted name event) ++
      metrics.gauges := by
  cases known : metrics.activeRules? <;>
    simp only [values, counters, gauges, known, OperationKind.all, List.flatMap_cons,
      List.flatMap_nil, List.map_cons, List.map_nil, List.append_nil, List.cons_append,
      List.nil_append, List.append_assoc]

theorem nodup_counters : (counters.map Prod.fst).Nodup := by
  decide +kernel

/-! ## Values by name -/

theorem lookup_counted_self (name : String) (event : Event) :
    ((metrics.counted name event).lookup name).getD 0 = metrics.count event := by
  rw [counted]
  split
  next none => rw [none]; rfl
  next some => simp

theorem lookup_counted_of_ne {name other : String} (apart : name ≠ other) (event : Event) :
    (metrics.counted other event).lookup name = none := by
  rw [counted]
  split
  · rfl
  · rw [List.lookup_cons, beq_false_of_ne apart]
    rfl

/-- In a list in which every name stands for one event, the value under a name is the number of
times that its event occurred. -/
theorem lookup_counted {counters : List (String × Event)}
    (distinct : (counters.map Prod.fst).Nodup) {name : String} {event : Event}
    (listed : (name, event) ∈ counters) :
    ((counters.flatMap fun (name, event) => metrics.counted name event).lookup name).getD 0 =
      metrics.count event := by
  induction counters with
  | nil => cases listed
  | cons counter counters ih =>
    obtain ⟨name', event'⟩ := counter
    obtain ⟨fresh, distinct⟩ := List.nodup_cons.1 distinct
    rw [List.flatMap_cons, List.lookup_append]
    obtain same | later := List.mem_cons.1 listed
    · cases same
      -- what stands further down in the list has another name
      have none : (counters.flatMap fun (name, event) => metrics.counted name event).lookup name =
          none := by
        refine List.lookup_eq_none_iff.2 fun entry inside => ?_
        obtain ⟨⟨name', event'⟩, later, inside⟩ := List.mem_flatMap.1 inside
        have apart : name ≠ name' := by
          rintro rfl
          exact fresh (List.mem_map.2 ⟨_, later, rfl⟩)
        exact List.lookup_eq_none_iff.1 (metrics.lookup_counted_of_ne apart event') entry inside
      rw [none, Option.or_none]
      exact metrics.lookup_counted_self name event
    · have apart : name ≠ name' := by
        rintro rfl
        exact fresh (List.mem_map.2 ⟨_, later, rfl⟩)
      rw [metrics.lookup_counted_of_ne apart, Option.none_or]
      exact ih distinct later

/-- The value of a counter is the number of its events, and that of a histogram the number of its
samples. -/
theorem value_of_counters {metric : Metric} {labels : List (String × String)} {event : Event}
    (listed : (metric.series labels, event) ∈ counters) :
    metrics.value metric labels = metrics.count event := by
  have other : metrics.gauges.lookup (metric.series labels) = none := by
    have apart : ∀ name ∈ counters.map Prod.fst, name ≠ Metric.activeRules.series [] := by
      decide +kernel
    rw [gauges]
    split
    · rw [List.lookup_cons, beq_false_of_ne (apart _ (List.mem_map.2 ⟨_, listed, rfl⟩))]
      rfl
    · rfl
  rw [value, values_eq, List.lookup_append, other, Option.or_none]
  exact metrics.lookup_counted nodup_counters listed

theorem value_operations (kind : OperationKind) (ok : Bool) :
    metrics.value .operations (operationLabels kind ok) = metrics.count (.operation kind ok) := by
  refine metrics.value_of_counters (List.mem_append_left _ ?_)
  refine List.mem_flatMap.2 ⟨kind, ?_, List.mem_map.2 ⟨ok, ?_, rfl⟩⟩
  · cases kind <;> decide
  · cases ok <;> decide

theorem value_testDuration : metrics.value .testDuration [] = metrics.count .test :=
  metrics.value_of_counters (List.mem_append_right _ (by simp))

theorem value_testFailures : metrics.value .testFailures [] = metrics.count .testFailure :=
  metrics.value_of_counters (List.mem_append_right _ (by simp))

theorem value_reloadFailures : metrics.value .reloadFailures [] = metrics.count .reloadFailure :=
  metrics.value_of_counters (List.mem_append_right _ (by simp))

theorem value_rollbacks : metrics.value .rollbacks [] = metrics.count .rollback :=
  metrics.value_of_counters (List.mem_append_right _ (by simp))

/-! ## Operations of all kinds -/

/-- The ends of operations that are counted, by their kinds. -/
theorem countP_operation (ok : Bool) :
    metrics.countP (Event.isOperation ok) =
      metrics.count (.operation .apply ok) + metrics.count (.operation .remove ok) +
        metrics.count (.operation .sync ok) := by
  induction metrics with
  | nil => rfl
  | cons event metrics ih =>
    rw [List.countP_cons, List.count_cons, List.count_cons, List.count_cons, ih]
    cases event with
    | operation kind ok' =>
      cases kind <;> cases ok <;> cases ok' <;> simp [Event.isOperation] <;> omega
    | _ => simp [Event.isOperation]

/-- The values of operations of all kinds with one result. -/
def operations (ok : Bool) : Nat :=
  metrics.value .operations (operationLabels .apply ok) +
    metrics.value .operations (operationLabels .remove ok) +
    metrics.value .operations (operationLabels .sync ok)

theorem operations_eq_countP (ok : Bool) :
    metrics.operations ok = metrics.countP (Event.isOperation ok) := by
  rw [operations, value_operations, value_operations, value_operations, countP_operation]

end Metrics

end ProxyKeeper
