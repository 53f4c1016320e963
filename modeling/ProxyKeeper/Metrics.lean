/-!
# Metrics

What is counted while the controller works. It is counted twice: the metrics are reported for the
whole process, and the controller keeps three numbers of its own. The events of the metrics are
kept as they come, and their values are views of them; the numbers are only counted up.

## Main Definitions

* `Event`: what the metrics count.
* `Metrics`: the events so far; `Metrics.values`: the views.
* `Metric`: the metrics with their names and descriptions.
* `Tally`, `Tallies`: the numbers of the controller.
-/

namespace ProxyKeeper

/-- The operations that are counted. -/
inductive OperationKind where
  | apply
  | remove
  | sync
deriving DecidableEq, Inhabited

/-- The name of an operation. -/
def OperationKind.name : OperationKind → String
  | .apply => "apply"
  | .remove => "remove"
  | .sync => "sync"

/-- Something that is counted. -/
inductive Event where
  /-- An operation has ended. -/
  | operation (kind : OperationKind) (ok : Bool)
  /-- nginx was asked to check the configuration. -/
  | test
  /-- nginx refused the configuration, or did not answer. -/
  | testFailure
  /-- nginx did not take up a configuration that it accepts. -/
  | reloadFailure
  /-- Rule files are put back. -/
  | rollback
  /-- The number of rule files is known. -/
  | activeRules (count : Nat)
deriving DecidableEq, Inhabited

/-- The kinds of metrics. -/
inductive MetricKind where
  | counter
  | gauge
  | histogram
deriving DecidableEq, Inhabited

/-- The name of a kind. -/
def MetricKind.name : MetricKind → String
  | .counter => "counter"
  | .gauge => "gauge"
  | .histogram => "histogram"

/-- A metric. -/
structure Metric where
  kind : MetricKind
  name : String
  description : String

namespace Metric

/-- Operations, by kind and result. -/
def operations : Metric :=
  ⟨.counter, "dockgate_nginx_operations_total",
   "Total number of configuration operations by operation and result"⟩

/-- Configurations that nginx refused. -/
def testFailures : Metric :=
  ⟨.counter, "dockgate_nginx_test_failures_total",
   "Total number of rejected nginx configuration tests"⟩

/-- Configurations that nginx accepted and did not take up. -/
def reloadFailures : Metric :=
  ⟨.counter, "dockgate_nginx_reload_failures_total",
   "Total number of failed nginx reloads after a passing test"⟩

/-- Times that rule files were put back. -/
def rollbacks : Metric :=
  ⟨.counter, "dockgate_nginx_rollbacks_total", "Total number of configuration rollbacks"⟩

/-- How long nginx took to check. -/
def testDuration : Metric :=
  ⟨.histogram, "dockgate_nginx_test_duration_seconds",
   "Time spent running the nginx configuration test"⟩

/-- Rule files there are. -/
def activeRules : Metric :=
  ⟨.gauge, "dockgate_nginx_active_rules",
   "Number of rule files in the active configuration directory"⟩

/-- All metrics, by kind and name. -/
def all : List Metric :=
  [operations, reloadFailures, rollbacks, testFailures, activeRules, testDuration]

/-- The name of a metric with its labels. -/
def series (metric : Metric) (labels : List (String × String)) : String :=
  metric.name ++ "\x7b" ++
    ",".intercalate (labels.map fun (label, value) => label ++ "=" ++ value) ++ "\x7d"

end Metric

/-- The labels of the count of operations of one kind with one result. -/
def operationLabels (kind : OperationKind) (ok : Bool) : List (String × String) :=
  [("operation", kind.name), ("result", if ok then "success" else "failure")]

/-- The events so far, in their order. -/
abbrev Metrics := List Event

namespace Metrics

/-- The number of rule files when it was last known. -/
def activeRules? (metrics : Metrics) : Option Nat :=
  metrics.reverse.findSome? fun
    | .activeRules count => some count
    | _ => none

/-- How often an event occurred, under the name of its series; nothing for one that did not. -/
def counted (metrics : Metrics) (series : String) (event : Event) : List (String × Nat) :=
  match metrics.count event with
  | 0 => []
  | n => [(series, n)]

/-- The values of all series that have one: sums of counters, values of gauges, numbers of samples
of histograms. -/
def values (metrics : Metrics) : List (String × Nat) :=
  ([OperationKind.apply, .remove, .sync].flatMap fun kind =>
    [true, false].flatMap fun ok =>
      metrics.counted (Metric.operations.series (operationLabels kind ok)) (.operation kind ok)) ++
  metrics.counted (Metric.testDuration.series []) .test ++
  metrics.counted (Metric.testFailures.series []) .testFailure ++
  metrics.counted (Metric.reloadFailures.series []) .reloadFailure ++
  metrics.counted (Metric.rollbacks.series []) .rollback ++
  match metrics.activeRules? with
  | some count => [(Metric.activeRules.series [], count)]
  | none => []

end Metrics

/-- What the controller counts itself. -/
inductive Tally where
  /-- Operations that succeeded. -/
  | applies
  /-- Operations that failed. -/
  | failures
  /-- Times that rule files were put back. -/
  | rollbacks
deriving DecidableEq, Inhabited

/-- The numbers that the controller has counted to. -/
structure Tallies where
  applies : Nat := 0
  failures : Nat := 0
  rollbacks : Nat := 0
deriving DecidableEq, Inhabited

/-- What an operation is counted in that has ended. -/
def Tally.ofOk (ok : Bool) : Tally :=
  if ok then .applies else .failures

namespace Tallies

/-- The number that was counted to. -/
def value (tallies : Tallies) : Tally → Nat
  | .applies => tallies.applies
  | .failures => tallies.failures
  | .rollbacks => tallies.rollbacks

/-- Counts one up. -/
def up (tallies : Tallies) : Tally → Tallies
  | .applies => { tallies with applies := tallies.applies + 1 }
  | .failures => { tallies with failures := tallies.failures + 1 }
  | .rollbacks => { tallies with rollbacks := tallies.rollbacks + 1 }

/-- Counts one up, if there is one to count. -/
def up? (tallies : Tallies) (tally : Option Tally) : Tallies :=
  tally.elim tallies tallies.up

theorem value_up (tallies : Tallies) (counted tally : Tally) :
    (tallies.up counted).value tally = tallies.value tally + [counted].count tally := by
  cases counted <;> cases tally <;> rfl

theorem value_up? (tallies : Tallies) (counted : Option Tally) (tally : Tally) :
    (tallies.up? counted).value tally = tallies.value tally + counted.toList.count tally := by
  cases counted with
  | none => rfl
  | some counted => exact tallies.value_up counted tally

end Tallies

end ProxyKeeper
