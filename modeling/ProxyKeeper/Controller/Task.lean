import ProxyKeeper.Controller.Basic

/-!
# Tasks

What a controller can be asked to do, as data, with the program that does it and its result.

## Main Definitions

* `Task`, `TaskResult`: the tasks and their results.
* `Task.program`: the program of a task.
* `Task.turns`: a bound on the turns a task takes among others.
-/

namespace ProxyKeeper

/-- Something a controller can be asked to do. -/
inductive Task where
  | apply (rule : Rule)
  | remove (id : String)
  | sync (rules : List Rule)
  | bootstrap
  | status
  | gate
  | list
deriving DecidableEq

/-- What comes of a task. -/
inductive TaskResult where
  | applied (result : Except OperationError Rule)
  | removed (result : Except OperationError Bool)
  | synced (result : Except OperationError SyncReport)
  | bootstrapped (result : Except OperationError Bool)
  | status (status : NginxStatus)
  | gate (outcome : GateOutcome)
  | listed (result : Except OperationError (List String))

namespace Task

/-- The program of a task. -/
def program (controller : Controller) : Task → Program TaskResult
  | .apply rule => return .applied (← (controller.apply rule).run)
  | .remove id => return .removed (← (controller.remove id).run)
  | .sync rules => return .synced (← (controller.sync rules).run)
  | .bootstrap => return .bootstrapped (← controller.bootstrap.run)
  | .status => return .status (← controller.status)
  | .gate => return .gate (← controller.gate)
  | .list => return .listed (← controller.store.list.run)

/-- How many rules a task is about. -/
def size : Task → Nat
  | .sync rules => rules.length
  | _ => 1

/-- A bound on the turns that a task takes in a tree with `entries` entries: a rule, or a file
that is removed, is read, written and put back in less than thirty calls, and edits from outside may
add to them. -/
def turns (entries : Nat) (task : Task) : Nat :=
  64 * (task.size + entries + 4)

end Task

end ProxyKeeper
