import ProxyKeeper.World

/-!
# Taking turns

Several programs in one world, each doing one request at a time. Which one is next is not decided
here: a turn is given to a program by its number. The lock has at most one holder, and a program
that asks for it while it is held makes no progress. A call of nginx takes time: it begins in one
turn, others may have theirs, and it ends with a reply.

A program can be dropped. If it held the lock, the phase goes back to idle and the lock is free.

## Main Definitions

* `Thread`, `Turns`: the programs and what they share.
* `Turns.step`: the next request of a program.
* `Turns.fail`: the failure of a call of the file system.
* `Turns.reply`: the end of a call of nginx.
* `Turns.drop`: the end of a program before its time.
* `Turn`, `Turns.takeAll`: everything that can happen, in any order.
-/

namespace ProxyKeeper

/-- A program on its way. -/
inductive Thread (α : Type) where
  | ready (program : Program α)
  /-- Waits for nginx. -/
  | calling (call : Nginx.Call) (next : Nginx.Reply → Program α)
  | finished (result : α)
  | dropped

/-- Programs that share a world. -/
structure Turns (α : Type) where
  world : World
  /-- The number of the program that holds the lock. -/
  holder : Option Nat := none
  threads : List (Thread α)

namespace Turns

variable {α : Type}

/-- The programs with one of them replaced. -/
def put (turns : Turns α) (i : Nat) (thread : Thread α) : Turns α :=
  { turns with threads := turns.threads.set i thread }

/-- The next request of a program; nothing happens while it cannot be answered. -/
def step (turns : Turns α) (i : Nat) : Turns α :=
  match turns.threads[i]? with
  | some (.ready (.done a)) => turns.put i (.finished a)
  | some (.ready (.ask .acquire next)) =>
    if turns.holder.isNone then { turns.put i (.ready (next ())) with holder := some i } else turns
  | some (.ready (.ask .release next)) => { turns.put i (.ready (next ())) with holder := none }
  | some (.ready (.ask (.nginx call) next)) => turns.put i (.calling call next)
  | some (.ready (.ask request next)) =>
    let (given, world) := turns.world.answer World.withoutNginx request
    { turns.put i (.ready (next given)) with world := world }
  | _ => turns

/-- The next request of a program is a call of the file system that fails and changes nothing. -/
def fail (turns : Turns α) (i : Nat) (fault : IoFault) : Turns α :=
  match turns.threads[i]? with
  | some (.ready (.ask (.file _) next)) => turns.put i (.ready (next (.error fault)))
  | _ => turns

/-- A call of nginx ends. -/
def reply (turns : Turns α) (i : Nat) (given : Nginx.Reply) : Turns α :=
  match turns.threads[i]? with
  | some (.calling _ next) => turns.put i (.ready (next given))
  | _ => turns

/-- A program ends before its time. -/
def drop (turns : Turns α) (i : Nat) : Turns α :=
  if turns.holder = some i then
    { turns.put i .dropped with holder := none, world := { turns.world with phase := .idle } }
  else turns.put i .dropped

end Turns

/-- What can happen to a program among others. -/
inductive Turn where
  /-- Its next request is answered. -/
  | step (i : Nat)
  /-- Its next request, a call of the file system, fails. -/
  | fail (i : Nat) (fault : IoFault)
  /-- nginx replies to it. -/
  | reply (i : Nat) (given : Nginx.Reply)
  /-- It ends before its time. -/
  | drop (i : Nat)
deriving DecidableEq

namespace Turns

variable {α : Type}

/-- The programs after a turn. -/
def take (turns : Turns α) : Turn → Turns α
  | .step i => turns.step i
  | .fail i fault => turns.fail i fault
  | .reply i given => turns.reply i given
  | .drop i => turns.drop i

/-- The programs after several turns. -/
def takeAll (turns : Turns α) (history : List Turn) : Turns α :=
  history.foldl take turns

end Turns

end ProxyKeeper
