import ProxyKeeper.Controller.Turns
import ProxyKeeper.Proofs.Store.Requests

/-!
# What happens among programs

Programs that take turns leave a record: who asked for what, and which files there were. A turn is
one of those of `Turn`, or a failure of the file system of the worst kind: the call fails and leaves
any files whatsoever behind.

## Main Definitions

* `Move`, `Turns.move`, `Turns.moveAll` — what can happen, and its effect
* `Deed`, `Occurrence`, `Turns.record` — what is recorded of it
* `Turns.Happens` — one move, by what it does to whom

## Main Results

* `Turns.happens_move` — every move does one of these things
* `Turns.Happens.tree_eq` — files change only in a recorded call that may change them
-/

namespace ProxyKeeper

/-- What can happen to a program among others. -/
inductive Move where
  | turn (turn : Turn)
  /-- Its next request, a call that may change files, fails and leaves some files behind. -/
  | mishap (i : Nat) (fault : IoFault) (left : Tree)

/-- What a program does that others may notice. -/
inductive Deed where
  /-- A call of the file system, whether it fails or not. -/
  | file (call : FileCall)
  /-- A call of nginx begins. -/
  | begins (call : Nginx.Call)
  /-- A call of nginx ends. -/
  | ends (call : Nginx.Call) (reply : Nginx.Reply)

/-- Whether files may change in a deed. -/
def Deed.changes : Deed → Bool
  | .file call => call.changes
  | .begins _ => false
  | .ends _ _ => false

/-- A deed, the number of the program that does it, and the files there are just before. -/
structure Occurrence where
  who : Nat
  deed : Deed
  tree : Tree

namespace Turns

variable {α : Type}

/-- A call that may change files fails and leaves some files behind. -/
def mishap (turns : Turns α) (i : Nat) (fault : IoFault) (left : Tree) : Turns α :=
  match turns.threads[i]? with
  | some (.ready (.ask (.file call) next)) =>
    if call.changes then
      { turns.put i (.ready (next (.error fault))) with world := { turns.world with tree := left } }
    else turns
  | _ => turns

/-- The programs after a move. -/
def move (turns : Turns α) : Move → Turns α
  | .turn turn => turns.take turn
  | .mishap i fault left => turns.mishap i fault left

/-- The programs after several moves. -/
def moveAll (turns : Turns α) (moves : List Move) : Turns α :=
  moves.foldl move turns

/-- What a program does when its next request is answered. -/
def deedOf? : Option (Thread α) → Option Deed
  | some (.ready (.ask (.file call) _)) => some (.file call)
  | some (.ready (.ask (.nginx call) _)) => some (.begins call)
  | _ => none

/-- What is recorded of a move. -/
def occurrence? (turns : Turns α) : Move → Option Occurrence
  | .turn (.step i) => (deedOf? turns.threads[i]?).map (⟨i, ·, turns.world.tree⟩)
  | .turn (.fail i _) =>
    match turns.threads[i]? with
    | some (.ready (.ask (.file call) _)) => some ⟨i, .file call, turns.world.tree⟩
    | _ => none
  | .turn (.reply i reply) =>
    match turns.threads[i]? with
    | some (.calling call _) => some ⟨i, .ends call reply, turns.world.tree⟩
    | _ => none
  | .turn (.drop _) => none
  | .mishap i _ _ =>
    match turns.threads[i]? with
    | some (.ready (.ask (.file call) _)) =>
      if call.changes then some ⟨i, .file call, turns.world.tree⟩ else none
    | _ => none

/-- What is recorded of several moves. -/
def record (turns : Turns α) : List Move → List Occurrence
  | [] => []
  | first :: moves => (turns.occurrence? first).toList ++ (turns.move first).record moves

theorem record_append (turns : Turns α) (front back : List Move) :
    turns.record (front ++ back) = turns.record front ++ (turns.moveAll front).record back := by
  induction front generalizing turns with
  | nil => rfl
  | cons first moves ih =>
    rw [List.cons_append, record, record, ih, List.append_assoc]
    rfl

/-- One move, by what it does to whom. -/
inductive Happens (turns : Turns α) : Option Occurrence → Turns α → Prop where
  /-- Nothing can be done. -/
  | idles : Happens turns none turns
  | finishes {i : Nat} {a : α} (here : turns.threads[i]? = some (.ready (.done a))) :
    Happens turns none (turns.put i (.finished a))
  | acquires {i : Nat} {next : Unit → Program α}
    (here : turns.threads[i]? = some (.ready (.ask .acquire next))) (free : turns.holder = none) :
    Happens turns none { turns.put i (.ready (next ())) with holder := some i }
  | releases {i : Nat} {next : Unit → Program α}
    (here : turns.threads[i]? = some (.ready (.ask .release next))) :
    Happens turns none { turns.put i (.ready (next ())) with holder := none }
  | begins {i : Nat} {call : Nginx.Call} {next : Nginx.Reply → Program α}
    (here : turns.threads[i]? = some (.ready (.ask (.nginx call) next))) :
    Happens turns (some ⟨i, .begins call, turns.world.tree⟩) (turns.put i (.calling call next))
  | ends {i : Nat} {call : Nginx.Call} {next : Nginx.Reply → Program α}
    (here : turns.threads[i]? = some (.calling call next)) (reply : Nginx.Reply) :
    Happens turns (some ⟨i, .ends call reply, turns.world.tree⟩)
      (turns.put i (.ready (next reply)))
  /-- A call of the file system is answered in any way; it changes files only when it may. -/
  | files {i : Nat} {call : FileCall} {next : call.Answer → Program α}
    (here : turns.threads[i]? = some (.ready (.ask (.file call) next))) (answer : call.Answer)
    (left : Tree) (kept : call.changes = false → left = turns.world.tree) :
    Happens turns (some ⟨i, .file call, turns.world.tree⟩)
      { turns.put i (.ready (next answer)) with world := { turns.world with tree := left } }
  | names {i : Nat} {next : String → Program α}
    (here : turns.threads[i]? = some (.ready (.ask .freshName next))) :
    Happens turns none
      { turns.put i (.ready (next (World.freshName turns.world.freshNames))) with
        world := { turns.world with freshNames := turns.world.freshNames + 1 } }
  | publishes {i : Nat} {phase : Phase} {next : Unit → Program α}
    (here : turns.threads[i]? = some (.ready (.ask (.publish phase) next))) :
    Happens turns none
      { turns.put i (.ready (next ())) with world := { turns.world with phase := phase } }
  | counts {i : Nat} {event : Event} {tally : Option Tally} {next : Unit → Program α}
    (here : turns.threads[i]? = some (.ready (.ask (.count event tally) next))) :
    Happens turns none
      { turns.put i (.ready (next ())) with
        world := { turns.world with
          metrics := turns.world.metrics ++ [event]
          tallies := turns.world.tallies.up? tally } }
  /-- A program ends before its time; with it goes the lock, if it was the holder. -/
  | drops (i : Nat) : Happens turns none (turns.drop i)

theorem happens_step (turns : Turns α) (i : Nat) :
    turns.Happens (turns.occurrence? (.turn (.step i))) (turns.step i) := by
  rw [occurrence?, step]
  cases here : turns.threads[i]? with
  | none => exact .idles
  | some thread =>
    cases thread with
    | calling call next => exact .idles
    | finished a => exact .idles
    | dropped => exact .idles
    | ready program =>
      cases program with
      | done a => exact .finishes here
      | ask request next =>
        cases request with
        | file call =>
          refine .files here _ _ fun looks => ?_
          exact turns.world.tree.perform_of_not_changes looks
        | nginx call => exact .begins here
        | freshName => exact .names here
        | acquire =>
          dsimp only
          split
          next free => exact .acquires here (Option.isNone_iff_eq_none.1 free)
          next => exact .idles
        | release => exact .releases here
        | publish phase => exact .publishes here
        | count event tally => exact .counts here

theorem happens_fail (turns : Turns α) (i : Nat) (fault : IoFault) :
    turns.Happens (turns.occurrence? (.turn (.fail i fault))) (turns.fail i fault) := by
  rw [occurrence?, fail]
  cases here : turns.threads[i]? with
  | none => exact .idles
  | some thread =>
    cases thread with
    | calling call next => exact .idles
    | finished a => exact .idles
    | dropped => exact .idles
    | ready program =>
      cases program with
      | done a => exact .idles
      | ask request next =>
        cases request with
        | file call => exact .files here (.error fault) _ fun _ => rfl
        | _ => exact .idles

theorem happens_mishap (turns : Turns α) (i : Nat) (fault : IoFault) (left : Tree) :
    turns.Happens (turns.occurrence? (.mishap i fault left)) (turns.mishap i fault left) := by
  rw [occurrence?, mishap]
  cases here : turns.threads[i]? with
  | none => exact .idles
  | some thread =>
    cases thread with
    | calling call next => exact .idles
    | finished a => exact .idles
    | dropped => exact .idles
    | ready program =>
      cases program with
      | done a => exact .idles
      | ask request next =>
        cases request with
        | file call =>
          dsimp only
          split
          next changes =>
            -- a call that fails on the way leaves what it likes, unless it only looks
            refine .files here (.error fault) left fun looks => ?_
            rw [looks] at changes
            exact absurd changes Bool.noConfusion
          next => exact .idles
        | _ => exact .idles

theorem happens_reply (turns : Turns α) (i : Nat) (reply : Nginx.Reply) :
    turns.Happens (turns.occurrence? (.turn (.reply i reply))) (turns.reply i reply) := by
  rw [occurrence?, Turns.reply]
  cases here : turns.threads[i]? with
  | none => exact .idles
  | some thread =>
    cases thread with
    | calling call next => exact .ends here reply
    | _ => exact .idles

/-- Every move does one of the things that can happen. -/
theorem happens_move (turns : Turns α) (move : Move) :
    turns.Happens (turns.occurrence? move) (turns.move move) := by
  cases move with
  | mishap i fault left => exact turns.happens_mishap i fault left
  | turn turn =>
    cases turn with
    | step i => exact turns.happens_step i
    | fail i fault => exact turns.happens_fail i fault
    | reply i reply => exact turns.happens_reply i reply
    | drop i => exact .drops i

/-- Files change only in a recorded call that may change them. -/
theorem Happens.tree_eq {turns turns' : Turns α} {occurrence : Option Occurrence}
    (h : turns.Happens occurrence turns') (looks : ∀ o ∈ occurrence, o.deed.changes = false) :
    turns'.world.tree = turns.world.tree := by
  cases h with
  | files here answer left kept => exact kept (looks _ rfl)
  | drops i =>
    rw [drop]
    split <;> rfl
  | _ => rfl

/-- What is recorded carries the files there are. -/
theorem Happens.tree_of_mem {turns turns' : Turns α} {o : Occurrence}
    (h : turns.Happens (some o) turns') : o.tree = turns.world.tree := by
  cases h <;> rfl

end Turns

end ProxyKeeper
