import ProxyKeeper.Controller.Script
import ProxyKeeper.Controller.Task
import ProxyKeeper.Controller.Turns

/-!
# Timelines

One way to give turns to programs, with a clock that moves only while all programs wait: programs
that can go on do so in the order in which they became able to, each until its next call of the
file system or a call of nginx that takes time; the lock goes to the one that has waited longest.
Calls of nginx follow a script and are given up at their limit. A program with a deadline is
dropped when it has to wait at or after it.

Everything that happens is a step, a reply or a drop of `Turns`.

## Main Definitions

* `Timeline`: the programs with the clock and the order of their turns.
* `Timeline.poll`: the turn of one program.
* `Timeline.run`: all turns.
-/

namespace ProxyKeeper

/-- A call of nginx that takes time. -/
structure Sleeper where
  thread : Nat
  /-- When it ends. -/
  due : Nat
  reply : Nginx.Reply
deriving Inhabited

/-- Programs that take turns in the order of time, in milliseconds. -/
structure Timeline (α : Type) where
  config : ManagerConfig
  turns : Turns α
  script : Script
  clock : Nat := 0
  /-- The programs that can go on, first come first. -/
  queue : List Nat
  /-- The programs that wait for the lock, first come first. -/
  waiting : List Nat := []
  sleeping : List Sleeper := []
  deadlines : List (Option Nat)

namespace Timeline

variable {α : Type}

/-- The deadline of a program. -/
def deadline? (timeline : Timeline α) (i : Nat) : Option Nat :=
  timeline.deadlines[i]?.join

/-- Whether the deadline of a program has come. -/
def isDue (timeline : Timeline α) (i : Nat) : Bool :=
  match timeline.deadline? i with
  | some deadline => deadline ≤ timeline.clock
  | none => false

/-- One step of a program. -/
def step (timeline : Timeline α) (i : Nat) : Timeline α :=
  { timeline with turns := timeline.turns.step i }

/-- Gives a free lock to the program that has waited for it longest. -/
def handOver (timeline : Timeline α) : Timeline α :=
  match timeline.turns.holder, timeline.waiting with
  | none, i :: rest =>
    { timeline.step i with waiting := rest, queue := timeline.queue ++ [i] }
  | _, _ => timeline

/-- Drops a program. -/
def drop (timeline : Timeline α) (i : Nat) : Timeline α :=
  handOver
    { timeline with
      turns := timeline.turns.drop i
      queue := timeline.queue.filter (· != i)
      waiting := timeline.waiting.filter (· != i)
      sleeping := timeline.sleeping.filter (·.thread != i)
      script := { timeline.script with running := 0 } }

/-- A program has to wait; it is dropped if its deadline has come. -/
def pause (timeline : Timeline α) (i : Nat) : Timeline α :=
  if timeline.isDue i then timeline.drop i else timeline

/-- The number of milliseconds after which a call is given up. -/
def patience (call : Nginx.Call) : Nat :=
  1000 * call.limit.toNat

/-- The turn of a program, from its next request on. -/
def poll (i : Nat) : Program α → Timeline α → Timeline α
  | .done _, timeline => timeline.step i
  | .ask (.file _) _, timeline =>
    let timeline := timeline.step i
    { timeline with queue := timeline.queue ++ [i] }.pause i
  | .ask (.nginx call) next, timeline =>
    let (scripted, script, world) :=
      timeline.script.begin timeline.config call timeline.turns.world
    let timeline :=
      { timeline with script := script, turns := { timeline.turns.step i with world := world } }
    if scripted.delay = 0 then
      poll i (next scripted.reply)
        { timeline with
          turns := timeline.turns.reply i scripted.reply
          script := timeline.script.finish }
    else
      let sleeper : Sleeper :=
        if patience call < scripted.delay then ⟨i, timeline.clock + patience call, .timedOut⟩
        else ⟨i, timeline.clock + scripted.delay, scripted.reply⟩
      { timeline with sleeping := timeline.sleeping ++ [sleeper] }.pause i
  | .ask .acquire next, timeline =>
    if timeline.turns.holder.isNone then poll i (next ()) (timeline.step i)
    else { timeline with waiting := timeline.waiting ++ [i] }.pause i
  | .ask .release next, timeline => poll i (next ()) (timeline.step i).handOver
  | .ask (.publish _) next, timeline => poll i (next ()) (timeline.step i)
  | .ask (.count _ _) next, timeline => poll i (next ()) (timeline.step i)
  | .ask .freshName next, timeline =>
    poll i (next (World.freshName timeline.turns.world.freshNames)) (timeline.step i)

/-- Whether a program has still to end. -/
def isOpen : Thread α → Bool
  | .ready _ => true
  | .calling _ _ => true
  | .finished _ => false
  | .dropped => false

/-- The programs that have still to end. -/
def openThreads (timeline : Timeline α) : List Nat :=
  (List.range timeline.turns.threads.length).filter fun i =>
    (timeline.turns.threads[i]?.map isOpen).getD false

/-- When something happens next, while all programs wait. -/
def nextTime? (timeline : Timeline α) : Option Nat :=
  (timeline.sleeping.map (·.due) ++ timeline.openThreads.filterMap timeline.deadline?).min?

/-- A call of nginx ends because its time has come. -/
def wake (timeline : Timeline α) (sleeper : Sleeper) : Timeline α :=
  { timeline with
    turns := timeline.turns.reply sleeper.thread sleeper.reply
    queue := timeline.queue ++ [sleeper.thread]
    script :=
      if sleeper.reply = .timedOut then timeline.script else timeline.script.finish }

/-- Moves the clock to a point in time: the calls whose time has come end, and the programs that
still have to wait at their deadline are dropped. -/
def advance (timeline : Timeline α) (time : Nat) : Timeline α :=
  let woken := timeline.sleeping.filter fun s => s.due ≤ time
  let timeline :=
    { timeline with
      clock := time
      sleeping := timeline.sleeping.filter fun s => !decide (s.due ≤ time) }
  let timeline := woken.foldl wake timeline
  let late := timeline.openThreads.filter fun i => timeline.isDue i && !timeline.queue.contains i
  late.foldl drop timeline

/-- Gives turns until all programs have ended, at most `count` times. -/
def run : (count : Nat) → Timeline α → Timeline α
  | 0, timeline => timeline
  | count + 1, timeline =>
    match timeline.queue with
    | i :: rest =>
      let timeline : Timeline α := { timeline with queue := rest }
      match timeline.turns.threads[i]? with
      | some (.ready program) => run count (poll i program timeline)
      | _ => run count timeline
    | [] =>
      match timeline.nextTime? with
      | some time => run count (timeline.advance time)
      | none => timeline

end Timeline

/-- What is asked of a controller at one time, each with the number of milliseconds after which it
is dropped. -/
abbrev Agenda := List (Task × Option Nat)

/-- How many turns an agenda takes at most. -/
def Agenda.turns (agenda : Agenda) (tree : Tree) : Nat :=
  let entries := agenda.foldl (fun n (task, _) => n + task.size) tree.entries.length
  2 * agenda.foldl (fun n (task, _) => n + task.turns entries) 4

/-- Carries out what is asked of a controller at one time; `none` stands for what was dropped. -/
def Controller.serve (controller : Controller) (agenda : Agenda) (script : Script)
    (world : World) : List (Option TaskResult) × Script × World :=
  let timeline : Timeline TaskResult :=
    { config := controller.config
      turns :=
        { world := world
          threads := agenda.map fun (task, _) => .ready (task.program controller) }
      script := script
      queue := List.range agenda.length
      deadlines := agenda.map Prod.snd }
  let ended := timeline.run (agenda.turns world.tree)
  (ended.turns.threads.map fun
    | .finished result => some result
    | _ => none,
   ended.script, ended.turns.world)

end ProxyKeeper
