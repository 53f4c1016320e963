import ProxyKeeper.Host.Basic
import ProxyKeeper.Proofs.Controller.Stage
import ProxyKeeper.Proofs.Program.Outcomes

/-!
# What commands leave alone

A script changes files through its redirections only, for the utilities write nothing but their
outputs. So a command line without such redirections leaves the files of its host as they are, and
what a controller does on a host with commands of this kind is what it does by itself against the
replies that they give. The fact that carries the module is `Machine.goes_run`, by induction along
the command: a shell goes on from one state to the next with its name and its arguments, adds to its
outputs, and has no more time left than before.

## Main Definitions

* `Redirection.writes`, `Command.writes` — whether a command has a redirection into a file
* `Machine.Goes` — how a shell goes on
* `Host.scriptOf?`, `Host.IsQuiet` — the script of a command line, and a line whose script writes no
  files
* `NginxModel.Spares` — a call of nginx that leaves the world as it is

## Main Results

* `Machine.goes_run` — how a shell goes on while it runs a command
* `Host.spawn_tree` — a quiet command line leaves the files as they are
* `Program.exists_against` — a program whose calls of nginx leave the world as it is runs as it does
  against the replies to them
* `Task.exists_against` — the tasks of a controller on a host whose commands are quiet
-/

namespace ProxyKeeper

namespace Shell

/-- Whether a redirection leads into a file. -/
def Redirection.writes (redirection : Redirection) : Bool :=
  match redirection.target with
  | .file _ _ => true
  | .input _ => false
  | .output _ => false

/-- Whether a command has a redirection into a file, at any place. -/
def Command.writes : Command → Bool
  | .skip => false
  | .simple _ redirections => redirections.any Redirection.writes
  | .sequence first second => first.writes || second.writes
  | .both first second => first.writes || second.writes
  | .either first second => first.writes || second.writes
  | .negate command => command.writes
  | .choose test yes no => test.writes || yes.writes || no.writes
  | .select _ _ body rest => body.writes || rest.writes

namespace Machine

/-- Whether an output goes into a file. -/
def Sink.isFile : Sink → Bool
  | .file _ => true
  | _ => false

/-- Whether one of the outputs goes into a file. -/
def Sinks.isFile (sinks : Sinks) : Bool :=
  sinks.out.isFile || sinks.err.isFile

theorem Sinks.isFile_get {sinks : Sinks} (quiet : sinks.isFile = false) (number : Nat) :
    (sinks.get number).isFile = false := by
  obtain ⟨out, err⟩ := Bool.or_eq_false_iff.1 quiet
  rw [get]
  split
  · exact err
  · exact out

theorem Sinks.isFile_set {sinks : Sinks} (quiet : sinks.isFile = false) (number : Nat) {sink : Sink}
    (other : sink.isFile = false) : (sinks.set number sink).isFile = false := by
  obtain ⟨out, err⟩ := Bool.or_eq_false_iff.1 quiet
  rw [set]
  split
  · exact Bool.or_eq_false_iff.2 ⟨out, other⟩
  · exact Bool.or_eq_false_iff.2 ⟨other, err⟩

/-- How a shell goes on: it adds to its outputs, and it leaves the files as they are if it `keeps`
them. -/
structure Goes (keeps : Prop) (machine after : Machine) : Prop where
  name : after.name = machine.name
  args : after.args = machine.args
  stdout : ∃ more, after.stdout = machine.stdout ++ more
  stderr : ∃ more, after.stderr = machine.stderr ++ more
  left : after.left ≤ machine.left
  tree : keeps → after.tree = machine.tree

namespace Goes

variable {keeps : Prop} {machine between after : Machine}

/-- A shell of which only the status, the end or the time that is over may be another. -/
theorem of_status {status : Nat} {overdue : Bool} {ended : Option Ending} :
    machine.Goes keeps { machine with status, overdue, ended } :=
  ⟨rfl, rfl, ⟨.empty, ByteArray.append_empty.symm⟩, ⟨.empty, ByteArray.append_empty.symm⟩,
    Nat.le_refl _, fun _ => rfl⟩

theorem refl (machine : Machine) : machine.Goes keeps machine :=
  of_status

/-- A shell that does not keep its files may have others. -/
theorem of_written {tree : Tree} (writes : ¬ keeps) : machine.Goes keeps { machine with tree } :=
  { (refl machine : machine.Goes True machine) with tree := fun kept => absurd kept writes }

theorem trans (first : machine.Goes keeps between) (second : between.Goes keeps after) :
    machine.Goes keeps after where
  name := second.name.trans first.name
  args := second.args.trans first.args
  stdout := by
    obtain ⟨front, out⟩ := first.stdout
    obtain ⟨back, out'⟩ := second.stdout
    exact ⟨front ++ back, by rw [out', out, ByteArray.append_assoc]⟩
  stderr := by
    obtain ⟨front, err⟩ := first.stderr
    obtain ⟨back, err'⟩ := second.stderr
    exact ⟨front ++ back, by rw [err', err, ByteArray.append_assoc]⟩
  left := Nat.le_trans second.left first.left
  tree kept := (second.tree kept).trans (first.tree kept)

/-- A shell that keeps its files goes on in the same way when less is said of them. -/
theorem mono {less : Prop} (goes : machine.Goes keeps after) (implies : less → keeps) :
    machine.Goes less after :=
  { goes with tree := fun kept => goes.tree (implies kept) }

/-- Of two parts neither of which writes, the first does not. -/
theorem of_left {first second : Bool} (goes : machine.Goes (first = false) after) :
    machine.Goes ((first || second) = false) after :=
  goes.mono fun silent => (Bool.or_eq_false_iff.1 silent).1

/-- Of two parts neither of which writes, the second does not. -/
theorem of_right {first second : Bool} (goes : machine.Goes (second = false) after) :
    machine.Goes ((first || second) = false) after :=
  goes.mono fun silent => (Bool.or_eq_false_iff.1 silent).2

end Goes

variable (machine : Machine)

/-! ## One command -/

theorem goes_emit (sink : Sink) (content : ByteArray) :
    machine.Goes (sink.isFile = false) (machine.emit sink content) := by
  cases sink with
  | stdout => exact { Goes.refl machine with stdout := ⟨content, rfl⟩ }
  | stderr => exact { Goes.refl machine with stderr := ⟨content, rfl⟩ }
  | file path =>
    rw [emit]
    split
    · exact .of_written Bool.noConfusion
    · exact .refl machine

theorem goes_complain (keeps : Prop) (status : Nat) (text : String) :
    machine.Goes keeps (machine.complain status text) :=
  { Goes.refl machine with stderr := ⟨_, rfl⟩ }

theorem goes_redirect (sinks : Sinks) (redirections : List Redirection) :
    machine.Goes (redirections.any Redirection.writes = false)
      (machine.redirect sinks redirections).1 := by
  induction redirections generalizing machine sinks with
  | nil => exact .refl machine
  | cons redirection redirections ih =>
    obtain ⟨number, target⟩ := redirection
    cases target with
    | output other => exact ih machine _
    | input name =>
      rw [redirect]
      dsimp only
      split
      · exact ih machine _
      · exact machine.goes_complain _ _ _
    | file name append =>
      rw [redirect]
      dsimp only
      split
      next tree made =>
        -- nothing is promised of the files, for one of them is written
        have writes :
            ¬ (⟨number, .file name append⟩ :: redirections).any Redirection.writes = false :=
          Bool.noConfusion
        exact (Goes.of_written writes).trans
          ((ih { machine with tree } _).mono fun silent => absurd silent writes)
      next => exact machine.goes_complain _ _ _

/-- Without a redirection into a file, no output goes into one. -/
theorem isFile_redirect {sinks sinks' : Sinks} (quiet : sinks.isFile = false)
    {redirections : List Redirection} (silent : redirections.any Redirection.writes = false)
    (led : (machine.redirect sinks redirections).2 = some sinks') : sinks'.isFile = false := by
  induction redirections generalizing machine sinks with
  | nil =>
    cases led
    exact quiet
  | cons redirection redirections ih =>
    obtain ⟨number, target⟩ := redirection
    rw [List.any_cons, Bool.or_eq_false_iff] at silent
    cases target with
    | output other =>
      exact ih machine (sinks.isFile_set quiet number (sinks.isFile_get quiet other)) silent.2 led
    | input name =>
      rw [redirect] at led
      dsimp only at led
      split at led
      · exact ih machine quiet silent.2 led
      · cases led
    | file name append => cases silent.1

theorem goes_perform (sinks : Sinks) (name : String) (args : List String) :
    machine.Goes (sinks.isFile = false) (machine.perform sinks name args) := by
  unfold perform
  split
  · cases args <;> exact .of_status
  split
  · split <;> exact .of_status
  split
  next => exact (machine.goes_emit sinks.err _).of_right.trans .of_status
  next effect _ =>
    split
    · exact .of_status
    have waited : machine.Goes (sinks.isFile = false)
        { machine with left := machine.left - effect.delay } :=
      { Goes.refl machine with left := Nat.sub_le _ _ }
    refine waited.trans ?_
    refine Goes.trans (goes_emit _ sinks.out effect.stdout).of_left ?_
    exact (goes_emit _ sinks.err effect.stderr).of_right.trans .of_status

theorem goes_runSimple (words : List Word) (redirections : List Redirection) :
    machine.Goes (redirections.any Redirection.writes = false)
      (machine.runSimple words redirections) := by
  have goes := machine.goes_redirect {} redirections
  rw [runSimple]
  cases led : machine.redirect {} redirections with
  | mk between sinks =>
    rw [led] at goes
    cases sinks with
    | none => exact goes
    | some sinks =>
      dsimp only
      refine goes.trans ?_
      split
      · exact .of_status
      · refine (between.goes_perform _ _ _).mono fun silent => ?_
        exact machine.isFile_redirect rfl silent (congrArg Prod.snd led)

/-! ## Whole scripts -/

/-- While it runs a command, a shell keeps its files if the command writes none. -/
theorem goes_run (command : Command) :
    machine.Goes (command.writes = false) (machine.run command) := by
  induction command generalizing machine with
  | skip =>
    rw [run]
    split <;> exact .refl machine
  | simple words redirections =>
    rw [run]
    split
    · exact .refl machine
    · exact machine.goes_runSimple words redirections
  | sequence first second ih ih' =>
    rw [run]
    split
    · exact .refl machine
    · exact (ih machine).of_left.trans (ih' _).of_right
  | both first second ih ih' =>
    rw [run]
    split
    · exact .refl machine
    dsimp only
    split
    · exact (ih machine).of_left.trans (ih' _).of_right
    · exact (ih machine).of_left
  | either first second ih ih' =>
    rw [run]
    split
    · exact .refl machine
    dsimp only
    split
    · exact (ih machine).of_left
    · exact (ih machine).of_left.trans (ih' _).of_right
  | negate command ih =>
    rw [run]
    split
    · exact .refl machine
    · exact (ih machine).trans .of_status
  | choose test yes no ih ih' ih'' =>
    rw [run]
    split
    · exact .refl machine
    dsimp only
    split
    · exact (ih machine).of_left.of_left.trans (ih' _).of_right.of_left
    · exact (ih machine).of_left.of_left.trans (Goes.of_status.trans (ih'' _).of_right)
  | select subject patterns body rest ih ih' =>
    rw [run]
    split
    · exact .refl machine
    split
    · exact Goes.of_status.trans (ih _).of_left
    · exact Goes.of_status.trans (ih' _).of_right

theorem goes_runScript (script : String) :
    machine.Goes (∀ command ∈ Command.read? script, command.writes = false)
      (machine.runScript script) := by
  rw [runScript]
  split
  next command is => exact (machine.goes_run command).mono fun silent => silent command is
  next => exact machine.goes_complain _ _ _

end Machine

end Shell

/-! ## Command lines -/

namespace Host

open Shell

/-- The script that a shell runs when it is started with some arguments. -/
def argumentScript? (tree : Tree) : List String → Option String
  | "-c" :: script :: _ => some script
  | ["-v"] => none
  | file :: _ =>
    if file.toList.head? = some '-' then none
    else (tree.read ⟨file⟩).toOption.map Text.Utf8.lossy
  | [] => none

/-- The script that a command line runs, if it starts a shell. -/
def scriptOf? (tree : Tree) : List String → Option String
  | command :: args =>
    if programName command = "sh" || programName command = "dash" then argumentScript? tree args
    else none
  | [] => none

/-- Whether the script of a command line has no redirection into a file. -/
def IsQuiet (tree : Tree) (line : List String) : Prop :=
  ∀ script ∈ scriptOf? tree line, ∀ command ∈ Command.read? script, command.writes = false

theorem shell_tree {tree : Tree} {args : List String}
    (quiet : ∀ script ∈ argumentScript? tree args, ∀ command ∈ Command.read? script,
      command.writes = false) (program : String) (limit : Nat) :
    (shell tree program limit args).tree = tree := by
  unfold shell
  split
  next script rest =>
    exact (Machine.goes_runScript _ script).tree (quiet script rfl)
  next => rfl
  next file args notScript notVersion =>
    rw [argumentScript?.eq_3 tree file args notScript notVersion] at quiet
    split
    · rfl
    next plain =>
      rw [if_neg plain] at quiet
      split
      next content is =>
        rw [is] at quiet
        exact (Machine.goes_runScript _ _).tree (quiet _ rfl)
      next => rfl
  next => rfl

/-- A command line whose script has no redirection into a file leaves the files as they are, and
so does one that is no script. -/
theorem spawn_tree {tree : Tree} {line : List String} (quiet : IsQuiet tree line) (limit : Nat) :
    (spawn tree limit line).tree = tree := by
  cases line with
  | nil => rfl
  | cons command args =>
    rw [IsQuiet, scriptOf?] at quiet
    rw [spawn]
    split
    · rfl
    dsimp only
    split
    next starts =>
      rw [if_pos starts] at quiet
      exact shell_tree quiet command limit
    next => split <;> rfl

end Host

/-! ## Programs on hosts -/

/-- Whether a call of nginx leaves the world as it is. -/
def NginxModel.Spares (nginx : NginxModel) (call : Nginx.Call) : Prop :=
  ∀ world, (nginx call world).2 = world

theorem Host.spares {call : Nginx.Call} (quiet : ∀ tree, Host.IsQuiet tree call.command) :
    NginxModel.Spares Host.nginx call := by
  intro world
  rw [nginx]
  dsimp only
  rw [Host.spawn_tree (quiet world.tree)]

/-- Replies are laid down for a program whose calls of nginx leave the world as it is: with them, it
runs as it does on its own. -/
theorem Program.exists_against {α : Type} {nginx : NginxModel} {p : Program α}
    (spares : p.Asks fun request => ∀ call, request = .nginx call → nginx.Spares call)
    (world : World) : ∃ replies, p.runIn nginx world = p.against { replies } world := by
  induction p generalizing world with
  | done a => exact ⟨[], rfl⟩
  | ask request next ih =>
    obtain ⟨spare, rest⟩ := spares
    have step {given : request.Answer} {after : World}
        (answered : World.answer nginx request world = (given, after))
        (met : ∀ replies, World.meet request ({ replies }, world) = (given, { replies }, after)) :
        ∃ replies, (ask request next).runIn nginx world =
          (ask request next).against { replies } world := by
      obtain ⟨replies, same⟩ := ih given (rest given) after
      refine ⟨replies, ?_⟩
      rw [against_ask (met replies), ← same, runIn, runIn, run, answered]
    cases request with
    | nginx call =>
      obtain ⟨replies, same⟩ := ih (nginx call world).1 (rest _) world
      refine ⟨(nginx call world).1 :: replies, ?_⟩
      have met : World.meet (.nginx call) ({ replies := (nginx call world).1 :: replies }, world) =
          ((nginx call world).1, { replies }, world) := rfl
      have answered : World.answer nginx (.nginx call) world = ((nginx call world).1, world) :=
        Prod.ext rfl (spare call rfl world)
      rw [against_ask met, ← same, runIn, runIn, run, answered]
    | file call => exact step rfl fun _ => rfl
    | _ => exact step rfl fun _ => rfl

namespace Task

variable {controller : Controller}

/-- What keeps to the discipline of a controller calls nginx in three ways only. -/
theorem asks_calls_of_meets {α : Type} {p : Program α} {promise : α → Stage → Prop} {stage : Stage}
    (h : p.Meets (Controller.discipline controller.config) promise stage) :
    p.Asks fun request => ∀ call, request = .nginx call → call = controller.config.testCall ∨
      call = controller.config.reloadCall ∨ call = controller.config.versionCall := by
  induction p generalizing stage with
  | done a => trivial
  | ask request next ih =>
    obtain ⟨allowed, rest⟩ := h
    refine ⟨?_, fun answer => ih answer (rest answer _ rfl)⟩
    rintro call rfl
    cases stage with
    | outside => exact allowed.elim .inl fun version => .inr (.inr version)
    | testing => exact .inl allowed
    | applying => exact .inr (.inl allowed)
    | _ => exact allowed.elim

/-- On a host whose commands for nginx write no files, a task does what it does by itself against
the replies that they give. -/
theorem exists_against (task : Task)
    (quiet : ∀ call ∈ [controller.config.testCall, controller.config.reloadCall,
      controller.config.versionCall], ∀ tree, Host.IsQuiet tree call.command) (world : World) :
    ∃ replies, (task.program controller).runIn Host.nginx world =
      (task.program controller).against { replies } world := by
  refine Program.exists_against ((asks_calls_of_meets (task.meets_discipline controller)).mono ?_) _
  intro request only call is
  refine Host.spares (quiet call ?_)
  simpa using only call is

end Task

end ProxyKeeper
