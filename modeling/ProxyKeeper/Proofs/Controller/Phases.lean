import ProxyKeeper.Proofs.Controller.TestedReload
import ProxyKeeper.Proofs.Store.Founding

/-!
# Published phases

The phase that the controller publishes, while any number of tasks take turns, with nginx and the
file system answering as they like and tasks dropped at any time. A task that holds the lock is at a
stage, and the phase is that of its stage; while nobody holds the lock the phase is idle. So the
phase takes only the steps that one operation takes, from idle and back to it. A task that does not
change rules publishes nothing, and what founding a store writes is no rule file.

## Main Definitions

* `Phase.successors` — the steps of the phase
* `Stage.phase` — the phase that a stage shows
* `Controller.protocol` — the discipline of the stages, and how each kind of task begins
* `Published` — the invariant: the phase is that of the holder of the lock
* `Turns.entries` — how often a phase is entered while a program holds the lock

## Main Results

* `Task.meets_protocol` — every task keeps to the protocol
* `Published.happens` — every move keeps the invariant and takes a step of the phase at most
* `Controller.phases_follow` — what the phase tells of the calls of nginx, of files and of the lock
-/

namespace ProxyKeeper

/-- The phases that may follow a phase. -/
def Phase.successors : Phase → List Phase
  | .idle => [.writing]
  | .writing => [.testing, .rollingBack, .idle]
  | .testing => [.applying, .rollingBack, .idle]
  | .applying => [.rollingBack, .idle]
  | .rollingBack => [.idle]

/-- From every other phase it goes back to idle. -/
theorem Phase.eq_idle_or_mem_successors (phase : Phase) :
    .idle = phase ∨ .idle ∈ phase.successors := by
  cases phase <;> decide

namespace Stage

/-- The phase that a stage shows. -/
def phase : Stage → Phase
  | .writing => .writing
  | .testing => .testing
  | .refused => .testing
  | .passed => .testing
  | .applying => .applying
  | .settled => .applying
  | .rollingBack => .rollingBack
  | _ => .idle

/-- Whether files have not been put back yet, and may be. -/
def mayUndo : Stage → Bool
  | .rollingBack => false
  | .closing => false
  | .spent => false
  | _ => true

/-- Whether the first phase has been published, or there is none to publish. -/
def isUnderWay : Stage → Bool
  | .outside => false
  | .entered => false
  | _ => true

/-- What a published phase does to the stage. -/
theorem published?_eq_some {stage target : Stage} {phase : Phase}
    (h : stage.published? phase = some target) :
    target.phase = phase ∧ phase ∈ stage.phase.successors ∧ target.isUnderWay = true ∧
      (phase = .rollingBack → stage.mayUndo = true) ∧
      (target.mayUndo = true → stage.mayUndo = true ∧ phase ≠ .rollingBack) := by
  rw [published?.eq_def] at h
  split at h
  case h_11 => cases h
  all_goals
    cases h
    decide

/-- A call of nginx shows no other phase. -/
theorem phase_replied (stage : Stage) (reply : Nginx.Reply) :
    (stage.replied reply).phase = stage.phase := by
  cases stage with
  | testing =>
    rw [replied]
    split <;> rfl
  | _ => rfl

theorem mayUndo_of_replied {stage : Stage} {reply : Nginx.Reply}
    (h : (stage.replied reply).mayUndo = true) : stage.mayUndo = true := by
  cases stage with
  | rollingBack => cases h
  | closing => cases h
  | spent => cases h
  | _ => rfl

theorem isUnderWay_replied {stage : Stage} (underWay : stage.isUnderWay = true)
    (reply : Nginx.Reply) : (stage.replied reply).isUnderWay = true := by
  cases stage with
  | testing =>
    rw [replied]
    split <;> rfl
  | outside => cases underWay
  | _ => exact underWay

/-- What is under way stays so. -/
theorem isUnderWay_next {config : ManagerConfig} {stage : Stage}
    (underWay : stage.isUnderWay = true) {request : Request}
    (allowed : stage.allows config request) (answer : request.Answer) :
    (stage.next request answer).isUnderWay = true := by
  cases request with
  | acquire =>
    obtain rfl : stage = .outside := allowed
    cases underWay
  | release => rfl
  | publish phase =>
    obtain ⟨target, leads⟩ := Option.isSome_iff_exists.1 allowed
    rw [next, leads]
    exact (published?_eq_some leads).2.2.1
  | nginx call => exact isUnderWay_replied underWay answer
  | _ => exact underWay

/-- What has come back to idle stays so. -/
theorem phase_next {config : ManagerConfig} {stage : Stage}
    (underWay : stage.isUnderWay = true) (idle : stage.phase = .idle) {request : Request}
    (allowed : stage.allows config request) (answer : request.Answer) :
    (stage.next request answer).phase = .idle := by
  cases request with
  | acquire => rfl
  | release => rfl
  | publish phase =>
    cases stage with
    | outside => cases underWay
    | entered => cases underWay
    | closing => cases allowed
    | spent => cases allowed
    | _ => cases idle
  | nginx call => exact (stage.phase_replied answer).trans idle
  | _ => exact idle

end Stage

/-! ## How tasks begin -/

/-- What is known of an answer: names are those that are given out. -/
def Request.IsGiven : (request : Request) → request.Answer → Prop
  | .freshName, name => ∃ count, name = World.freshName count
  | _, _ => True

/-- How a task begins. Those that take the lock do so at once, and a change publishes then that it
writes. Others publish nothing. -/
def Task.opens (controller : Controller) (task : Task) (request : Request) : Stage → Prop
  | .outside => request = .acquire ↔ task.isExclusive = true
  | .entered =>
    if task.isChange then request = .publish .writing
    else request = .release ∨ controller.store.Founds request
  | stage => task.isChange = true ∨ stage.phase = .idle

/-- The discipline of the stages, for a task that begins as it should. -/
def Controller.protocol (controller : Controller) (task : Task) : Terms Stage where
  allows request stage :=
    stage.allows controller.config request ∧ task.opens controller request stage
  answers request stage answer stage' := stage' = stage.next request answer ∧ request.IsGiven answer

namespace Program

variable {α β : Type}

/-- Whether a program ends at once or takes the lock and publishes that it writes. -/
def Opens (p : Program α) : Prop :=
  (∃ a, p = done a) ∨
    ∃ next : Unit → Program α, p = ask .acquire fun _ => ask (.publish .writing) next

theorem Opens.bind {p : Program α} {f : α → Program β} (h : p.Opens)
    (ends : ∀ a, ∃ b, f a = done b) : (p >>= f).Opens := by
  obtain ⟨a, rfl⟩ | ⟨next, rfl⟩ := h
  · exact .inl (ends a)
  · exact .inr ⟨_, rfl⟩

end Program

namespace Controller

open Operation

variable (controller : Controller)

/-- A change of rules takes the lock and publishes that it writes, if it does anything at all. -/
theorem opens_program {task : Task} (change : task.isChange = true) :
    (task.program controller).Opens :=
  controller.program_of_change Program.Opens (fun a => .inl ⟨a, rfl⟩) Program.Opens.bind
    (fun _ _ _ _ => .inr ⟨_, rfl⟩) change

/-! ## Founding -/

section Founding

variable {controller} {α β : Type}

/-- An operation that founds a store with the lock held. -/
abbrev Founding (controller : Controller) (operation : Operation α) : Prop :=
  operation.Meets (controller.protocol .bootstrap) (fun _ s => s = .entered)
    (fun _ s => s = .entered) .entered

theorem Founding.bind {operation : Operation α} {f : α → Operation β}
    (h : Founding controller operation) (rest : ∀ a, Founding controller (f a)) :
    Founding controller (operation >>= f) := by
  refine Operation.Meets.bind h ?_
  rintro a _ rfl
  exact rest a

theorem founding_attempt {call : FileCall} (founds : controller.store.Founds (.file call)) :
    Founding controller (attempt call) := by
  refine meets_request.2 ⟨⟨fun _ => rfl, .inr founds⟩, ?_⟩
  rintro answer _ ⟨rfl, _⟩
  rfl

theorem founding_file (path : Path) {call : FileCall}
    (founds : controller.store.Founds (.file call)) : Founding controller (file path call) := by
  refine (founding_attempt founds).bind fun answer => ?_
  cases answer with
  | ok result => rfl
  | error fault => rfl

/-- What only looks may be done while a store is founded. -/
theorem founding_of_asks_looks {operation : Operation α}
    (h : operation.run.Asks Store.Looks) : Founding controller operation := by
  refine Program.Meets.mono (h.meets ?_ ?_) ?_
  · intro r looks
    have founds := Store.founds_of_isLook controller.store looks
    cases r with
    | file call => exact ⟨fun _ => rfl, .inr founds⟩
    | _ => cases looks
  · rintro r answer _ looks ⟨rfl, _⟩
    cases r with
    | file call => rfl
    | _ => cases looks
  · rintro result _ rfl
    cases result with
    | ok a => rfl
    | error e => rfl

/-- The main configuration is written beside its place and moved there. -/
theorem founding_writeWhole (text : String) :
    Founding controller (Store.writeWhole controller.config.mainConfig text) := by
  rw [Store.writeWhole]
  refine meets_bind.2 (meets_request.2 ⟨⟨trivial, .inr trivial⟩, ?_⟩)
  rintro _ _ ⟨rfl, count, rfl⟩
  have beside : controller.store.IsBesideMain
      (Store.beside controller.config.mainConfig (World.freshName count)) := ⟨count, rfl⟩
  have write (content : ByteArray) : controller.store.Founds (.file (.write _ content)) := beside
  have move : controller.store.Founds (.file (.rename _ controller.config.mainConfig)) :=
    ⟨beside, rfl⟩
  have remove : controller.store.Founds (.file (.remove _)) := beside
  refine (founding_file _ (write _)).bind fun _ => (founding_attempt move).bind fun answer => ?_
  cases answer with
  | ok _ => rfl
  | error fault => exact (founding_attempt remove).bind fun _ => rfl

theorem founding_bootstrap : Founding controller controller.store.bootstrap := by
  have make (path : Path) : controller.store.Founds (.file (.createDirectories path)) := trivial
  rw [Store.bootstrap]
  refine (founding_file _ (make _)).bind fun _ => (founding_file _ (make _)).bind fun _ => ?_
  refine (founding_of_asks_looks (Store.asks_isPresent _)).bind fun present => ?_
  cases present with
  | true => rfl
  | false =>
    have template : controller.store.template.run.Asks Store.Looks :=
      asks_bind (Store.asks_readIfPresent _) fun _ => trivial
    refine (founding_of_asks_looks template).bind fun text => ?_
    cases controller.store.config.mainConfig.parent? with
    | none => exact (founding_writeWhole _).bind fun _ => rfl
    | some parent =>
      exact (founding_file _ (make _)).bind fun _ => (founding_writeWhole _).bind fun _ => rfl

end Founding

theorem meets_bootstrap :
    controller.bootstrap.Meets (controller.protocol .bootstrap) (fun _ s => s.holdsLock = false)
      (fun _ s => s.holdsLock = false) .outside := by
  refine meets_bind.2 (meets_request.2 ⟨⟨rfl, by simp [Task.opens, Task.isExclusive]⟩, ?_⟩)
  rintro _ _ ⟨rfl, _⟩
  refine meets_bind.2 (meets_outcome.2 (founding_bootstrap.mono ?_ ?_))
  all_goals
    rintro _ _ rfl
    refine meets_bind.2 (meets_request.2 ⟨⟨.inl rfl, .inl rfl⟩, ?_⟩)
    rintro _ _ ⟨rfl, _⟩
    rfl

/-! ## Tasks -/

variable {task : Task}

/-- A task that is under way keeps to the protocol when it keeps to the discipline. -/
theorem meets_protocol_of_isUnderWay {p : Program TaskResult} {promise : TaskResult → Stage → Prop}
    {stage : Stage} (underWay : stage.isUnderWay = true)
    (may : task.isChange = true ∨ stage.phase = .idle)
    (h : p.Meets (discipline controller.config) promise stage) :
    p.Meets (controller.protocol task) promise stage := by
  induction p generalizing stage with
  | done a => exact h
  | ask request next ih =>
    refine ⟨⟨h.1, ?_⟩, ?_⟩
    · cases stage with
      | outside => cases underWay
      | entered => cases underWay
      | _ => exact may
    · rintro answer _ ⟨rfl, _⟩
      refine ih answer (Stage.isUnderWay_next underWay h.1 answer) ?_ (h.2 answer _ rfl)
      exact may.imp_right fun idle => Stage.phase_next underWay idle h.1 answer

/-- A task without the lock goes on from its call of nginx under way. -/
theorem meets_protocol_of_call (shared : task.isExclusive = false) {call : Nginx.Call}
    {next : Nginx.Reply → Program TaskResult} {promise : TaskResult → Stage → Prop}
    (h : (Program.ask (.nginx call) next).Meets (discipline controller.config) promise .outside) :
    (Program.ask (.nginx call) next).Meets (controller.protocol task) promise .outside := by
  refine ⟨⟨h.1, by simp [Task.opens, shared]⟩, ?_⟩
  rintro reply _ ⟨rfl, _⟩
  exact controller.meets_protocol_of_isUnderWay rfl (.inr rfl) (h.2 reply _ rfl)

end Controller

/-- Every task keeps to the protocol, and at its end it does not hold the lock. -/
theorem Task.meets_protocol (controller : Controller) (task : Task) :
    (task.program controller).Meets (controller.protocol task)
      (fun _ s => s.holdsLock = false) .outside := by
  have disciplined := task.meets_discipline controller
  by_cases change : task.isChange = true
  · obtain ⟨a, ends⟩ | ⟨next, asks⟩ := controller.opens_program change
    · rw [ends]
      rfl
    · rw [asks] at disciplined ⊢
      obtain ⟨_, writing⟩ := disciplined.2 () _ rfl
      have exclusive : task.isExclusive = true := by
        cases task <;> first | rfl | cases change
      refine ⟨⟨rfl, by simp [opens, exclusive]⟩, ?_⟩
      rintro _ _ ⟨rfl, _⟩
      refine ⟨⟨rfl, ?_⟩, ?_⟩
      · show if task.isChange then _ = _ else _
        rw [if_pos change]
      rintro _ _ ⟨rfl, _⟩
      exact controller.meets_protocol_of_isUnderWay rfl (.inl change) (writing () _ rfl)
  · cases task with
    | apply rule => exact absurd rfl change
    | remove id => exact absurd rfl change
    | sync rules => exact absurd rfl change
    | status => exact controller.meets_protocol_of_call rfl disciplined
    | gate => exact controller.meets_protocol_of_call rfl disciplined
    | list =>
      have looks : (program controller .list).Asks Store.Looks :=
        controller.store.asks_list.bind fun _ => trivial
      refine (looks.meets ?_ ?_).mono ?_
      · intro r looks
        cases r with
        | file call =>
          refine ⟨fun changes => ?_, by simp [opens, isExclusive, isChange]⟩
          simp [Store.Looks, Request.isLook, changes] at looks
        | _ => cases looks
      · rintro r answer _ looks ⟨rfl, _⟩
        cases r with
        | file call => rfl
        | _ => cases looks
      · rintro _ _ rfl
        rfl
    | bootstrap =>
      refine Program.meets_bind.2 (Program.Meets.mono controller.meets_bootstrap ?_)
      intro result s ended
      cases result with
      | ok made => exact ended
      | error e => exact ended

/-! ## The invariant -/

/-- What is left of a task keeps to some terms from a stage on. -/
def Thread.Follows (terms : Terms Stage) (stage : Stage) : Thread TaskResult → Prop
  | .ready program => program.Meets terms (fun _ s => s.holdsLock = false) stage
  | .calling call next =>
    (Program.ask (.nginx call) next).Meets terms (fun _ s => s.holdsLock = false) stage
  | .finished _ => stage.holdsLock = false
  | .dropped => stage.holdsLock = false

namespace Turns

variable {α : Type}

/-- Whether a phase is entered from one state to the next while a program holds the lock, as a
number. -/
def enters (phase : Phase) (i : Nat) (turns turns' : Turns α) : Nat :=
  if turns.holder = some i ∧ turns.world.phase ≠ phase ∧ turns'.world.phase = phase then 1 else 0

/-- How often a phase is entered in some moves while a program holds the lock. -/
def entries (phase : Phase) (i : Nat) (turns : Turns α) : List Move → Nat
  | [] => 0
  | first :: moves =>
    turns.enters phase i (turns.move first) + (turns.move first).entries phase i moves

theorem enters_of_phase_eq {turns turns' : Turns α} (same : turns'.world.phase = turns.world.phase)
    (phase : Phase) (i : Nat) : turns.enters phase i turns' = 0 := by
  rw [enters, same, if_neg]
  exact fun h => h.2.1 h.2.2

/-- A task is at a stage that holds the lock when the task does, and then shows the phase. `undone`
is how often files have been put back for it. -/
structure IsAt (turns : Turns TaskResult) (i undone : Nat) (stage : Stage) : Prop where
  locks : stage.holdsLock = true ↔ turns.holder = some i
  shown : turns.holder = some i → turns.world.phase = stage.phase
  undone : stage.mayUndo = true → undone = 0

end Turns

/-- Every task is at a stage from which it keeps to its protocol, and the phase is that of the
holder of the lock, or idle. -/
structure Published (controller : Controller) (tasks : List Task) (undone : Nat → Nat)
    (turns : Turns TaskResult) : Prop where
  tracked : ∀ i thread, turns.threads[i]? = some thread → ∃ task stage, tasks[i]? = some task ∧
    thread.Follows (controller.protocol task) stage ∧ turns.IsAt i (undone i) stage
  once : ∀ i, undone i ≤ 1
  free : turns.holder = none → turns.world.phase = .idle
  inside : ∀ i, turns.holder = some i → i < turns.threads.length

namespace Published

variable {controller : Controller} {tasks : List Task} {undone undone' : Nat → Nat}
  {turns turns' : Turns TaskResult} {j : Nat} {thread : Thread TaskResult} {task : Task}
  {stage stage' : Stage}

/-- One task goes on; the others see neither the lock nor the phase change while they hold it. -/
theorem put (published : Published controller tasks undone turns) (stage : Stage)
    (set : turns'.threads = turns.threads.set j thread) (there : j < turns.threads.length)
    (holder : ∀ i, i ≠ j → (turns'.holder = some i ↔ turns.holder = some i))
    (phase : ∀ i, i ≠ j → turns.holder = some i → turns'.world.phase = turns.world.phase)
    (others : ∀ i, i ≠ j → undone' i = undone i) (mine : undone' j ≤ 1)
    (known : tasks[j]? = some task) (follows : thread.Follows (controller.protocol task) stage)
    (now : turns'.IsAt j (undone' j) stage)
    (free : turns'.holder = none → turns'.world.phase = .idle) :
    Published controller tasks undone' turns' := by
  refine ⟨?_, ?_, free, ?_⟩
  · intro i other here
    rw [set] at here
    by_cases same : i = j
    · subst same
      rw [List.getElem?_set_self there] at here
      obtain rfl := Option.some.inj here
      exact ⟨task, stage, known, follows, now⟩
    · rw [List.getElem?_set_ne (Ne.symm same)] at here
      obtain ⟨task, stage, known, follows, locks, shown, counted⟩ := published.tracked i other here
      refine ⟨task, stage, known, follows, locks.trans (holder i same).symm, ?_, ?_⟩
      · intro holds
        have held := (holder i same).1 holds
        exact (phase i same held).trans (shown held)
      · rw [others i same]
        exact counted
  · intro i
    by_cases same : i = j
    · exact same ▸ mine
    · rw [others i same]
      exact published.once i
  · intro i holds
    rw [set, List.length_set]
    by_cases same : i = j
    · exact same ▸ there
    · exact published.inside i ((holder i same).1 holds)

/-- One task goes on without a change of the lock or the phase. -/
theorem put_quiet (published : Published controller tasks undone turns)
    (set : turns'.threads = turns.threads.set j thread) (there : j < turns.threads.length)
    (holder : turns'.holder = turns.holder) (phase : turns'.world.phase = turns.world.phase)
    (known : tasks[j]? = some task) (before : turns.IsAt j (undone j) stage)
    (follows : thread.Follows (controller.protocol task) stage')
    (locks : stage'.holdsLock = stage.holdsLock) (shown : stage'.phase = stage.phase)
    (undo : stage'.mayUndo = true → stage.mayUndo = true) :
    Published controller tasks undone turns' := by
  refine published.put stage' set there (fun i _ => by rw [holder]) (fun i _ _ => phase)
    (fun i _ => rfl) (published.once j) known follows ⟨?_, ?_, fun may => before.undone (undo may)⟩ ?_
  · rw [locks, holder]
    exact before.locks
  · rw [holder, phase, shown]
    exact before.shown
  · rw [holder, phase]
    exact published.free

/-- Every move keeps the invariant, and the phase takes one step at most. -/
theorem happens (published : Published controller tasks undone turns)
    {occurrence : Option Occurrence} (happened : turns.Happens occurrence turns') :
    Published controller tasks (fun i => undone i + turns.enters .rollingBack i turns') turns' ∧
      (turns'.world.phase = turns.world.phase ∨
        turns'.world.phase ∈ turns.world.phase.successors) := by
  -- without a change of the phase nothing is entered
  have quiet (same : turns'.world.phase = turns.world.phase)
      (kept : Published controller tasks undone turns') :
      Published controller tasks (fun i => undone i + turns.enters .rollingBack i turns') turns' ∧
        (turns'.world.phase = turns.world.phase ∨
          turns'.world.phase ∈ turns.world.phase.successors) := by
    refine ⟨?_, .inl same⟩
    simpa only [Turns.enters_of_phase_eq same, Nat.add_zero] using kept
  have inside {i : Nat} {thread : Thread TaskResult} (here : turns.threads[i]? = some thread) :
      i < turns.threads.length := (List.getElem?_eq_some_iff.1 here).1
  cases happened with
  | idles => exact quiet rfl published
  | finishes here =>
    obtain ⟨task, stage, known, follows, now⟩ := published.tracked _ _ here
    exact quiet rfl (published.put_quiet rfl (inside here) rfl rfl known now follows rfl rfl id)
  | @acquires j next here free =>
    obtain ⟨task, stage, known, ⟨⟨outside, _⟩, rest⟩, now⟩ := published.tracked _ _ here
    obtain rfl : stage = .outside := outside
    refine quiet rfl (published.put .entered rfl (inside here) ?_ (fun _ _ _ => rfl)
      (fun _ _ => rfl) (published.once j) known (rest () _ ⟨rfl, trivial⟩)
      ⟨by simp [Stage.holdsLock], fun _ => published.free free, fun _ => now.undone rfl⟩ (by simp))
    intro i other
    rw [free]
    simp [Ne.symm other]
  | @releases j next here =>
    obtain ⟨task, stage, known, ⟨⟨closing, _⟩, rest⟩, now⟩ := published.tracked _ _ here
    have mine : turns.holder = some j := now.locks.1 (by rcases closing with rfl | rfl <;> rfl)
    have idle : turns.world.phase = .idle :=
      (now.shown mine).trans (by rcases closing with rfl | rfl <;> rfl)
    refine quiet rfl (published.put .spent rfl (inside here) ?_ (fun _ _ _ => rfl)
      (fun _ _ => rfl) (published.once j) known (rest () _ ⟨rfl, trivial⟩)
      ⟨by simp [Stage.holdsLock], by simp, by simp [Stage.mayUndo]⟩ fun _ => idle)
    intro i other
    rw [mine]
    simp [Ne.symm other]
  | begins here =>
    obtain ⟨task, stage, known, follows, now⟩ := published.tracked _ _ here
    exact quiet rfl (published.put_quiet rfl (inside here) rfl rfl known now follows rfl rfl id)
  | ends here reply =>
    obtain ⟨task, stage, known, ⟨_, rest⟩, now⟩ := published.tracked _ _ here
    exact quiet rfl (published.put_quiet rfl (inside here) rfl rfl known now
      (rest reply _ ⟨rfl, trivial⟩) (stage.holdsLock_replied reply) (stage.phase_replied reply)
      Stage.mayUndo_of_replied)
  | files here answer left kept =>
    obtain ⟨task, stage, known, ⟨_, rest⟩, now⟩ := published.tracked _ _ here
    exact quiet rfl (published.put_quiet rfl (inside here) rfl rfl known now
      (rest answer _ ⟨rfl, trivial⟩) rfl rfl id)
  | names here =>
    obtain ⟨task, stage, known, ⟨_, rest⟩, now⟩ := published.tracked _ _ here
    exact quiet rfl (published.put_quiet rfl (inside here) rfl rfl known now
      (rest _ _ ⟨rfl, _, rfl⟩) rfl rfl id)
  | counts here =>
    obtain ⟨task, stage, known, ⟨_, rest⟩, now⟩ := published.tracked _ _ here
    exact quiet rfl (published.put_quiet rfl (inside here) rfl rfl known now
      (rest () _ ⟨rfl, trivial⟩) rfl rfl id)
  | @publishes j phase next here =>
    obtain ⟨task, stage, known, ⟨⟨allowed, _⟩, rest⟩, now⟩ := published.tracked _ _ here
    obtain ⟨target, leads⟩ := Option.isSome_iff_exists.1 allowed
    obtain ⟨shown, follows, _, undo, stays⟩ := Stage.published?_eq_some leads
    obtain ⟨held, holds⟩ := Stage.holdsLock_of_published? leads
    have mine : turns.holder = some j := now.locks.1 held
    have before : turns.world.phase = stage.phase := now.shown mine
    refine ⟨?_, .inr (before ▸ follows)⟩
    refine published.put target rfl (inside here) (fun _ _ => Iff.rfl) ?_ ?_ ?_ known
      (rest () target ⟨?_, trivial⟩) ⟨by simp [holds, Turns.put, mine], fun _ => shown.symm, ?_⟩ ?_
    · intro i other holds
      rw [mine] at holds
      exact absurd (Option.some.inj holds).symm other
    · intro i other
      dsimp only
      rw [Turns.enters, if_neg, Nat.add_zero]
      rintro ⟨holds, _⟩
      rw [mine] at holds
      exact other (Option.some.inj holds).symm
    · -- files are put back from stages that are reached before it only
      dsimp only
      rw [Turns.enters]
      split
      next entered => exact Nat.le_of_eq (congrArg (· + 1) (now.undone (undo entered.2.2)))
      next => exact published.once j
    · show target = (stage.published? phase).getD stage
      rw [leads, Option.getD_some]
    · intro may
      obtain ⟨was, other⟩ := stays may
      rw [now.undone was, Turns.enters, if_neg]
      exact fun entered => other entered.2.2
    · intro free
      rw [show turns.holder = none from free] at mine
      cases mine
  | drops i =>
    by_cases mine : turns.holder = some i
    · rw [Turns.drop, if_pos mine]
      have there := published.inside i mine
      obtain ⟨task, stage, known, _⟩ := published.tracked i _ (List.getElem?_eq_getElem there)
      -- the phase goes back to idle, so nothing is entered
      refine ⟨?_, (Phase.eq_idle_or_mem_successors _)⟩
      refine published.put .spent rfl there ?_ ?_ ?_ ?_ known rfl
        ⟨by simp [Stage.holdsLock], by simp, by simp [Stage.mayUndo]⟩ fun _ => rfl
      · intro other ne
        rw [mine]
        simp [Ne.symm ne]
      · intro other ne holds
        rw [mine] at holds
        exact absurd (Option.some.inj holds).symm ne
      · intro other _
        simp [Turns.enters]
      · simpa [Turns.enters] using published.once i
    · rw [Turns.drop, if_neg mine] at quiet ⊢
      refine quiet rfl ?_
      by_cases there : i < turns.threads.length
      · obtain ⟨task, stage, known, _⟩ := published.tracked i _ (List.getElem?_eq_getElem there)
        exact published.put .spent rfl there (fun _ _ => Iff.rfl)
          (fun _ _ _ => rfl) (fun _ _ => rfl) (published.once i) known rfl
          ⟨by simpa [Stage.holdsLock, Turns.put] using mine, fun holds => absurd holds mine,
            by simp [Stage.mayUndo]⟩ published.free
      · rw [Turns.put, List.set_eq_of_length_le (Nat.le_of_not_lt there)]
        exact published

/-- Any number of moves keep the invariant. -/
theorem moveAll (published : Published controller tasks undone turns) (moves : List Move) :
    Published controller tasks (fun i => undone i + turns.entries .rollingBack i moves)
      (turns.moveAll moves) := by
  induction moves generalizing turns undone with
  | nil => exact published
  | cons move moves ih =>
    simp only [Turns.entries, ← Nat.add_assoc]
    exact ih (published.happens (turns.happens_move move)).1

/-- While a phase other than idle is published, a change of rules holds the lock. -/
theorem exists_change (published : Published controller tasks undone turns)
    (busy : turns.world.phase ≠ .idle) :
    ∃ i task, turns.holder = some i ∧ tasks[i]? = some task ∧ task.isChange = true := by
  cases holder : turns.holder with
  | none => exact absurd (published.free holder) busy
  | some i =>
    obtain ⟨thread, here⟩ : ∃ thread, turns.threads[i]? = some thread :=
      ⟨_, List.getElem?_eq_getElem (published.inside i holder)⟩
    obtain ⟨task, stage, known, follows, now⟩ := published.tracked i thread here
    have held := now.locks.2 holder
    rw [now.shown holder] at busy
    have opened {request : Request} (opens : task.opens controller request stage) :
        task.isChange = true := by
      cases stage with
      | outside => cases held
      | entered => exact absurd rfl busy
      | _ => exact opens.resolve_right busy
    refine ⟨i, task, rfl, known, ?_⟩
    cases thread with
    | finished a => exact absurd held (by simp [show stage.holdsLock = false from follows])
    | dropped => exact absurd held (by simp [show stage.holdsLock = false from follows])
    | calling call next => exact opened follows.1.2
    | ready program =>
      cases program with
      | done a => exact absurd held (by simp [show stage.holdsLock = false from follows])
      | ask request next => exact opened follows.1.2

/-- While a task that takes the lock waits for nginx, the phase tells what it waits for. -/
theorem calling (published : Published controller tasks undone turns) {i : Nat}
    (known : tasks[i]? = some task) (exclusive : task.isExclusive = true) {call : Nginx.Call}
    {next : Nginx.Reply → Program TaskResult}
    (here : turns.threads[i]? = some (.calling call next)) :
    turns.holder = some i ∧
      (call = controller.config.testCall ∧ turns.world.phase = .testing ∨
        call = controller.config.reloadCall ∧ turns.world.phase = .applying) := by
  obtain ⟨task', stage, known', ⟨⟨allowed, opens⟩, _⟩, now⟩ := published.tracked i _ here
  obtain rfl := Option.some.inj (known.symm.trans known')
  cases stage with
  | outside => cases opens.2 exclusive
  | testing => exact ⟨now.locks.1 rfl, .inl ⟨allowed, now.shown (now.locks.1 rfl)⟩⟩
  | applying => exact ⟨now.locks.1 rfl, .inr ⟨allowed, now.shown (now.locks.1 rfl)⟩⟩
  | _ => exact allowed.elim

/-- Rule files are changed by a change of rules that writes or puts back, or by founding the store
when the main configuration has the place of one. -/
theorem content?_step (published : Published controller tasks undone turns) {i : Nat}
    {call : FileCall} {next : call.Answer → Program TaskResult}
    (here : turns.threads[i]? = some (.ready (.ask (.file call) next))) {directory : Location}
    {id : String} (valid : isRuleId id = true) (room : controller.store.LeavesRoom turns.world.tree)
    (apart : ∀ place, turns.world.tree.place .busy controller.config.mainConfig = .ok place →
      place.location ≠ directory ++ [Store.fileName id])
    (changed : (turns.world.tree.perform call).2.content? (directory ++ [Store.fileName id]) ≠
      turns.world.tree.content? (directory ++ [Store.fileName id])) :
    turns.world.phase = .writing ∨ turns.world.phase = .rollingBack := by
  obtain ⟨task, stage, _, ⟨⟨allowed, opens⟩, _⟩, now⟩ := published.tracked i _ here
  have changes : call.changes = true := by
    cases looks : call.changes with
    | true => rfl
    | false => exact absurd (by rw [turns.world.tree.perform_of_not_changes looks]) changed
  have may := allowed changes
  have shown := now.shown (now.locks.1 (Stage.holdsLock_of_mayChange may))
  cases stage with
  | writing => exact .inl shown
  | rollingBack => exact .inr shown
  | entered =>
    -- only founding the store asks for files here, and it leaves the rule files alone
    have founds : controller.store.Founds (.file call) := by
      simp only [Task.opens] at opens
      split_ifs at opens
      exact opens.resolve_left nofun
    exact absurd (Store.content?_of_founds founds valid room apart) changed
  | _ => cases may

end Published

/-! ## Runs -/

/-- Files are changed by calls that are carried out, and by nothing else. -/
theorem Turns.tree_take {α : Type} (turns : Turns α) (turn : Turn) :
    (turns.take turn).world.tree = turns.world.tree ∨
      ∃ (i : Nat) (call : FileCall) (next : call.Answer → Program α),
        turns.threads[i]? = some (.ready (.ask (.file call) next)) ∧
        (turns.take turn).world.tree = (turns.world.tree.perform call).2 := by
  cases turn with
  | step i =>
    rw [take, step]
    split
    next => exact .inl rfl
    next => split <;> exact .inl rfl
    next => exact .inl rfl
    next => exact .inl rfl
    next request next _ _ _ here =>
      cases request with
      | file call => exact .inr ⟨i, call, next, here, rfl⟩
      | _ => exact .inl rfl
    next => exact .inl rfl
  | fail i fault => rw [take, fail]; split <;> exact .inl rfl
  | reply i given => rw [take, Turns.reply]; split <;> exact .inl rfl
  | drop i => rw [take, drop]; split <;> exact .inl rfl

namespace Controller

/-- Tasks that have not begun. -/
theorem published_start (controller : Controller) {world : World} (idle : world.phase = .idle)
    (tasks : List Task) :
    Published controller tasks (fun _ => 0) (controller.start world tasks) where
  tracked := by
    intro i thread there
    rw [start, List.getElem?_map] at there
    obtain ⟨task, known, rfl⟩ := Option.map_eq_some_iff.1 there
    exact ⟨task, .outside, known, task.meets_protocol controller,
      by simp [Stage.holdsLock, start], by simp [start], fun _ => rfl⟩
  once := fun _ => Nat.zero_le _
  free := fun _ => idle
  inside := by simp [start]

/-- Whatever tasks do on one controller, in any order, however nginx and the file system answer and
whoever is dropped: the phase takes steps to successors only; files are put back once at most for a
task; while one of the tasks that take the lock waits for a check the phase is testing, and while it
waits for a reload it is applying; rule files change in writing and in putting back only, unless the
main configuration has the place of one; and the phase is idle unless a change of rules holds the
lock. -/
theorem phases_follow (controller : Controller) (world : World) (idle : world.phase = .idle)
    (tasks : List Task) (moves : List Move) :
    let turns := (controller.start world tasks).moveAll moves
    (∀ move, (turns.move move).world.phase = turns.world.phase ∨
      (turns.move move).world.phase ∈ turns.world.phase.successors) ∧
    (∀ i, (controller.start world tasks).entries .rollingBack i moves ≤ 1) ∧
    (∀ (i : Nat) (task : Task) (call : Nginx.Call) (next : Nginx.Reply → Program TaskResult),
      tasks[i]? = some task → task.isExclusive = true →
      turns.threads[i]? = some (.calling call next) →
      call = controller.config.testCall ∧ turns.world.phase = .testing ∨
        call = controller.config.reloadCall ∧ turns.world.phase = .applying) ∧
    (∀ (turn : Turn) (directory : Location) (id : String), isRuleId id = true →
      controller.store.LeavesRoom turns.world.tree →
      (∀ place, turns.world.tree.place .busy controller.config.mainConfig = .ok place →
        place.location ≠ directory ++ [Store.fileName id]) →
      (turns.take turn).world.tree.content? (directory ++ [Store.fileName id]) ≠
        turns.world.tree.content? (directory ++ [Store.fileName id]) →
      turns.world.phase = .writing ∨ turns.world.phase = .rollingBack) ∧
    (turns.world.phase ≠ .idle →
      ∃ i task, turns.holder = some i ∧ tasks[i]? = some task ∧ task.isChange = true) := by
  intro turns
  have published := (controller.published_start idle tasks).moveAll moves
  refine ⟨?_, ?_, ?_, ?_, published.exists_change⟩
  · intro move
    exact (published.happens (turns.happens_move move)).2
  · intro i
    simpa only [Nat.zero_add] using published.once i
  · intro i task call next known exclusive here
    exact (published.calling known exclusive here).2
  · intro turn directory id valid room apart changed
    obtain same | ⟨i, call, next, here, performed⟩ := turns.tree_take turn
    · rw [same] at changed
      exact absurd rfl changed
    · rw [performed] at changed
      exact published.content?_step here valid room apart changed

/-- A file is removed beside a check that is no part of a change: the phase is writing. -/
theorem phases_follow_removal :
    let controller : Controller := ⟨{ activeDir := ⟨"/a"⟩, mainConfig := ⟨"/m.conf"⟩ }⟩
    let world : World :=
      { tree := { entries := [(["a"], .directory), (["a", "web.conf"], .file .empty)] } }
    let turns := (controller.start world [.remove "web", .gate]).moveAll
      [.turn (.step 0), .turn (.step 1), .turn (.step 0)]
    (turns.take (.step 0)).world.tree.content? (["a"] ++ [Store.fileName "web"]) ≠
        turns.world.tree.content? (["a"] ++ [Store.fileName "web"]) ∧
      (turns.world.phase = .writing ∨ turns.world.phase = .rollingBack) := by
  intro controller world turns
  have changed : (turns.take (.step 0)).world.tree.content? (["a"] ++ [Store.fileName "web"]) ≠
      turns.world.tree.content? (["a"] ++ [Store.fileName "web"]) := by decide +kernel
  have room : controller.store.LeavesRoom turns.world.tree :=
    fun count => Tree.noLinkNamed_of_entries (by decide +kernel) _
  have apart (place : Tree.Place)
      (found : turns.world.tree.place .busy controller.config.mainConfig = .ok place) :
      place.location ≠ ["a"] ++ [Store.fileName "web"] := by
    have there : (turns.world.tree.place .busy controller.config.mainConfig).toOption.map
        Tree.Place.location = some ["m.conf"] := by decide +kernel
    rw [found] at there
    have location : place.location = ["m.conf"] := Option.some.inj there
    rw [location]
    decide
  obtain ⟨_, _, _, files, _⟩ := controller.phases_follow world rfl
    [.remove "web", .gate] [.turn (.step 0), .turn (.step 1), .turn (.step 0)]
  exact ⟨changed, files (.step 0) ["a"] "web" (by decide) room apart changed⟩

/-- A valid configuration may place the main configuration among the rule files by a path with a
dot in front. Founding the store writes it there while the phase is idle. -/
theorem not_phases_follow_dot :
    let controller : Controller := ⟨{ activeDir := ⟨"a"⟩, mainConfig := ⟨"./a/web.conf"⟩ }⟩
    let turns := (controller.start { tree := {} } [.bootstrap]).moveAll
      (List.replicate 8 (.turn (.step 0)))
    controller.config.validate = .ok () ∧
      turns.world.tree.directory? (controller.store.directory .http) = some ["a"] ∧
      (turns.take (.step 0)).world.tree.content? (["a"] ++ [Store.fileName "web"]) ≠
        turns.world.tree.content? (["a"] ++ [Store.fileName "web"]) ∧
      turns.world.phase = .idle := by
  decide +kernel

end Controller

end ProxyKeeper
