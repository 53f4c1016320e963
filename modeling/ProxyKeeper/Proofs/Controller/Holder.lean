import ProxyKeeper.Proofs.Controller.Phases
import ProxyKeeper.Proofs.Controller.Serial
import ProxyKeeper.Proofs.Store.Site

/-!
# The holder of the lock

What the task that holds the lock has done since it took the lock. Nobody else changes files in the
meantime, so it is on its way from the files that it found, as if it were alone on the site. And
while it waits for a reload, the files are those that nginx checked for it.

Tasks may be dropped on the way, and calls of the file system may fail, though not by saying that
what is there is not.

## Main Definitions

* `Turns.found?` — the files that a program found
* `Turns.NamesFreshly` — runs in which names that are given out are borne by nothing
* `Attended` — the invariant: where the holder of the lock has got to
* `ReloadsTested` — the invariant: what the record shows while a task waits for a reload

## Main Results

* `Attended.takeAll`, `ReloadsTested.moveAll` — runs keep them
-/

namespace ProxyKeeper

namespace Turns

variable {α : Type}

/-- The files there were when a program took the lock, the last time if it did so again. -/
def found? (i : Nat) (turns : Turns α) : List Turn → Option Tree
  | [] => none
  | turn :: history =>
    ((turns.take turn).found? i history).or
      (if turns.acquirer? turn = some i then some turns.world.tree else none)

/-- Whether the next request of a program is one for a name. -/
def asksName (turns : Turns α) (i : Nat) : Bool :=
  match turns.threads[i]? with
  | some (.ready (.ask .freshName _)) => true
  | _ => false

/-- Whether every name that is given out in some turns is one that nothing bears. -/
def NamesFreshly (turns : Turns α) : List Turn → Prop
  | [] => True
  | turn :: history =>
    (turns.asksName turn.who = true →
      turns.world.tree.IsFresh (World.freshName turns.world.freshNames)) ∧
    (turns.take turn).NamesFreshly history

/-- Whether all names of files are short when names are given out. -/
def namesLong (turns : Turns α) : List Turn → Bool
  | [] => true
  | turn :: history =>
    (!turns.asksName turn.who || turns.world.tree.entries.all fun held =>
      held.1.all fun name =>
        decide (name.length ≤ (World.freshName turns.world.freshNames).length)) &&
    (turns.take turn).namesLong history

/-- The names of files are longer than what makes them fresh. -/
theorem namesFreshly_of_namesLong {turns : Turns α} {history : List Turn}
    (long : turns.namesLong history = true) : turns.NamesFreshly history := by
  induction history generalizing turns with
  | nil => trivial
  | cons turn history ih =>
    rw [namesLong, Bool.and_eq_true] at long
    refine ⟨fun asks => ?_, ih long.2⟩
    have long := long.1
    rw [asks, Bool.not_true, Bool.false_or] at long
    refine Tree.isFresh_of_length (Text.noSlash_freshName _) fun held listed name inside => ?_
    exact of_decide_eq_true (List.all_eq_true.1 (List.all_eq_true.1 long held listed) name inside)

end Turns

/-! ## Answers on a site -/

/-- What a program is answered among others is what it may be answered on a site, unless it is told
wrongly that something is not there. -/
theorem Site.answers_meet {request : Request} {outcomes left : Outcomes} {world world' : World}
    {given : request.Answer}
    (answered : World.meet request (outcomes, world) = (given, left, world'))
    (honest : some .notFound ∉ outcomes.faults)
    (fresh : request = .freshName → world.tree.IsFresh (World.freshName world.freshNames))
    (live : Live) :
    ∃ live', (terms true).answers request ⟨world.tree, live⟩ given ⟨world'.tree, live'⟩ := by
  cases request with
  | file call =>
    rw [World.meet] at answered
    dsimp only at answered
    split at answered
    next fault failed =>
      cases answered
      have other : fault ≠ .notFound := by
        rintro rfl
        exact honest (List.mem_of_head? (Option.join_eq_some_iff.1 failed))
      exact ⟨live, _, .fails rfl other (.nothing _), rfl⟩
    next =>
      cases answered
      exact ⟨live, _, .performs (.inl rfl), rfl⟩
  | nginx call =>
    refine ⟨(Site.replied call given ⟨world.tree, live⟩).live, ?_⟩
    cases answered
    show _ = _
    rw [replied]
    split <;> rfl
  | freshName =>
    cases answered
    exact ⟨live, fresh rfl, rfl⟩
  | acquire => cases answered; exact ⟨live, rfl⟩
  | release => cases answered; exact ⟨live, rfl⟩
  | publish phase => cases answered; exact ⟨live, rfl⟩
  | count event => cases answered; exact ⟨live, rfl⟩

/-- Names that are given out are known. -/
theorem World.isGiven_of_meet {request : Request} {outcomes left : Outcomes} {world world' : World}
    {given : request.Answer}
    (answered : World.meet request (outcomes, world) = (given, left, world')) :
    request.IsGiven given := by
  cases request with
  | freshName =>
    cases answered
    exact ⟨_, rfl⟩
  | _ => trivial

/-- A turn in which nothing is said wrongly not to be there. -/
theorem Turns.honest_meets {α : Type} (turns : Turns α) {turn : Turn}
    (honest : ∀ i, turn ≠ .fail i .notFound) : some .notFound ∉ (turns.meets turn).faults := by
  cases turn with
  | step i => rw [meets]; split <;> simp
  | fail i fault =>
    have other : IoFault.notFound ≠ fault := by
      rintro rfl
      exact honest i rfl
    rw [meets]
    split <;> simp [other]
  | reply i reply => rw [meets]; split <;> simp
  | drop i => simp [meets]

/-- What is recorded of a turn is what the program does whose turn it is. -/
theorem Turns.who_of_occurrence {α : Type} (turns : Turns α) {turn : Turn} {o : Occurrence}
    (recorded : o ∈ turns.occurrence? (.turn turn)) : o.who = turn.who := by
  cases turn with
  | step i =>
    obtain ⟨deed, _, rfl⟩ := Option.map_eq_some_iff.1 recorded
    rfl
  | fail i fault => rw [occurrence?] at recorded; split at recorded <;> cases recorded; rfl
  | reply i reply => rw [occurrence?] at recorded; split at recorded <;> cases recorded; rfl
  | drop i => cases recorded

/-! ## Files asked for by the holder -/

/-- What is left of a task that follows terms follows them. -/
theorem Thread.Follows.rest {terms : Terms Stage} {stage : Stage} {thread : Thread TaskResult}
    {q : Program TaskResult} (follows : thread.Follows terms stage) (rest : thread.rest? = some q) :
    q.Meets terms (fun _ s => s.holdsLock = false) stage := by
  cases thread with
  | dropped => cases rest
  | _ => cases rest; exact follows

/-- A task does not ask for the lock again, once it has asked for anything. -/
theorem Task.asks_acquire_first {controller : Controller} {task : Task} {stage : Stage}
    {promise : TaskResult → Stage → Prop} {request : Request}
    {next : request.Answer → Program TaskResult}
    (follows : (Program.ask request next).Meets (controller.protocol task) promise stage)
    {answer : request.Answer} (given : request.IsGiven answer)
    {again : Unit → Program TaskResult} : next answer ≠ .ask .acquire again := by
  intro same
  obtain ⟨⟨_, opens⟩, rest⟩ := follows
  have asked := rest answer _ ⟨rfl, given⟩
  rw [same] at asked
  obtain ⟨⟨outside, opensAgain⟩, _⟩ := asked
  have outside : stage.next request answer = .outside := outside
  by_cases first : stage = .outside
  · -- a task that takes the lock begins with that
    subst first
    rw [outside] at opensAgain
    obtain rfl := opens.2 (opensAgain.1 rfl)
    cases outside
  · exact Stage.next_ne_outside first request answer outside

namespace Sound

variable {config : ManagerConfig} {turns turns' : Turns TaskResult} {record : List Occurrence}
  {occurrence : Option Occurrence}

/-- While a task holds the lock, nobody else changes files. -/
theorem looks (sound : Sound config turns record) (happened : turns.Happens occurrence turns')
    {i : Nat} (mine : turns.holder = some i) (others : ∀ o ∈ occurrence, o.who ≠ i) :
    ∀ o ∈ occurrence, o.deed.changes = false := by
  cases happened with
  | @files j call next here answer left kept =>
    obtain ⟨stage, ⟨allowed, _⟩, locks, _⟩ := sound.tracked _ _ here
    rintro o ⟨⟩
    cases changes : call.changes with
    | false => exact changes
    | true =>
      have holds := locks.1 (Stage.holdsLock_of_mayChange (allowed changes))
      exact absurd (Option.some.inj (holds.symm.trans mine)) (others _ rfl)
  | _ => rintro o ⟨⟩ <;> rfl

end Sound

/-! ## The invariant -/

/-- Whoever asks for the lock has not begun, and the holder of the lock is where its program may be
on a site by itself, from the files that it found. -/
structure Attended (controller : Controller) (tasks : List Task) (found : Nat → Option Tree)
    (turns : Turns TaskResult) : Prop where
  waiting : ∀ i next, turns.rest? i = some (.ask .acquire next) →
    ∃ task, tasks[i]? = some task ∧ task.program controller = .ask .acquire next
  held : ∀ i, turns.holder = some i → ∃ before task q live, found i = some before ∧
    tasks[i]? = some task ∧ turns.rest? i = some q ∧
    (task.program controller).Reaches (Site.terms true) ⟨before, ⟨before, 0⟩⟩ q
      ⟨turns.world.tree, live⟩

namespace Attended

variable {controller : Controller} {tasks : List Task} {found : Nat → Option Tree}
  {undone : Nat → Nat} {record : List Occurrence} {turns turns' : Turns TaskResult}

/-- A program is dropped. -/
theorem drop (attended : Attended controller tasks found turns) (j : Nat) :
    Attended controller tasks found (turns.drop j) := by
  have threads : (turns.drop j).threads = turns.threads.set j .dropped := by
    rw [Turns.drop]
    split <;> rfl
  have tree : (turns.drop j).world.tree = turns.world.tree := by
    rw [Turns.drop]
    split <;> rfl
  have holder {i : Nat} (mine : (turns.drop j).holder = some i) :
      turns.holder = some i ∧ i ≠ j := by
    rw [Turns.drop] at mine
    split at mine
    next => cases mine
    next others =>
      refine ⟨mine, ?_⟩
      rintro rfl
      exact others mine
  have rests {i : Nat} (other : i ≠ j) : (turns.drop j).rest? i = turns.rest? i := by
    rw [Turns.rest?, threads, List.getElem?_set_ne (Ne.symm other), Turns.rest?]
  refine ⟨?_, ?_⟩
  · intro i next asks
    by_cases other : i = j
    · -- a program that was dropped asks for nothing
      subst other
      rw [Turns.rest?, threads] at asks
      obtain ⟨thread, here, is⟩ := Option.bind_eq_some_iff.1 asks
      have inside := (List.getElem?_eq_some_iff.1 here).1
      rw [List.length_set] at inside
      rw [List.getElem?_set_self inside] at here
      cases here
      cases is
    · rw [rests other] at asks
      exact attended.waiting i next asks
  · intro i mine
    obtain ⟨mine, other⟩ := holder mine
    rw [tree, rests other]
    exact attended.held i mine

/-- Whoever asks for the lock has not begun, also after a program has gone on with anything else. -/
theorem waiting_of_rests (attended : Attended controller tasks found turns) {j : Nat}
    {rest : Option (Program TaskResult)}
    (rests : ∀ i, turns'.rest? i = if i = j then rest else turns.rest? i)
    (other : ∀ again, rest ≠ some (.ask .acquire again)) (i : Nat)
    (next : Unit → Program TaskResult) (asks : turns'.rest? i = some (.ask .acquire next)) :
    ∃ task, tasks[i]? = some task ∧ task.program controller = .ask .acquire next := by
  rw [rests] at asks
  split at asks
  next => exact absurd asks (other next)
  next => exact attended.waiting i next asks

/-- A program takes the lock. It has not begun, so this is its first request. -/
theorem acquires (attended : Attended controller tasks found turns) {j : Nat}
    {next : Unit → Program TaskResult}
    (here : turns.threads[j]? = some (.ready (.ask .acquire next)))
    (once : ∀ again, some (next ()) ≠ some (.ask .acquire again)) :
    Attended controller tasks
      (fun i => (if some j = some i then some turns.world.tree else none).or (found i))
      { turns.put j (.ready (next ())) with holder := some j } := by
  have rests := Turns.rest?_of_set
    { turns.put j (.ready (next ())) with holder := some j } rfl here
  refine ⟨attended.waiting_of_rests rests once, ?_⟩
  rintro i ⟨⟩
  obtain ⟨task, known, begins⟩ := attended.waiting j next (Turns.rest?_eq here)
  refine ⟨turns.world.tree, task, next (), ⟨turns.world.tree, 0⟩, by simp, known, ?_, ?_⟩
  · rw [rests, if_pos rfl]
    rfl
  · rw [begins]
    exact .ask .refl rfl

/-- A program is answered as on a site. If it is not the holder of the lock, no file changes while
anybody holds it. -/
theorem answers (attended : Attended controller tasks found turns) {j : Nat}
    {thread : Thread TaskResult} {request : Request}
    {next : request.Answer → Program TaskResult} {given : request.Answer} {world : World}
    (here : turns.threads[j]? = some thread) (asks : thread.rest? = some (.ask request next))
    (once : ∀ again, some (next given) ≠ some (.ask .acquire again))
    (onSite : ∀ live, ∃ live', (Site.terms true).answers request ⟨turns.world.tree, live⟩ given
      ⟨world.tree, live'⟩)
    (untouched : ∀ i, turns.holder = some i → i ≠ j → world.tree = turns.world.tree) :
    Attended controller tasks found
      { turns.put j (.ready (next given)) with world := world } := by
  have rests := Turns.rest?_of_set
    { turns.put j (.ready (next given)) with world := world } rfl here
  refine ⟨attended.waiting_of_rests rests once, fun i (mine : turns.holder = some i) => ?_⟩
  obtain ⟨before, task, q, live, there, known, rest, reaches⟩ := attended.held i mine
  by_cases same : i = j
  · subst same
    rw [Turns.rest?_eq here, asks] at rest
    obtain rfl := Option.some.inj rest
    obtain ⟨live', answered⟩ := onSite live
    refine ⟨before, task, next given, live', there, known, ?_, .ask reaches answered⟩
    rw [rests, if_pos rfl]
    rfl
  · refine ⟨before, task, q, live, there, known, ?_, ?_⟩
    · rw [rests, if_neg same]
      exact rest
    · rw [← untouched i mine same] at reaches
      exact reaches

/-- One turn after the other keeps the invariant. -/
theorem take (attended : Attended controller tasks found turns)
    (published : Published controller tasks undone turns)
    (sound : Sound controller.config turns record) {turn : Turn}
    (honest : ∀ i, turn ≠ .fail i .notFound)
    (fresh : turns.asksName turn.who = true →
      turns.world.tree.IsFresh (World.freshName turns.world.freshNames)) :
    Attended controller tasks
      (fun i =>
        (if turns.acquirer? turn = some i then some turns.world.tree else none).or (found i))
      (turns.take turn) := by
  by_cases whole : turn.drops = true
  · obtain ⟨j, rfl⟩ : ∃ j, turn = .drop j := by
      cases turn with
      | drop j => exact ⟨j, rfl⟩
      | _ => cases whole
    exact attended.drop j
  have taken := turns.takes_take (Bool.eq_false_iff.2 whole)
  have honest := turns.honest_meets honest
  have untouched (i : Nat) (mine : turns.holder = some i) (other : i ≠ turn.who) :
      (turns.take turn).world.tree = turns.world.tree := by
    have happened := turns.happens_move (.turn turn)
    refine happened.tree_eq (sound.looks happened mine fun o recorded => ?_)
    rw [turns.who_of_occurrence recorded]
    exact Ne.symm other
  revert untouched
  generalize turns.take turn = turns' at taken ⊢
  intro untouched
  generalize turns.acquirer? turn = acquirer at taken ⊢
  generalize turns.meets turn = new at taken honest
  generalize turn.who = j at taken fresh untouched
  -- what the program whose turn it is asks for next is not the lock
  have once {thread : Thread TaskResult} {request : Request}
      {next : request.Answer → Program TaskResult} (here : turns.threads[j]? = some thread)
      (asks : thread.rest? = some (.ask request next)) {given : request.Answer}
      (isGiven : request.IsGiven given) (again : Unit → Program TaskResult) :
      some (next given) ≠ some (.ask .acquire again) := by
    obtain ⟨task, stage, _, follows, _⟩ := published.tracked j thread here
    exact fun same => Task.asks_acquire_first (follows.rest asks) isGiven (Option.some.inj same)
  cases taken with
  | idles => exact ⟨attended.waiting, attended.held⟩
  | @stays thread thread' here same =>
    have rests (i : Nat) : (turns.put j thread').rest? i = turns.rest? i := by
      rw [Turns.rest?_of_set (turns.put j thread') rfl here, same]
      split
      next mine => rw [mine, Turns.rest?_eq here]
      next => rfl
    refine ⟨fun i next asks => attended.waiting i next (rests i ▸ asks), fun i mine => ?_⟩
    rw [rests]
    exact attended.held i mine
  | acquires here free => exact attended.acquires here (once here rfl trivial)
  | @releases next here =>
    have rests := Turns.rest?_of_set
      { turns.put j (.ready (next ())) with holder := none } rfl here
    exact ⟨attended.waiting_of_rests rests (once here rfl trivial), nofun⟩
  | @answers thread request next given world _ here asks inner answered =>
    have answered := answered {}
    have named : request = .freshName →
        turns.world.tree.IsFresh (World.freshName turns.world.freshNames) := by
      rintro rfl
      refine fresh ?_
      cases thread with
      | ready program =>
        cases asks
        rw [Turns.asksName, here]
      | _ => cases asks
    have given := once here asks (World.isGiven_of_meet answered)
    rw [Outcomes.append_nil] at answered
    exact attended.answers here asks given (Site.answers_meet answered honest named) untouched

/-- Runs keep the invariant. -/
theorem takeAll (attended : Attended controller tasks found turns)
    (published : Published controller tasks undone turns)
    (sound : Sound controller.config turns record) {history : List Turn}
    (honest : ∀ i, .fail i .notFound ∉ history) (fresh : turns.NamesFreshly history) :
    Attended controller tasks (fun i => (turns.found? i history).or (found i))
      (turns.takeAll history) := by
  induction history generalizing turns found undone record with
  | nil => exact attended
  | cons turn history ih =>
    have now := attended.take published sound
      (fun i same => honest i (same ▸ List.mem_cons_self ..)) fresh.1
    have later := ih now (published.happens (turns.happens_move (.turn turn))).1
      (sound.happens (turns.happens_move (.turn turn)))
      (fun i listed => honest i (List.mem_cons_of_mem _ listed)) fresh.2
    show Attended controller tasks _ ((turns.take turn).takeAll history)
    simpa only [Turns.found?, Option.or_assoc] using later

/-- Tasks that have not begun. -/
theorem start (controller : Controller) (world : World) (tasks : List Task) :
    Attended controller tasks (fun _ => none) (controller.start world tasks) := by
  refine ⟨fun i next asks => ?_, nofun⟩
  obtain ⟨thread, here, is⟩ := Option.bind_eq_some_iff.1 asks
  rw [Controller.start, List.getElem?_map] at here
  obtain ⟨task, known, rfl⟩ := Option.map_eq_some_iff.1 here
  exact ⟨task, known, Option.some.inj is⟩

end Attended

/-! ## Waiting for a reload -/

/-- While the holder of the lock waits for a reload, the record ends in a check of the files there
are that passed, and in the call for the reload. -/
def ReloadsTested (config : ManagerConfig) (turns : Turns TaskResult) (record : List Occurrence) :
    Prop :=
  ∀ i next, turns.threads[i]? = some (.calling config.reloadCall next) → turns.holder = some i →
    ∃ reply : Nginx.Reply, reply.isSuccess = true ∧
      TestedSince config i record turns.world.tree
        [.ends config.testCall reply, .begins config.reloadCall]

/-- One move, by whom it is and how that program comes to wait for nginx. -/
theorem Turns.Happens.moves {α : Type} {turns turns' : Turns α} {occurrence : Option Occurrence}
    (happened : turns.Happens occurrence turns') :
    turns' = turns ∧ occurrence = none ∨
    ∃ j thread, turns'.threads = turns.threads.set j thread ∧ (∀ o ∈ occurrence, o.who = j) ∧
      (∀ i, i ≠ j → turns'.holder = some i → turns.holder = some i) ∧
      ∀ call next, thread = .calling call next →
        turns.threads[j]? = some (.ready (.ask (.nginx call) next)) ∧
        occurrence = some ⟨j, .begins call, turns.world.tree⟩ ∧ turns'.holder = turns.holder := by
  have nobody (j : Nat) : ∀ o ∈ (none : Option Occurrence), o.who = j := by rintro o ⟨⟩
  cases happened with
  | idles => exact .inl ⟨rfl, rfl⟩
  | @begins j call next here =>
    refine .inr ⟨j, _, rfl, ?_, fun _ _ holds => holds, ?_⟩
    · rintro o ⟨⟩
      rfl
    · rintro call next ⟨⟩
      exact ⟨here, rfl, rfl⟩
  | drops j =>
    refine .inr ⟨j, .dropped, ?_, nobody j, fun i other holds => ?_, by rintro _ _ ⟨⟩⟩
    · rw [drop]
      split <;> rfl
    · rw [drop] at holds
      split at holds
      next => cases holds
      next => exact holds
  | acquires here free =>
    refine .inr ⟨_, _, rfl, nobody _, fun i other holds => ?_, by rintro _ _ ⟨⟩⟩
    exact absurd (Option.some.inj holds).symm other
  | releases here =>
    exact .inr ⟨_, _, rfl, nobody _, fun _ _ holds => (by cases holds), by rintro _ _ ⟨⟩⟩
  | ends here reply =>
    exact .inr ⟨_, _, rfl, by rintro o ⟨⟩; rfl, fun _ _ holds => holds, by rintro _ _ ⟨⟩⟩
  | files here answer left kept =>
    exact .inr ⟨_, _, rfl, by rintro o ⟨⟩; rfl, fun _ _ holds => holds, by rintro _ _ ⟨⟩⟩
  | finishes here => exact .inr ⟨_, _, rfl, nobody _, fun _ _ holds => holds, by rintro _ _ ⟨⟩⟩
  | names here => exact .inr ⟨_, _, rfl, nobody _, fun _ _ holds => holds, by rintro _ _ ⟨⟩⟩
  | publishes here => exact .inr ⟨_, _, rfl, nobody _, fun _ _ holds => holds, by rintro _ _ ⟨⟩⟩
  | counts here => exact .inr ⟨_, _, rfl, nobody _, fun _ _ holds => holds, by rintro _ _ ⟨⟩⟩

namespace ReloadsTested

variable {config : ManagerConfig} {turns turns' : Turns TaskResult} {record : List Occurrence}
  {occurrence : Option Occurrence}

/-- Every move keeps the invariant. -/
theorem happens (tested : ReloadsTested config turns record) (sound : Sound config turns record)
    (happened : turns.Happens occurrence turns') :
    ReloadsTested config turns' (record ++ occurrence.toList) := by
  intro i next here mine
  obtain ⟨rfl, rfl⟩ | ⟨j, thread, set, who, holder, waits⟩ := happened.moves
  · rw [Option.toList_none, List.append_nil]
    exact tested i next here mine
  by_cases other : i = j
  · -- the call begins, and it is due
    subst other
    rw [set] at here
    have inside := (List.getElem?_eq_some_iff.1 here).1
    rw [List.length_set] at inside
    rw [List.getElem?_set_self inside] at here
    obtain ⟨asks, rfl, held⟩ := waits _ _ (Option.some.inj here)
    have looks : ∀ o ∈ some (⟨i, .begins config.reloadCall, turns.world.tree⟩ : Occurrence),
        o.deed.changes = false := by
      rintro o ⟨⟩
      rfl
    have tree := happened.tree_eq looks
    obtain ⟨stage, ⟨allowed, _⟩, locks, shows⟩ := sound.tracked i _ asks
    obtain ⟨reply, success, since⟩ := (shows.due allowed .reload rfl).2 rfl
    have longer := since.append (List.forall_mem_singleton.2
      (⟨rfl, rfl⟩ : (⟨i, .begins config.reloadCall, turns.world.tree⟩ :
        Occurrence).deed.changes = false ∧ _ = turns.world.tree))
    refine ⟨reply, success, ?_⟩
    rw [tree]
    simpa [callsBy, Deed.isCall] using longer
  · -- somebody else goes on, and changes nothing
    rw [set, List.getElem?_set_ne (Ne.symm other)] at here
    have mine := holder i other mine
    obtain ⟨reply, success, since⟩ := tested i next here mine
    have others : ∀ o ∈ occurrence, o.who ≠ i := fun o listed same =>
      other (same.symm.trans (who o listed))
    have looks := sound.looks happened mine others
    have looked : ∀ o ∈ occurrence.toList,
        o.deed.changes = false ∧ o.tree = turns.world.tree := by
      intro o listed
      obtain rfl := Option.mem_toList.1 listed
      exact ⟨looks o rfl, happened.tree_of_mem⟩
    have longer := since.append looked
    refine ⟨reply, success, ?_⟩
    rw [happened.tree_eq looks]
    rwa [callsBy_of_ne fun o listed => others o (Option.mem_toList.1 listed),
      List.append_nil] at longer

/-- Any number of moves keep the invariant. -/
theorem moveAll (tested : ReloadsTested config turns record) (sound : Sound config turns record)
    (moves : List Move) :
    ReloadsTested config (turns.moveAll moves) (record ++ turns.record moves) := by
  induction moves generalizing turns record with
  | nil =>
    rw [Turns.record, List.append_nil]
    exact tested
  | cons move moves ih =>
    have happened := turns.happens_move move
    rw [Turns.record, ← List.append_assoc]
    exact ih (tested.happens sound happened) (sound.happens happened)

end ReloadsTested

end ProxyKeeper
