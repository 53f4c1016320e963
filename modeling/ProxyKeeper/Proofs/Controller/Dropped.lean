import ProxyKeeper.Proofs.Controller.Holder
import ProxyKeeper.Proofs.Controller.Requested

/-!
# Tasks that are dropped

A task that brings rules into force may be dropped while it waits for nginx. Then the phase is idle,
the lock is free, and nobody puts files back: the files stay as they are. When the task waits for
the reload they are files that nginx has accepted. When it waits for the check they are the files
that the task asks for, and nginx has not accepted them.

## Main Definitions

* `PassedSince` — the record shows that files passed a check
* `Controller.IsAccepted` — the files are those from before a task, or passed its check

## Main Results

* `Controller.isAccepted_of_dropped` — what is left when a task is dropped
* `Controller.not_isAccepted_of_dropped` — files that were not accepted are left
-/

namespace ProxyKeeper

/-- The record shows a check of given files by a program that passed, and nothing in it after the
beginning of the check may have changed files. -/
def PassedSince (config : ManagerConfig) (i : Nat) (record : List Occurrence) (tree : Tree) :
    Prop :=
  ∃ (reply : Nginx.Reply) (since : List Deed), reply.isSuccess = true ∧
    TestedSince config i record tree (.ends config.testCall reply :: since)

/-- The call that a program waits for. -/
def Thread.call? {α : Type} : Thread α → Option Nginx.Call
  | .calling call _ => some call
  | _ => none

theorem Thread.exists_calling {α : Type} {thread : Option (Thread α)} {call : Nginx.Call}
    (waits : thread.bind Thread.call? = some call) :
    ∃ next, thread = some (.calling call next) := by
  obtain ⟨thread, rfl, is⟩ := Option.bind_eq_some_iff.1 waits
  cases thread with
  | calling call' next =>
    cases is
    exact ⟨next, rfl⟩
  | _ => cases is

/-- While a task waits for its check, none has passed. -/
theorem Sound.not_passedSince {config : ManagerConfig} {turns : Turns TaskResult}
    {record : List Occurrence} (sound : Sound config turns record) {i : Nat}
    (mine : turns.holder = some i) {next : Nginx.Reply → Program TaskResult}
    (here : turns.threads[i]? = some (.calling config.testCall next)) (tree : Tree) :
    ¬ PassedSince config i record tree := by
  rintro ⟨reply, since, _, passed⟩
  obtain ⟨stage, ⟨allowed, _⟩, locks, shows⟩ := sound.tracked i _ here
  have held := locks.2 mine
  cases stage with
  | outside => cases held
  | testing =>
    -- the record shows the beginning of the check and no end of it
    have begun : TestedSince config i record turns.world.tree [] := shows
    have both := begun.callsBy_eq.symm.trans passed.callsBy_eq
    cases both
  | applying =>
    cases congrArg Nginx.Call.action (show config.testCall = config.reloadCall from allowed)
  | _ => exact allowed.elim

/-- A tree is known by what it is made of. -/
theorem Tree.eq_some_of_parts {found : Option Tree} {tree : Tree}
    (same : (found.map fun held => (held.entries, held.workingDirectory)) =
      some (tree.entries, tree.workingDirectory)) : found = some tree := by
  obtain ⟨⟨entries, directory⟩, rfl, is⟩ := Option.map_eq_some_iff.1 same
  cases tree
  cases is
  rfl

namespace Turns

variable {α : Type}

/-- Turns are moves. -/
theorem moveAll_turns (turns : Turns α) (history : List Turn) :
    turns.moveAll (history.map .turn) = turns.takeAll history := by
  rw [moveAll, List.foldl_map]
  rfl

/-- The holder of the lock is dropped: the phase is idle again, the lock is free, and the files stay
as they are. -/
theorem drop_of_holder {turns : Turns α} {i : Nat} (mine : turns.holder = some i) :
    (turns.drop i).world.phase = .idle ∧ (turns.drop i).holder = none ∧
      (turns.drop i).world.tree = turns.world.tree := by
  rw [drop, if_pos mine]
  exact ⟨rfl, rfl, rfl⟩

end Turns

namespace Controller

/-- The record of any run is sound. -/
theorem sound_takeAll (controller : Controller) (world : World) (tasks : List Task)
    (history : List Turn) :
    Sound controller.config ((controller.start world tasks).takeAll history)
      ((controller.start world tasks).record (history.map .turn)) := by
  have sound := (controller.sound_start world tasks).moveAll (history.map .turn)
  rw [Turns.moveAll_turns] at sound
  exact sound

/-- Whether rule files are those from before a task, or passed a check that the task made. -/
def IsAccepted (controller : Controller) (i : Nat) (record : List Occurrence)
    (before after : Tree) : Prop :=
  controller.store.shelf after = controller.store.shelf before ∨
    PassedSince controller.config i record after

/-- A task that brings rules into force is dropped while it waits for nginx, among any other tasks,
with any replies and faults, and after any others were dropped. Then the phase is idle, the lock is
free, and the files stay as they are. If it waited for the reload, they passed its check. If it
waited for the check, they are the files it asks for, and they passed no check. So where the files
that it found were in order, those that are left are the ones from before, or passed its check, if
and only if it waited for the reload or what it asks for was there before. -/
theorem isAccepted_of_dropped (controller : Controller) {world : World} (idle : world.phase = .idle)
    {tasks : List Task} {history : List Turn} (honest : ∀ i, .fail i .notFound ∉ history)
    (fresh : (controller.start world tasks).NamesFreshly history) {i : Nat} {task : Task}
    (known : tasks[i]? = some task) (brings : task.brings = true) {call : Nginx.Call}
    {next : Nginx.Reply → Program TaskResult}
    (waits : ((controller.start world tasks).takeAll history).threads[i]? =
      some (.calling call next)) :
    let start := controller.start world tasks
    let record := start.record (history.map .turn)
    let turns := start.takeAll history
    let after := turns.drop i
    let shelf := controller.store.shelf
    after.world.phase = .idle ∧ after.holder = none ∧ after.world.tree = turns.world.tree ∧
    (call = controller.config.testCall ∨ call = controller.config.reloadCall) ∧
    (call = controller.config.reloadCall →
      PassedSince controller.config i record after.world.tree) ∧
    ∃ before, start.found? i history = some before ∧ (controller.store.Tidy before →
      (call = controller.config.testCall →
        task.Requests controller (shelf before) (shelf after.world.tree) ∧
          ¬ PassedSince controller.config i record after.world.tree) ∧
      (controller.IsAccepted i record before after.world.tree ↔
        call = controller.config.reloadCall ∨
          task.Requests controller (shelf before) (shelf before))) := by
  intro start record turns after shelf
  have moves : start.moveAll (history.map .turn) = turns := start.moveAll_turns history
  have published : Published controller tasks _ turns :=
    moves ▸ (controller.published_start idle tasks).moveAll (history.map .turn)
  have sound : Sound controller.config turns record := controller.sound_takeAll world tasks history
  have tested : ReloadsTested controller.config turns record := by
    have none : ReloadsTested controller.config start [] := fun i next here holds => nomatch holds
    have tested := none.moveAll (controller.sound_start world tasks) (history.map .turn)
    rw [moves] at tested
    exact tested
  have attended : Attended controller tasks (fun i => (start.found? i history).or none) turns :=
    (Attended.start controller world tasks).takeAll (controller.published_start idle tasks)
      (controller.sound_start world tasks) honest fresh
  have exclusive : task.isExclusive = true := by
    cases task <;> first | rfl | cases brings
  obtain ⟨mine, calls⟩ := published.calling known exclusive waits
  have calls : call = controller.config.testCall ∨ call = controller.config.reloadCall :=
    calls.imp And.left And.left
  obtain ⟨before, task', q, live, found, known', rest, reaches⟩ := attended.held i mine
  obtain rfl := Option.some.inj (known.symm.trans known')
  obtain rfl : .ask (.nginx call) next = q :=
    Option.some.inj ((Turns.rest?_eq waits).symm.trans rest)
  obtain ⟨phase, free, tree⟩ := Turns.drop_of_holder mine
  have passed (reloads : call = controller.config.reloadCall) :
      PassedSince controller.config i record after.world.tree := by
    subst reloads
    obtain ⟨reply, success, since⟩ := tested i next waits mine
    exact ⟨reply, _, success, tree ▸ since⟩
  refine ⟨phase, free, tree, calls, passed, before, by simpa using found, fun tidy => ?_⟩
  have checked (checks : call = controller.config.testCall) :
      task.Requests controller (shelf before) (shelf after.world.tree) ∧
        ¬ PassedSince controller.config i record after.world.tree := by
    subst checks
    have meets := @Task.meets_checking controller ⟨before, ⟨before, 0⟩⟩ task brings tidy
    have left := meets.of_reaches reaches fun _ _ _ _ answered => answered
    exact ⟨tree ▸ left.1 rfl, sound.not_passedSince mine waits _⟩
  refine ⟨checked, ?_⟩
  rcases calls with checks | reloads
  · obtain ⟨requests, untested⟩ := checked checks
    constructor
    · rintro (same | passed)
      · have same : shelf after.world.tree = shelf before := same
        rw [same] at requests
        exact .inr requests
      · exact absurd passed untested
    · rintro (reloads | already)
      · exact .inr (passed reloads)
      · exact .inl (already.unique requests)
  · exact iff_of_true (.inr (passed reloads)) (.inl reloads)

/-- A rule is applied where there was none, and is dropped while nginx checks the files, and in
another run while nginx takes them up. -/
theorem isAccepted_of_dropped_twice :
    let controller : Controller := ⟨{ activeDir := ⟨"/a"⟩ }⟩
    let rule : Rule :=
      { id := "web", targetContainer := "web", targetPort := 80, created := .epoch }
    let tree : Tree := { entries := [(["a"], .directory)] }
    let start := controller.start { tree } [.apply rule]
    let checks := List.replicate 11 (.step 0)
    let reloads := checks ++ .reply 0 (.finished { success := true }) :: List.replicate 3 (.step 0)
    let left (history : List Turn) : Tree := ((start.takeAll history).drop 0).world.tree
    (Task.apply rule).Requests controller (controller.store.shelf tree)
        (controller.store.shelf (left checks)) ∧
      PassedSince controller.config 0 (start.record (reloads.map .turn)) (left reloads) ∧
      controller.IsAccepted 0 (start.record (reloads.map .turn)) tree (left reloads) := by
  intro controller rule tree start checks reloads left
  have tidy : controller.store.Tidy tree := by
    refine Store.Tidy.of_entries (by decide) (by decide) ?_ ⟨["a"], by decide⟩ (by decide)
    simp [tree]
  -- both runs are those of one task, which finds the tree
  have dropped {history : List Turn} {call : Nginx.Call}
      (honest : ∀ i, .fail i .notFound ∉ history) (long : start.namesLong history = true)
      (waits : (start.takeAll history).threads[0]?.bind Thread.call? = some call)
      (found : ((start.found? 0 history).map fun held => (held.entries, held.workingDirectory)) =
        some (tree.entries, tree.workingDirectory)) :
      (call = controller.config.testCall → (Task.apply rule).Requests controller
        (controller.store.shelf tree) (controller.store.shelf (left history))) ∧
      (call = controller.config.reloadCall →
        PassedSince controller.config 0 (start.record (history.map .turn)) (left history) ∧
        controller.IsAccepted 0 (start.record (history.map .turn)) tree (left history)) := by
    obtain ⟨next, waits⟩ := Thread.exists_calling waits
    obtain ⟨_, _, _, _, passed, before, there, left⟩ :=
      @isAccepted_of_dropped controller { tree } rfl [.apply rule] history honest
        (Turns.namesFreshly_of_namesLong long) 0 (.apply rule) rfl rfl call next waits
    obtain rfl := Option.some.inj (there.symm.trans (Tree.eq_some_of_parts found))
    obtain ⟨checked, accepted⟩ := left tidy
    exact ⟨fun checks => (checked checks).1,
      fun reloads => ⟨passed reloads, accepted.2 (.inl reloads)⟩⟩
  have checked := @dropped checks controller.config.testCall (by simp [checks])
    (by decide +kernel) (by decide +kernel) (by decide +kernel)
  have reloaded := @dropped reloads controller.config.reloadCall (by simp [reloads, checks])
    (by decide +kernel) (by decide +kernel) (by decide +kernel)
  exact ⟨checked.1 rfl, reloaded.2 rfl⟩

/-- A file is left that nginx has not accepted: a rule is applied where there was none, and is
dropped while nginx checks its file. -/
theorem not_isAccepted_of_dropped :
    let controller : Controller := ⟨{ activeDir := ⟨"/a"⟩ }⟩
    let rule : Rule :=
      { id := "web", targetContainer := "web", targetPort := 80, created := .epoch }
    let tree : Tree := { entries := [(["a"], .directory)] }
    let start := controller.start { tree } [.apply rule]
    let history := List.replicate 11 (.step 0)
    let turns := start.takeAll history
    rule.enabled = true ∧ (∀ i fault, .fail i fault ∉ history) ∧
      turns.threads[0]?.bind Thread.call? = some controller.config.testCall ∧
      start.found? 0 history = some tree ∧
      ¬ controller.IsAccepted 0 (start.record (history.map .turn)) tree
        (turns.drop 0).world.tree := by
  intro controller rule tree start history turns
  have waits : turns.threads[0]?.bind Thread.call? = some controller.config.testCall := by
    decide +kernel
  refine ⟨rfl, ?_, waits, Tree.eq_some_of_parts (by decide +kernel), ?_⟩
  · intro i fault listed
    cases List.eq_of_mem_replicate listed
  · rintro (same | passed)
    · have changed : controller.store.shelf (turns.drop 0).world.tree "web" .http ≠
          controller.store.shelf tree "web" .http := by decide +kernel
      exact changed (congrFun (congrFun same "web") .http)
    · obtain ⟨next, here⟩ := Thread.exists_calling waits
      have mine : turns.holder = some 0 := by decide +kernel
      have sound := controller.sound_takeAll { tree } [.apply rule] history
      exact sound.not_passedSince mine here _ passed

end Controller

end ProxyKeeper
