import ProxyKeeper.Proofs.Controller.Moves
import ProxyKeeper.Proofs.Controller.Stage

/-!
# Reloads of tested files

Any number of tasks on one controller, taking turns in any order, with nginx and the file system
answering as they like and tasks dropped at any time. Each task keeps to the discipline of its
stages, and only the holder of the lock is at a stage that changes files. So between a check that
passed and the reload after it nobody changes a file: nginx is asked to reload exactly the files
that it checked.

## Main Definitions

* `Controller.start` — tasks that have not begun
* `callsBy` — what the record shows of the calls of nginx by one task
* `TestedSince`, `JustTested` — the record ends in a check of the files there are
* `Sound` — the invariant: the record shows of each task what its stage says

## Main Results

* `Sound.happens` — every move keeps the invariant
* `Controller.reload_justTested` — every reload follows a check that passed, with the same files
-/

namespace ProxyKeeper

/-- Whether a deed is a call of nginx, at its beginning or its end. -/
def Deed.isCall : Deed → Bool
  | .file _ => false
  | .begins _ => true
  | .ends _ _ => true

/-- Whether a call of nginx for an action begins in a deed. -/
def Deed.starts (action : Nginx.Action) : Deed → Bool
  | .begins call => call.action = action
  | _ => false

/-- The calls of nginx by one program, at their beginning and their end. -/
def callsBy (i : Nat) (record : List Occurrence) : List Deed :=
  record.filterMap fun o => if o.who = i && o.deed.isCall then some o.deed else none

theorem callsBy_append (i : Nat) (front back : List Occurrence) :
    callsBy i (front ++ back) = callsBy i front ++ callsBy i back :=
  List.filterMap_append

theorem callsBy_of_ne {i : Nat} {record : List Occurrence} (h : ∀ o ∈ record, o.who ≠ i) :
    callsBy i record = [] := by
  refine List.filterMap_eq_nil_iff.2 fun o mem => ?_
  rw [if_neg]
  simp [h o mem]

/-- The record ends in a check of given files by a program, and nothing in it after the beginning of
the check may have changed files. `since` are the calls of nginx by the program from there on. -/
def TestedSince (config : ManagerConfig) (i : Nat) (record : List Occurrence) (tree : Tree)
    (since : List Deed) : Prop :=
  ∃ earlier between, record = earlier ++ ⟨i, .begins config.testCall, tree⟩ :: between ∧
    callsBy i earlier = [] ∧ callsBy i between = since ∧
    ∀ o ∈ between, o.deed.changes = false ∧ o.tree = tree

/-- All that a program called nginx for was one check of the files there are, and it passed. -/
def JustTested (config : ManagerConfig) (i : Nat) (record : List Occurrence) (tree : Tree) : Prop :=
  ∃ reply : Nginx.Reply, reply.isSuccess = true ∧
    TestedSince config i record tree [.ends config.testCall reply]

theorem TestedSince.append {config : ManagerConfig} {i : Nat} {record : List Occurrence}
    {tree : Tree} {since : List Deed} (h : TestedSince config i record tree since)
    {more : List Occurrence} (looks : ∀ o ∈ more, o.deed.changes = false ∧ o.tree = tree) :
    TestedSince config i (record ++ more) tree (since ++ callsBy i more) := by
  obtain ⟨earlier, between, rfl, before, after, same⟩ := h
  refine ⟨earlier, between ++ more, by simp, before, ?_, ?_⟩
  · rw [callsBy_append, after]
  · exact List.forall_mem_append.2 ⟨same, looks⟩

theorem TestedSince.callsBy_eq {config : ManagerConfig} {i : Nat} {record : List Occurrence}
    {tree : Tree} {since : List Deed} (h : TestedSince config i record tree since) :
    callsBy i record = .begins config.testCall :: since := by
  obtain ⟨earlier, between, rfl, before, after, _⟩ := h
  rw [callsBy_append, before, List.nil_append, ← after]
  simp [callsBy, Deed.isCall]

/-! ## The invariant -/

/-- What the record shows of a program at a stage; `waits` says whether the program waits for
nginx. -/
def Stage.Shows (config : ManagerConfig) (i : Nat) (record : List Occurrence) (tree : Tree)
    (waits : Bool) : Stage → Prop
  | .outside => waits = false → callsBy i record = []
  | .entered => callsBy i record = []
  | .writing => callsBy i record = []
  | .testing => if waits then TestedSince config i record tree [] else callsBy i record = []
  | .passed => JustTested config i record tree
  | .applying => waits = false → JustTested config i record tree
  | _ => True

/-- Whether a program waits for nginx. -/
def Thread.waits {α : Type} : Thread α → Bool
  | .calling _ _ => true
  | _ => false

/-- What is left of a task keeps to the discipline from a stage on. -/
def Thread.Keeps (config : ManagerConfig) (stage : Stage) : Thread TaskResult → Prop
  | .ready program =>
    program.Meets (Controller.discipline config) (fun _ s => s.holdsLock = false) stage
  | .calling call next =>
    stage.calls config call ∧ ∀ reply, (next reply).Meets (Controller.discipline config)
      (fun _ s => s.holdsLock = false) (stage.replied reply)
  | .finished _ => stage.holdsLock = false
  | .dropped => stage.holdsLock = false

/-- A task is at a stage where it keeps to the discipline, which holds the lock when the task does
and of which the record shows what it should. -/
def Tracked (config : ManagerConfig) (turns : Turns TaskResult) (record : List Occurrence) (i : Nat)
    (thread : Thread TaskResult) : Prop :=
  ∃ stage : Stage, thread.Keeps config stage ∧
    (stage.holdsLock = true ↔ turns.holder = some i) ∧
    stage.Shows config i record turns.world.tree thread.waits

/-- The record shows of each task what its stage says, and every call of nginx in it was due. -/
structure Sound (config : ManagerConfig) (turns : Turns TaskResult) (record : List Occurrence) :
    Prop where
  tracked : ∀ i thread, turns.threads[i]? = some thread → Tracked config turns record i thread
  once : ∀ i action, (callsBy i record).countP (Deed.starts action) ≤ 1
  due : ∀ before o after, record = before ++ o :: after → o.deed.starts .reload = true →
    JustTested config o.who before o.tree

/-- What a program without the lock does to files is nothing to one that has it. -/
theorem Stage.Shows.frame {config : ManagerConfig} {i : Nat} {record more : List Occurrence}
    {tree tree' : Tree} {waits : Bool} {stage : Stage} (h : stage.Shows config i record tree waits)
    (others : ∀ o ∈ more, o.who ≠ i)
    (looks : stage.holdsLock = true →
      tree' = tree ∧ ∀ o ∈ more, o.deed.changes = false ∧ o.tree = tree) :
    stage.Shows config i (record ++ more) tree' waits := by
  have none := callsBy_of_ne others
  have same : callsBy i (record ++ more) = callsBy i record := by
    rw [callsBy_append, none, List.append_nil]
  have since {deeds : List Deed} (tested : TestedSince config i record tree deeds)
      (locked : stage.holdsLock = true) : TestedSince config i (record ++ more) tree' deeds := by
    -- with the lock held by `i`, nobody else changes files
    obtain ⟨rfl, look⟩ := looks locked
    have longer := tested.append look
    rwa [none, List.append_nil] at longer
  cases stage with
  | outside =>
    intro idle
    rw [same]
    exact h idle
  | entered => exact same.trans h
  | writing => exact same.trans h
  | testing =>
    cases waits with
    | true => exact since h rfl
    | false => exact same.trans h
  | passed =>
    obtain ⟨reply, success, tested⟩ := h
    exact ⟨reply, success, since tested rfl⟩
  | applying =>
    intro idle
    obtain ⟨reply, success, tested⟩ := h idle
    exact ⟨reply, success, since tested rfl⟩
  | _ => trivial

/-- A recorded deed is due: no call for the action was made before, and a reload follows a check
that passed. -/
def Due (config : ManagerConfig) (record : List Occurrence) (o : Occurrence) : Prop :=
  ∀ action, o.deed.starts action = true →
    (callsBy o.who record).countP (Deed.starts action) = 0 ∧
      (action = .reload → JustTested config o.who record o.tree)

/-- A call that the stage allows is due. -/
theorem Stage.Shows.due {config : ManagerConfig} {i : Nat} {record : List Occurrence} {tree : Tree}
    {stage : Stage} (h : stage.Shows config i record tree false) {call : Nginx.Call}
    (allowed : stage.calls config call) : Due config record ⟨i, .begins call, tree⟩ := by
  intro action starts
  obtain rfl : call.action = action := of_decide_eq_true starts
  cases stage with
  | outside =>
    rw [h rfl]
    refine ⟨rfl, fun reload => ?_⟩
    rcases allowed with rfl | rfl <;> cases reload
  | testing =>
    -- the check is the first call of all
    obtain rfl : call = config.testCall := allowed
    have nothing : callsBy i record = [] := h
    rw [nothing]
    exact ⟨rfl, nofun⟩
  | applying =>
    obtain rfl : call = config.reloadCall := allowed
    obtain ⟨reply, success, tested⟩ := h rfl
    refine ⟨?_, fun _ => ⟨reply, success, tested⟩⟩
    rw [tested.callsBy_eq]
    rfl
  | _ => exact allowed.elim

/-- While a task waits for a check, the record ends in the check. -/
theorem Stage.Shows.begins {config : ManagerConfig} {i : Nat} {record : List Occurrence}
    {tree : Tree} {stage : Stage} (h : stage.Shows config i record tree false) {call : Nginx.Call}
    (allowed : stage.calls config call) :
    stage.Shows config i (record ++ [⟨i, .begins call, tree⟩]) tree true := by
  cases stage with
  | outside => exact nofun
  | testing =>
    obtain rfl : call = config.testCall := allowed
    exact ⟨record, [], rfl, h, rfl, nofun⟩
  | applying => exact nofun
  | _ => exact allowed.elim

/-- After a check that passed the record ends in just that. -/
theorem Stage.Shows.ends {config : ManagerConfig} {i : Nat} {record : List Occurrence}
    {tree : Tree} {stage : Stage} (h : stage.Shows config i record tree true) {call : Nginx.Call}
    (allowed : stage.calls config call) (reply : Nginx.Reply) :
    (stage.replied reply).Shows config i (record ++ [⟨i, .ends call reply, tree⟩]) tree false := by
  cases stage with
  | outside => trivial
  | testing =>
    obtain rfl : call = config.testCall := allowed
    rw [replied]
    split
    next success =>
      have longer := TestedSince.append h (List.forall_mem_singleton.2
        (⟨rfl, rfl⟩ :
          (⟨i, .ends config.testCall reply, tree⟩ : Occurrence).deed.changes = false ∧ _))
      refine ⟨reply, success, ?_⟩
      simpa [callsBy, Deed.isCall] using longer
    next => trivial
  | applying => trivial
  | _ => exact allowed.elim

/-- A call of the file system that a stage allows changes nothing of what the record shows. -/
theorem Stage.Shows.files {config : ManagerConfig} {i : Nat} {record : List Occurrence}
    {tree left : Tree} {stage : Stage} (h : stage.Shows config i record tree false)
    {call : FileCall} (allowed : call.changes = true → stage.mayChange = true)
    (kept : call.changes = false → left = tree) :
    stage.Shows config i (record ++ [⟨i, .file call, tree⟩]) left false := by
  have none : callsBy i [⟨i, .file call, tree⟩] = [] := by simp [callsBy, Deed.isCall]
  have same : callsBy i (record ++ [⟨i, .file call, tree⟩]) = callsBy i record := by
    rw [callsBy_append, none, List.append_nil]
  have tested (unchanged : stage.mayChange = false) (h : JustTested config i record tree) :
      JustTested config i (record ++ [⟨i, .file call, tree⟩]) left := by
    have looks : call.changes = false := by
      cases changes : call.changes with
      | false => rfl
      | true => rw [allowed changes] at unchanged; cases unchanged
    obtain rfl := kept looks
    obtain ⟨reply, success, since⟩ := h
    have longer := since.append (List.forall_mem_singleton.2
      (⟨looks, rfl⟩ : (⟨i, .file call, left⟩ : Occurrence).deed.changes = false ∧ _ = left))
    rw [none, List.append_nil] at longer
    exact ⟨reply, success, longer⟩
  cases stage with
  | outside => exact fun _ => same.trans (h rfl)
  | entered => exact same.trans h
  | writing => exact same.trans h
  | testing => exact same.trans h
  | passed => exact tested rfl h
  | applying => exact fun _ => tested rfl (h rfl)
  | _ => trivial

/-- A phase is published without a call. -/
theorem Stage.Shows.published {config : ManagerConfig} {i : Nat} {record : List Occurrence}
    {tree : Tree} {stage next : Stage} (h : stage.Shows config i record tree false) {phase : Phase}
    (leads : stage.published? phase = some next) : next.Shows config i record tree false := by
  rw [published?.eq_def] at leads
  split at leads <;> cases leads
  case h_1 => exact h
  case h_2 => exact h
  case h_7 => exact fun _ => h
  all_goals trivial

theorem Stage.holdsLock_replied (stage : Stage) (reply : Nginx.Reply) :
    (stage.replied reply).holdsLock = stage.holdsLock := by
  cases stage with
  | testing =>
    rw [replied]
    split <;> rfl
  | _ => rfl

namespace Sound

variable {config : ManagerConfig} {turns turns' : Turns TaskResult} {record : List Occurrence}

/-- The counts and the reloads of a record stay right with a deed that is due. -/
theorem record_append (sound : Sound config turns record) {occurrence : Option Occurrence}
    (due : ∀ o ∈ occurrence, Due config record o) :
    (∀ i action, (callsBy i (record ++ occurrence.toList)).countP (Deed.starts action) ≤ 1) ∧
      ∀ before o after, record ++ occurrence.toList = before ++ o :: after →
        o.deed.starts .reload = true → JustTested config o.who before o.tree := by
  cases occurrence with
  | none =>
    rw [Option.toList_none, List.append_nil]
    exact ⟨sound.once, sound.due⟩
  | some new =>
    rw [Option.toList_some]
    refine ⟨?_, ?_⟩
    · intro i action
      rw [callsBy_append, List.countP_append]
      have before := sound.once i action
      by_cases starts : new.who = i ∧ new.deed.starts action = true
      · obtain ⟨rfl, starts⟩ := starts
        rw [(due new rfl action starts).1, Nat.zero_add]
        exact Nat.le_trans List.countP_le_length (List.length_filterMap_le _ [new])
      · have nothing : (callsBy i [new]).countP (Deed.starts action) = 0 := by
          rw [List.countP_eq_zero]
          intro deed mem
          obtain ⟨o, inNew, is⟩ := List.mem_filterMap.1 mem
          obtain rfl := List.mem_singleton.1 inNew
          split at is
          next mine =>
            simp only [Bool.and_eq_true, decide_eq_true_eq] at mine
            obtain rfl := Option.some.inj is
            exact fun h => starts ⟨mine.1, h⟩
          next => cases is
        rw [nothing]
        exact before
    · -- a reload in the record is the new deed, or was due when it was recorded
      intro before o after split reload
      rcases List.eq_nil_or_concat after with rfl | ⟨front, last, rfl⟩
      · obtain ⟨rfl, rfl⟩ := List.append_singleton_inj.1 split
        exact (due new rfl .reload reload).2 rfl
      · rw [List.concat_eq_append, ← List.cons_append, ← List.append_assoc] at split
        exact sound.due before o front (List.append_inj' split rfl).1 reload

/-- One task goes on, and what it does is allowed to it. -/
theorem put (sound : Sound config turns record) {occurrence : Option Occurrence}
    (happened : turns.Happens occurrence turns') {j : Nat} {thread : Thread TaskResult}
    (set : turns'.threads = turns.threads.set j thread)
    (mine : ∀ o ∈ occurrence, o.who = j)
    (holder : ∀ i, i ≠ j → (turns'.holder = some i ↔ turns.holder = some i))
    (locked : ∀ o ∈ occurrence, o.deed.changes = true → turns.holder = some j)
    (due : ∀ o ∈ occurrence, Due config record o)
    (now : j < turns.threads.length →
      Tracked config turns' (record ++ occurrence.toList) j thread) :
    Sound config turns' (record ++ occurrence.toList) := by
  obtain ⟨once, reloads⟩ := sound.record_append due
  refine ⟨?_, once, reloads⟩
  intro i other there
  rw [set] at there
  -- `j` is at a new stage; every other task sees what `j` did, if anything
  by_cases same : i = j
  · subst same
    obtain ⟨inside, _⟩ := List.getElem?_eq_some_iff.1 there
    rw [List.length_set] at inside
    rw [List.getElem?_set_self inside] at there
    obtain rfl := Option.some.inj there
    exact now inside
  · rw [List.getElem?_set_ne (Ne.symm same)] at there
    obtain ⟨stage, keeps, locks, shows⟩ := sound.tracked i other there
    refine ⟨stage, keeps, locks.trans (holder i same).symm, shows.frame ?_ ?_⟩
    · intro o mem
      rw [mine o (Option.mem_toList.1 mem)]
      exact Ne.symm same
    · intro holds
      have look : ∀ o ∈ occurrence, o.deed.changes = false := by
        intro o mem
        cases changes : o.deed.changes with
        | false => rfl
        | true =>
          -- then both would hold the lock
          have both := (locked o mem changes).symm.trans (locks.1 holds)
          exact absurd (Option.some.inj both).symm same
      refine ⟨happened.tree_eq look, ?_⟩
      intro o mem
      obtain rfl := Option.mem_toList.1 mem
      exact ⟨look o rfl, happened.tree_of_mem⟩

/-- One task goes on without the record showing it, at a stage of which the record shows nothing
new. -/
theorem put_silent (sound : Sound config turns record) {j : Nat} {thread : Thread TaskResult}
    (happened : turns.Happens none turns') (set : turns'.threads = turns.threads.set j thread)
    (holder : ∀ i, i ≠ j → (turns'.holder = some i ↔ turns.holder = some i))
    (now : Tracked config turns' record j thread) : Sound config turns' record := by
  have put := sound.put happened set nofun holder nofun nofun
  rw [Option.toList_none, List.append_nil] at put
  exact put fun _ => now

/-- Every move keeps the invariant. -/
theorem happens (sound : Sound config turns record) {occurrence : Option Occurrence}
    (happened : turns.Happens occurrence turns') :
    Sound config turns' (record ++ occurrence.toList) := by
  cases happened with
  | idles => rwa [Option.toList_none, List.append_nil]
  | finishes here =>
    obtain ⟨stage, keeps, locks, shows⟩ := sound.tracked _ _ here
    rw [Option.toList_none, List.append_nil]
    exact sound.put_silent (.finishes here) rfl (fun _ _ => Iff.rfl) ⟨stage, keeps, locks, shows⟩
  | acquires here free =>
    obtain ⟨stage, ⟨outside, rest⟩, locks, shows⟩ := sound.tracked _ _ here
    obtain rfl : stage = .outside := outside
    rw [Option.toList_none, List.append_nil]
    refine sound.put_silent (.acquires here free) rfl ?_ ⟨.entered, rest () _ rfl, ?_, shows rfl⟩
    · intro i other
      rw [free]
      simp [Ne.symm other]
    · simp [Stage.holdsLock]
  | @releases j next here =>
    obtain ⟨stage, ⟨closing, rest⟩, locks, shows⟩ := sound.tracked _ _ here
    have mine : turns.holder = some j := locks.1 (by rcases closing with rfl | rfl <;> rfl)
    rw [Option.toList_none, List.append_nil]
    refine sound.put_silent (.releases here) rfl ?_ ⟨.spent, rest () _ rfl, ?_, trivial⟩
    · intro i other
      rw [mine]
      simp [Ne.symm other]
    · simp [Stage.holdsLock]
  | @begins j call next here =>
    obtain ⟨stage, ⟨allowed, rest⟩, locks, shows⟩ := sound.tracked _ _ here
    have due := shows.due allowed
    refine sound.put (.begins here) rfl ?_ (fun _ _ => Iff.rfl) ?_ ?_ fun _ => ?_
    · rintro o ⟨⟩
      rfl
    · rintro o ⟨⟩ changes
      cases changes
    · rintro o ⟨⟩
      exact due
    · refine ⟨stage, ⟨allowed, fun reply => rest reply _ rfl⟩, locks, ?_⟩
      exact shows.begins allowed
  | @ends j call next here reply =>
    obtain ⟨stage, ⟨allowed, rest⟩, locks, shows⟩ := sound.tracked _ _ here
    refine sound.put (.ends here reply) rfl ?_ (fun _ _ => Iff.rfl) ?_ ?_ fun _ => ?_
    · rintro o ⟨⟩
      rfl
    · rintro o ⟨⟩ changes
      cases changes
    · rintro o ⟨⟩ action starts
      cases starts
    · refine ⟨stage.replied reply, rest reply, ?_, shows.ends allowed reply⟩
      rw [Stage.holdsLock_replied]
      exact locks
  | @files j call next here answer left kept =>
    obtain ⟨stage, ⟨allowed, rest⟩, locks, shows⟩ := sound.tracked _ _ here
    refine sound.put (.files here answer left kept) rfl ?_ (fun _ _ => Iff.rfl) ?_ ?_ fun _ => ?_
    · rintro o ⟨⟩
      rfl
    · rintro o ⟨⟩ changes
      exact locks.1 (Stage.holdsLock_of_mayChange (allowed changes))
    · rintro o ⟨⟩ action starts
      cases starts
    · exact ⟨stage, rest answer _ rfl, locks, shows.files allowed kept⟩
  | names here =>
    obtain ⟨stage, ⟨_, rest⟩, locks, shows⟩ := sound.tracked _ _ here
    rw [Option.toList_none, List.append_nil]
    exact sound.put_silent (.names here) rfl (fun _ _ => Iff.rfl)
      ⟨stage, rest _ _ rfl, locks, shows⟩
  | @publishes j phase next here =>
    obtain ⟨stage, ⟨allowed, rest⟩, locks, shows⟩ := sound.tracked _ _ here
    obtain ⟨target, leads⟩ := Option.isSome_iff_exists.1 allowed
    have held := Stage.holdsLock_of_published? leads
    rw [Option.toList_none, List.append_nil]
    refine sound.put_silent (.publishes here) rfl (fun _ _ => Iff.rfl)
      ⟨target, rest () target ?_, ?_, shows.published leads⟩
    · show target = (stage.published? phase).getD stage
      rw [leads, Option.getD_some]
    · refine Iff.trans ?_ locks
      rw [held.1, held.2]
  | counts here =>
    obtain ⟨stage, ⟨_, rest⟩, locks, shows⟩ := sound.tracked _ _ here
    rw [Option.toList_none, List.append_nil]
    exact sound.put_silent (.counts here) rfl (fun _ _ => Iff.rfl)
      ⟨stage, rest _ _ rfl, locks, shows⟩
  | drops i =>
    -- the lock goes with its holder, and with nobody else
    have happened : turns.Happens none (turns.drop i) := .drops i
    rw [Option.toList_none, List.append_nil]
    rw [Turns.drop] at happened ⊢
    split at happened
    next mine =>
      rw [if_pos mine]
      refine sound.put_silent happened rfl ?_ ⟨.spent, rfl, ?_, trivial⟩
      · intro other ne
        rw [mine]
        simp [Ne.symm ne]
      · simp [Stage.holdsLock]
    next others =>
      rw [if_neg others]
      refine sound.put_silent happened rfl (fun _ _ => Iff.rfl) ⟨.spent, rfl, ?_, trivial⟩
      simp [Stage.holdsLock, Turns.put, others]

/-- Any number of moves keep the invariant. -/
theorem moveAll (sound : Sound config turns record) (moves : List Move) :
    Sound config (turns.moveAll moves) (record ++ turns.record moves) := by
  induction moves generalizing turns record with
  | nil =>
    rw [Turns.record, List.append_nil]
    exact sound
  | cons move moves ih =>
    rw [Turns.record, ← List.append_assoc]
    exact ih (sound.happens (turns.happens_move move))

end Sound

namespace Controller

/-- Tasks that have not begun. -/
def start (controller : Controller) (world : World) (tasks : List Task) : Turns TaskResult where
  world := world
  threads := tasks.map fun task => .ready (task.program controller)

/-- Tasks that have not begun are sound with an empty record. -/
theorem sound_start (controller : Controller) (world : World) (tasks : List Task) :
    Sound controller.config (controller.start world tasks) [] where
  tracked := by
    intro i thread there
    obtain ⟨task, _, rfl⟩ := List.mem_map.1 (List.mem_of_getElem? there)
    exact ⟨.outside, task.meets_discipline controller, by simp [Stage.holdsLock, start],
      fun _ => rfl⟩
  once := fun _ _ => Nat.zero_le _
  due := fun before o after split => by simp at split

/-- Whatever tasks do on one controller, in any order and however nginx and the file system answer:
when one of them asks nginx to reload, all that it asked of nginx before was one check, the check
passed, and nobody has changed files since it began, so that the files are those that were checked.
Each task asks for a check at most once and for a reload at most once. -/
theorem reload_justTested (controller : Controller) (world : World) (tasks : List Task)
    (moves : List Move) :
    let record := (controller.start world tasks).record moves
    (∀ before o after, record = before ++ o :: after → o.deed.starts .reload = true →
      JustTested controller.config o.who before o.tree) ∧
    ∀ i, (callsBy i record).countP (Deed.starts .test) ≤ 1 ∧
      (callsBy i record).countP (Deed.starts .reload) ≤ 1 := by
  intro record
  have sound := (controller.sound_start world tasks).moveAll moves
  exact ⟨sound.due, fun i => ⟨sound.once i .test, sound.once i .reload⟩⟩

/-- A rule is removed while another task lets nginx check the files: the removal comes to its
reload. -/
theorem reload_justTested_removal :
    let controller : Controller := ⟨{ activeDir := ⟨"/a"⟩ }⟩
    let world : World :=
      { tree := { entries := [(["a"], .directory), (["a", "web.conf"], .file .empty)] } }
    let moves : List Move :=
      [.turn (.step 0), .turn (.step 0), .turn (.step 0), .turn (.step 1),
       .turn (.fail 0 .notFound), .turn (.step 0), .turn (.step 0), .turn (.reply 1 .timedOut),
       .turn (.reply 0 (.finished { success := true })), .turn (.step 0), .turn (.step 0),
       .turn (.step 0)]
    let record := (controller.start world [.remove "web", .gate]).record moves
    ∃ before o after, record = before ++ o :: after ∧ o.deed.starts .reload = true ∧
      JustTested controller.config o.who before o.tree := by
  intro controller world moves record
  have seventh : (record[6]?.map fun o => o.deed.starts .reload) = some true := by decide +kernel
  obtain ⟨o, there, reload⟩ := Option.map_eq_some_iff.1 seventh
  obtain ⟨inside, rfl⟩ := List.getElem?_eq_some_iff.1 there
  have split : record = record.take 6 ++ record[6] :: record.drop 7 := by simp
  refine ⟨_, _, _, split, reload, ?_⟩
  exact (controller.reload_justTested world [.remove "web", .gate] moves).1 _ _ _ split reload

end Controller

end ProxyKeeper
