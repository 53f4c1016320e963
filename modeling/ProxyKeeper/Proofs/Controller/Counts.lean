import Mathlib.Algebra.BigOperators.Group.Finset.Piecewise
import Mathlib.Algebra.Order.BigOperators.Group.Finset
import ProxyKeeper.Proofs.Controller.Course
import ProxyKeeper.Proofs.Metrics.Values

/-!
# Counters tell the truth

What the counters say after a run is what happened in it: the numbers that the controller keeps for
itself, the metrics, and both alike. A change is accounted for by its own facts, and a counter is
the sum over the changes of a run: so an equation between what is counted and what happened, or
between what is counted in one place and in the other, needs to be known of one change only.

## Main Definitions

* `Fact.Balanced` — what is counted of checks, reloads, putting files back and the ends of changes
  is what happened, and is counted in both places
* `Controller.Tells` — what the counters tell of a run

## Main Results

* `Task.Accounts.balanced`, `Task.Accounts.countP_ends_false` — what is counted of one change
* `countP_eq_sum` — numbers of facts, as sums over programs
* `Controller.metrics_tell` — what the counters tell of a run in which nobody is dropped
-/

namespace ProxyKeeper

/-! ## Facts of one change -/

/-- How a change ends that is counted, as a success or not. -/
def Ending.ofOk (ok : Bool) : Ending :=
  if ok then .done else .failed

namespace Fact

/-- Whether the end of a change is counted, as a success or not. -/
def ends (ok : Bool) : Fact → Bool
  | .counts event => event.isOperation ok
  | _ => false

/-- Whether as much is counted of checks, reloads and putting files back as there was, and whether
the controller's own numbers are counted up beside the metrics. -/
structure Balanced (facts : List Fact) : Prop where
  tests : facts.count (.counts .test) = facts.count (.tested true) + facts.count (.tested false)
  testFailures : facts.count (.counts .testFailure) = facts.count (.tested false)
  reloadFailures : facts.count (.counts .reloadFailure) = facts.count (.reloaded false)
  rollbacks : facts.count (.counts .rollback) = facts.count .undoes
  undoings : facts.count (.tallies .rollbacks) = facts.count .undoes
  operations (ok : Bool) : facts.count (.tallies (.ofOk ok)) = facts.countP (ends ok)

theorem Balanced.append {front back : List Fact} (first : Balanced front) (second : Balanced back) :
    Balanced (front ++ back) where
  tests := by
    simp only [List.count_append, first.tests, second.tests]
    omega
  testFailures := by simp only [List.count_append, first.testFailures, second.testFailures]
  reloadFailures := by simp only [List.count_append, first.reloadFailures, second.reloadFailures]
  rollbacks := by simp only [List.count_append, first.rollbacks, second.rollbacks]
  undoings := by simp only [List.count_append, first.undoings, second.undoings]
  operations ok := by
    rw [List.count_append, List.countP_append, first.operations, second.operations]

theorem balanced_nil : Balanced [] :=
  ⟨rfl, rfl, rfl, rfl, rfl, fun _ => rfl⟩

theorem balanced_ofCheck (ok : Bool) : Balanced (ofCheck ok) := by
  cases ok <;> exact ⟨rfl, rfl, rfl, rfl, rfl, by decide⟩

theorem balanced_ofUndoing (undone : Bool) : Balanced (ofUndoing undone) := by
  cases undone <;> exact ⟨rfl, rfl, rfl, rfl, rfl, by decide⟩

theorem balanced_ofCounting (kind : OperationKind) (ok : Bool) (listed : Option Nat) :
    Balanced (ofCounting kind ok listed) := by
  cases listed <;> cases ok <;> exact ⟨rfl, rfl, rfl, rfl, rfl, fun ok => by cases ok <;> rfl⟩

end Fact

namespace Courses

variable {ending : Ending} {course : List Fact}

theorem balanced (courses : Courses ending course) : Fact.Balanced course := by
  cases courses with
  | idle => exact Fact.balanced_nil
  | done => exact (Fact.balanced_ofCheck true).append ⟨rfl, rfl, rfl, rfl, rfl, by decide⟩
  | unwritten undone => exact Fact.balanced_ofUndoing undone
  | refused undone => exact (Fact.balanced_ofCheck false).append (Fact.balanced_ofUndoing undone)
  | notTakenUp undone =>
    have reload : Fact.Balanced [.reloaded false, .counts .reloadFailure] :=
      ⟨rfl, rfl, rfl, rfl, rfl, by decide⟩
    exact ((Fact.balanced_ofCheck true).append reload).append (Fact.balanced_ofUndoing undone)

/-- No change is counted before it has run its course. -/
theorem countP_ends (courses : Courses ending course) (ok : Bool) :
    course.countP (Fact.ends ok) = 0 := by
  cases courses with
  | idle => rfl
  | done => cases ok <;> rfl
  | unwritten undone => cases ok <;> cases undone <;> rfl
  | refused undone => cases ok <;> cases undone <;> rfl
  | notTakenUp undone => cases ok <;> cases undone <;> rfl

/-- A reload succeeds in a change that is done, and in no other. -/
theorem count_reloaded (courses : Courses ending course) :
    course.count (.reloaded true) = if ending = .done then 1 else 0 := by
  cases courses with
  | idle => rfl
  | done => rfl
  | unwritten undone => cases undone <;> rfl
  | refused undone => cases undone <;> rfl
  | notTakenUp undone => cases undone <;> rfl

/-- Files are put back at most once, and only in a change that fails. -/
theorem count_undoes_le (courses : Courses ending course) :
    course.count .undoes ≤ if ending = .failed then 1 else 0 := by
  cases courses with
  | idle => decide
  | done => decide
  | unwritten undone => cases undone <;> decide
  | refused undone => cases undone <;> decide
  | notTakenUp undone => cases undone <;> decide

end Courses

namespace Carried

variable {kind : OperationKind} {ending : Ending} {facts : List Fact}

theorem balanced (carried : Carried kind ending facts) : Fact.Balanced facts := by
  obtain ⟨course, counts, courses, counted, rfl⟩ := carried
  have locks : Fact.Balanced [.locks] := ⟨rfl, rfl, rfl, rfl, rfl, by decide⟩
  refine (locks.append courses.balanced).append ?_
  cases counted with
  | idle => exact Fact.balanced_nil
  | done listed => exact Fact.balanced_ofCounting kind true listed
  | failed listed => exact Fact.balanced_ofCounting kind false listed

theorem locks_mem (carried : Carried kind ending facts) : .locks ∈ facts := by
  obtain ⟨course, counts, _, _, rfl⟩ := carried
  exact List.mem_cons_self

/-- The end of a change is counted once, unless it was idle. -/
theorem countP_ends (carried : Carried kind ending facts) (ok : Bool) :
    facts.countP (Fact.ends ok) = if ending = .ofOk ok then 1 else 0 := by
  obtain ⟨course, counts, courses, counted, rfl⟩ := carried
  have before : (.locks :: course : List Fact).countP (Fact.ends ok) = 0 :=
    (List.countP_cons_of_neg Bool.false_ne_true).trans (courses.countP_ends ok)
  rw [List.countP_append, before, Nat.zero_add]
  cases counted with
  | idle => cases ok <;> rfl
  | done listed => cases listed <;> cases ok <;> rfl
  | failed listed => cases listed <;> cases ok <;> rfl

/-- What a change is counted as. -/
theorem mem_operation (carried : Carried kind ending facts) {kind' : OperationKind} {ok : Bool} :
    .counts (.operation kind' ok) ∈ facts ↔ kind' = kind ∧ ending = .ofOk ok := by
  obtain ⟨course, counts, courses, counted, rfl⟩ := carried
  have before : .counts (.operation kind' ok) ∉ (.locks :: course : List Fact) := by
    intro listed
    obtain impossible | listed := List.mem_cons.1 listed
    · cases impossible
    · exact List.countP_eq_zero.1 (courses.countP_ends ok) _ listed (decide_eq_true rfl)
  have of_counting {ok' : Bool} {listed : Option Nat} :
      .counts (.operation kind' ok) ∈ Fact.ofCounting kind ok' listed ↔
        kind' = kind ∧ ok = ok' := by
    cases listed <;> simp [Fact.ofCounting]
  rw [List.mem_append, or_iff_right before]
  cases counted with
  | idle => cases ok <;> simp [Ending.ofOk]
  | done listed => rw [of_counting]; cases ok <;> simp [Ending.ofOk]
  | failed listed => rw [of_counting]; cases ok <;> simp [Ending.ofOk]

theorem count_reloaded (carried : Carried kind ending facts) :
    facts.count (.reloaded true) = if ending = .done then 1 else 0 := by
  obtain ⟨course, counts, courses, counted, rfl⟩ := carried
  have after : counts.count (.reloaded true) = 0 := by
    cases counted with
    | idle => rfl
    | done listed => cases listed <;> rfl
    | failed listed => cases listed <;> rfl
  rw [List.count_append, after, List.count_cons, courses.count_reloaded]
  rfl

theorem reloaded_mem (carried : Carried kind ending facts) :
    .reloaded true ∈ facts ↔ ending = .done := by
  rw [← List.one_le_count_iff, carried.count_reloaded]
  split
  next done => exact iff_of_true (Nat.le_refl 1) done
  next other => exact iff_of_false (Nat.not_succ_le_zero 0) other

theorem count_undoes_le (carried : Carried kind ending facts) :
    facts.count .undoes ≤ if ending = .failed then 1 else 0 := by
  obtain ⟨course, counts, courses, counted, rfl⟩ := carried
  have after : counts.count .undoes = 0 := by
    cases counted with
    | idle => rfl
    | done listed => cases listed <;> rfl
    | failed listed => cases listed <;> rfl
  rw [List.count_append, after, List.count_cons]
  exact courses.count_undoes_le

theorem eq_locks (carried : Carried kind .idle facts) : facts = [.locks] := by
  obtain ⟨course, counts, courses, counted, rfl⟩ := carried
  cases courses
  cases counted
  rfl

end Carried

/-! ## One change with its result -/

theorem TaskResult.Ends.isSome_error? {result : TaskResult} {ending : Ending}
    (ends : result.Ends ending) : result.error?.isSome = true ↔ ending = .failed := by
  have spared {idle : Bool} : false = true ↔ Ending.ofIdle idle = .failed :=
    iff_of_false Bool.false_ne_true (Ending.ofIdle_ne_failed idle)
  cases result with
  | applied result =>
    cases result with
    | ok rule => exact iff_of_false Bool.false_ne_true ends
    | error e => exact iff_of_true rfl ends
  | removed result =>
    cases result with
    | ok found => cases ends; exact spared
    | error e => exact iff_of_true rfl ends
  | synced result =>
    cases result with
    | ok report => cases ends; exact spared
    | error e => exact iff_of_true rfl ends
  | _ => exact ends.elim

/-- Whether a result tells that nothing had to be done. -/
def TaskResult.isIdle : TaskResult → Bool
  | .removed (.ok found) => !found
  | .synced (.ok report) => !report.hasChanges
  | _ => false

theorem TaskResult.Ends.eq_idle {result : TaskResult} {ending : Ending} (ends : result.Ends ending)
    (idle : result.isIdle = true) : ending = .idle := by
  cases result with
  | removed result =>
    cases result with
    | ok found => exact ends.trans (congrArg Ending.ofIdle idle)
    | error e => cases idle
  | synced result =>
    cases result with
    | ok report => exact ends.trans (congrArg Ending.ofIdle idle)
    | error e => cases idle
  | _ => cases idle

namespace Task.Accounts

variable {controller : Controller} {task : Task} {result : TaskResult} {facts : List Fact}

theorem balanced (accounts : task.Accounts controller result facts) : Fact.Balanced facts := by
  cases accounts with
  | rejected why told => exact Fact.balanced_nil
  | carried begun known ends carried => exact carried.balanced

theorem countP_ends_true (accounts : task.Accounts controller result facts) :
    facts.countP (Fact.ends true) = facts.count (.reloaded true) := by
  cases accounts with
  | rejected why told => rfl
  | carried begun known ends carried => rw [carried.countP_ends, carried.count_reloaded]; rfl

/-- A change is counted as a failure if it failed after it had taken the lock. -/
theorem countP_ends_false (accounts : task.Accounts controller result facts) :
    facts.countP (Fact.ends false) =
      if .locks ∈ facts ∧ result.error?.isSome = true then 1 else 0 := by
  cases accounts with
  | rejected why told => rfl
  | carried begun known ends carried =>
    rw [carried.countP_ends]
    refine if_congr ?_ rfl rfl
    rw [and_iff_right carried.locks_mem, ends.isSome_error?]
    rfl

theorem count_undoes_le (accounts : task.Accounts controller result facts) :
    facts.count .undoes ≤ facts.countP (Fact.ends false) := by
  cases accounts with
  | rejected why told => exact Nat.le_refl 0
  | carried begun known ends carried =>
    rw [carried.countP_ends]
    exact carried.count_undoes_le

/-- Files are put back at most once. -/
theorem count_undoes (accounts : task.Accounts controller result facts) :
    facts.count .undoes = if .undoes ∈ facts then 1 else 0 := by
  have once : facts.count .undoes ≤ 1 := by
    refine accounts.count_undoes_le.trans ?_
    rw [accounts.countP_ends_false]
    split
    · exact Nat.le_refl 1
    · exact Nat.zero_le 1
  split
  next listed => exact Nat.le_antisymm once (List.one_le_count_iff.2 listed)
  next absent => exact List.count_eq_zero.2 absent

/-- What a change is counted as: as a success when its reload succeeds, and as a failure when it
fails with the lock. -/
theorem mem_operation (accounts : task.Accounts controller result facts) {kind : OperationKind}
    {ok : Bool} :
    .counts (.operation kind ok) ∈ facts ↔ task.kind? = some kind ∧
      if ok then .reloaded true ∈ facts else .locks ∈ facts ∧ result.error?.isSome = true := by
  cases accounts with
  | rejected why told => cases ok <;> simp
  | carried begun known ends carried =>
    rw [carried.mem_operation, known, Option.some_inj, eq_comm]
    refine and_congr_right fun _ => ?_
    cases ok with
    | true => exact carried.reloaded_mem.symm
    | false => exact ((and_iff_right carried.locks_mem).trans ends.isSome_error?).symm

/-- What had nothing to do is not counted, and nothing else in it is. -/
theorem of_isIdle (accounts : task.Accounts controller result facts) (idle : result.isIdle = true) :
    (∀ event, .counts event ∉ facts) ∧ ∀ tally, .tallies tally ∉ facts := by
  cases accounts with
  | rejected why told => exact ⟨fun _ => List.not_mem_nil, fun _ => List.not_mem_nil⟩
  | carried begun known ends carried =>
    obtain rfl := ends.eq_idle idle
    rw [carried.eq_locks]
    exact ⟨fun event => by simp, fun tally => by simp⟩

/-- What is not rejected takes the lock. -/
theorem locks_mem (accounts : task.Accounts controller result facts) :
    .locks ∈ facts ↔ task.rejection? controller = none := by
  cases accounts with
  | rejected why told =>
    rw [why]
    exact iff_of_false List.not_mem_nil nofun
  | carried begun known ends carried => exact iff_of_true carried.locks_mem begun

/-- What is rejected does nothing. -/
theorem of_rejection (accounts : task.Accounts controller result facts) {e : OperationError}
    (why : task.rejection? controller = some e) : facts = [] := by
  cases accounts with
  | rejected why told => rfl
  | carried begun known ends carried => cases begun.symm.trans why

end Task.Accounts

/-! ## Numbers of facts in a run -/

theorem countP_factsBy_cons (i j : Nat) (fact : Fact) (facts : List (Nat × Fact))
    (P : Fact → Bool) :
    (factsBy i ((j, fact) :: facts)).countP P =
      (factsBy i facts).countP P + if j = i then if P fact then 1 else 0 else 0 := by
  rw [factsBy_cons, List.countP_append, Nat.add_comm]
  by_cases mine : j = i <;> simp [mine, List.countP_cons]

/-- The number of facts of a kind is the sum of the numbers of them in each program. -/
theorem countP_eq_sum {facts : List (Nat × Fact)} {n : Nat}
    (known : ∀ entry ∈ facts, entry.1 < n) (P : Fact → Bool) :
    facts.countP (P ·.2) = ∑ i ∈ Finset.range n, (factsBy i facts).countP P := by
  induction facts with
  | nil => simp [factsBy]
  | cons entry facts ih =>
    obtain ⟨j, fact⟩ := entry
    obtain ⟨first, known⟩ := List.forall_mem_cons.1 known
    simp only [countP_factsBy_cons]
    rw [List.countP_cons, ih known, Finset.sum_add_distrib, Finset.sum_ite_eq,
      if_pos (Finset.mem_range.2 first)]

theorem Fact.event?_beq (fact : Fact) (event : Event) :
    (fact.event? == some event) = (fact == .counts event) := by
  cases fact <;> simp [event?]

theorem Fact.isOperation_event? (fact : Fact) (ok : Bool) :
    (fact.event?.map (Event.isOperation ok)).getD false = fact.ends ok := by
  cases fact <;> rfl

/-- Whether a program has come to its end. -/
def Thread.isFinished {α : Type} : Thread α → Bool
  | .finished _ => true
  | _ => false

namespace Turns

theorem exists_finished {α : Type} {turns : Turns α}
    (all : turns.threads.all Thread.isFinished = true) {i : Nat}
    (inside : i < turns.threads.length) :
    ∃ result, turns.threads[i]? = some (.finished result) := by
  have finished := List.all_eq_true.1 all _ (List.getElem_mem inside)
  rw [List.getElem?_eq_getElem inside]
  cases here : turns.threads[i] with
  | finished result => exact ⟨result, rfl⟩
  | _ => simp [here, Thread.isFinished] at finished

/-- Whether a task has ended with a failure. -/
def fails (turns : Turns TaskResult) (i : Nat) : Bool :=
  match turns.threads[i]? with
  | some (.finished result) => result.error?.isSome
  | _ => false

end Turns

/-- Whether what is counted in a run are its facts, and each task has ended with its own. -/
structure Accounted (controller : Controller) (tasks : List Task) (facts : List (Nat × Fact))
    (turns : Turns TaskResult) : Prop where
  known : ∀ entry ∈ facts, entry.1 < tasks.length
  metrics : turns.world.metrics = facts.filterMap fun entry => entry.2.event?
  tallies (tally : Tally) : turns.world.tallies.value tally = occurrences (.tallies tally) facts
  each : ∀ i < tasks.length, ∃ task result, tasks[i]? = some task ∧
    turns.threads[i]? = some (.finished result) ∧
    task.Accounts controller result (factsBy i facts)

namespace Accounted

variable {controller : Controller} {tasks : List Task} {facts : List (Nat × Fact)}
  {turns : Turns TaskResult}

theorem count_eq (accounted : Accounted controller tasks facts turns) (event : Event) :
    turns.world.metrics.count event = occurrences (.counts event) facts := by
  rw [accounted.metrics, List.count_filterMap, occurrences, List.count, List.countP_map]
  exact List.countP_congr fun entry _ => by rw [Fact.event?_beq]; rfl

theorem occurrences_eq_sum (accounted : Accounted controller tasks facts turns) (fact : Fact) :
    occurrences fact facts = ∑ i ∈ Finset.range tasks.length, (factsBy i facts).count fact := by
  rw [occurrences, List.count, List.countP_map]
  exact countP_eq_sum accounted.known (· == fact)

/-- As much is counted in a run of checks, reloads and putting files back as there was. -/
theorem balanced (accounted : Accounted controller tasks facts turns) :
    Fact.Balanced (facts.map Prod.snd) := by
  have each (i : Nat) (inside : i ∈ Finset.range tasks.length) :
      Fact.Balanced (factsBy i facts) := by
    obtain ⟨_, _, _, _, accounts⟩ := accounted.each i (Finset.mem_range.1 inside)
    exact accounts.balanced
  have total (fact : Fact) : (facts.map Prod.snd).count fact =
      ∑ i ∈ Finset.range tasks.length, (factsBy i facts).count fact :=
    accounted.occurrences_eq_sum fact
  have ends (ok : Bool) : (facts.map Prod.snd).countP (Fact.ends ok) =
      ∑ i ∈ Finset.range tasks.length, (factsBy i facts).countP (Fact.ends ok) := by
    rw [List.countP_map]
    exact countP_eq_sum accounted.known (Fact.ends ok)
  constructor
  all_goals simp only [total, ends, ← Finset.sum_add_distrib]
  · exact Finset.sum_congr rfl fun i inside => (each i inside).tests
  · exact Finset.sum_congr rfl fun i inside => (each i inside).testFailures
  · exact Finset.sum_congr rfl fun i inside => (each i inside).reloadFailures
  · exact Finset.sum_congr rfl fun i inside => (each i inside).rollbacks
  · exact Finset.sum_congr rfl fun i inside => (each i inside).undoings
  · exact fun ok => Finset.sum_congr rfl fun i inside => (each i inside).operations ok

/-- The ends of changes, in the controller's own numbers. -/
theorem value_ofOk (accounted : Accounted controller tasks facts turns) (ok : Bool) :
    turns.world.tallies.value (.ofOk ok) =
      ∑ i ∈ Finset.range tasks.length, (factsBy i facts).countP (Fact.ends ok) := by
  rw [accounted.tallies, occurrences, accounted.balanced.operations, List.countP_map]
  exact countP_eq_sum accounted.known (Fact.ends ok)

/-- The ends of changes, in the metrics. -/
theorem operations_eq_sum (accounted : Accounted controller tasks facts turns) (ok : Bool) :
    turns.world.metrics.operations ok =
      ∑ i ∈ Finset.range tasks.length, (factsBy i facts).countP (Fact.ends ok) := by
  rw [Metrics.operations_eq_countP, accounted.metrics, List.countP_filterMap,
    ← countP_eq_sum accounted.known]
  exact List.countP_congr fun entry _ => by rw [Fact.isOperation_event?]

/-- Successes and failures are counted in both places. -/
theorem value_ofOk_eq_operations (accounted : Accounted controller tasks facts turns) (ok : Bool) :
    turns.world.tallies.value (.ofOk ok) = turns.world.metrics.operations ok :=
  (accounted.value_ofOk ok).trans (accounted.operations_eq_sum ok).symm

theorem rollbacks_eq_occurrences (accounted : Accounted controller tasks facts turns) :
    turns.world.tallies.rollbacks = occurrences .undoes facts :=
  (accounted.tallies .rollbacks).trans accounted.balanced.undoings

/-- Putting files back is counted in both places. -/
theorem rollbacks_eq_value (accounted : Accounted controller tasks facts turns) :
    turns.world.tallies.rollbacks = turns.world.metrics.value .rollbacks [] := by
  rw [Metrics.value_rollbacks, accounted.count_eq, accounted.rollbacks_eq_occurrences]
  exact accounted.balanced.rollbacks.symm

/-- Successes are counted as often as reloads succeed. -/
theorem applies_eq (accounted : Accounted controller tasks facts turns) :
    turns.world.tallies.applies = occurrences (.reloaded true) facts := by
  refine (accounted.value_ofOk true).trans ?_
  rw [accounted.occurrences_eq_sum]
  refine Finset.sum_congr rfl fun i inside => ?_
  obtain ⟨_, _, _, _, accounts⟩ := accounted.each i (Finset.mem_range.1 inside)
  exact accounts.countP_ends_true

/-- Failures are counted as often as changes fail that have taken the lock. -/
theorem failures_eq (accounted : Accounted controller tasks facts turns) :
    turns.world.tallies.failures =
      ((Finset.range tasks.length).filter fun i => (i, .locks) ∈ facts ∧ turns.fails i).card := by
  refine (accounted.value_ofOk false).trans ?_
  rw [Finset.card_filter]
  refine Finset.sum_congr rfl fun i inside => ?_
  obtain ⟨_, result, _, ended, accounts⟩ := accounted.each i (Finset.mem_range.1 inside)
  rw [accounts.countP_ends_false]
  refine if_congr (and_congr mem_factsBy ?_) rfl rfl
  rw [Turns.fails, ended]

/-- Files are put back in as many changes as this is counted. -/
theorem rollbacks_eq (accounted : Accounted controller tasks facts turns) :
    turns.world.tallies.rollbacks =
      ((Finset.range tasks.length).filter fun i => (i, .undoes) ∈ facts).card := by
  rw [accounted.rollbacks_eq_occurrences, accounted.occurrences_eq_sum, Finset.card_filter]
  refine Finset.sum_congr rfl fun i inside => ?_
  obtain ⟨_, _, _, _, accounts⟩ := accounted.each i (Finset.mem_range.1 inside)
  rw [accounts.count_undoes]
  exact if_congr mem_factsBy rfl rfl

/-- A change in which files are put back has failed. -/
theorem rollbacks_le (accounted : Accounted controller tasks facts turns) :
    turns.world.tallies.rollbacks ≤ turns.world.tallies.failures := by
  rw [accounted.rollbacks_eq_occurrences, accounted.occurrences_eq_sum]
  refine le_of_le_of_eq ?_ (accounted.value_ofOk false).symm
  refine Finset.sum_le_sum fun i inside => ?_
  obtain ⟨_, _, _, _, accounts⟩ := accounted.each i (Finset.mem_range.1 inside)
  exact accounts.count_undoes_le

/-- What is known of one change. -/
theorem of_task (accounted : Accounted controller tasks facts turns) {i : Nat} {task : Task}
    (known : tasks[i]? = some task) : ∃ result, turns.threads[i]? = some (.finished result) ∧
      task.Accounts controller result (factsBy i facts) := by
  obtain ⟨task', result, known', ended, accounts⟩ :=
    accounted.each i (List.getElem?_eq_some_iff.1 known).1
  obtain rfl := Option.some.inj (known.symm.trans known')
  exact ⟨result, ended, accounts⟩

end Accounted

/-! ## What the counters tell -/

/-- What the counters tell of a run by the facts of it, when nothing was counted before: the numbers
that the controller keeps, and the metrics that are reported beside them. -/
structure Controller.Tells (controller : Controller) (tasks : List Task)
    (facts : List (Nat × Fact)) (turns : Turns TaskResult) : Prop where
  /-- Successes are the reloads that succeeded within their time. -/
  applies : turns.world.tallies.applies = occurrences (.reloaded true) facts
  applies_operations : turns.world.tallies.applies = turns.world.metrics.operations true
  /-- Failures are the tasks that failed after they had taken the lock. -/
  failures : turns.world.tallies.failures =
    ((Finset.range tasks.length).filter fun i => (i, .locks) ∈ facts ∧ turns.fails i).card
  failures_operations : turns.world.tallies.failures = turns.world.metrics.operations false
  /-- Tasks take the lock unless they are rejected. -/
  locks (i : Nat) (task : Task) : tasks[i]? = some task →
    ((i, .locks) ∈ facts ↔ task.rejection? controller = none)
  /-- Of a task that is rejected nothing is counted, for nothing happens in it. -/
  rejected (i : Nat) (task : Task) (e : OperationError) : tasks[i]? = some task →
    task.rejection? controller = some e → ∀ fact, (i, fact) ∉ facts
  /-- Nothing is counted of a removal without files or of a list of rules that are in place. -/
  idle (i : Nat) (result : TaskResult) : turns.threads[i]? = some (.finished result) →
    result.isIdle = true →
      (∀ event, (i, .counts event) ∉ facts) ∧ ∀ tally, (i, .tallies tally) ∉ facts
  /-- A task is counted under its kind, a rule that is not enabled as one that is removed: as a
  success when its reload succeeded, and as a failure when it failed with the lock. -/
  operation (i : Nat) (task : Task) (kind : OperationKind) (ok : Bool) : tasks[i]? = some task →
    ((i, .counts (.operation kind ok)) ∈ facts ↔ task.kind? = some kind ∧
      if ok then (i, .reloaded true) ∈ facts else (i, .locks) ∈ facts ∧ turns.fails i = true)
  /-- Files are put back in as many tasks as this is counted. -/
  rollbacks : turns.world.tallies.rollbacks =
    ((Finset.range tasks.length).filter fun i => (i, .undoes) ∈ facts).card
  rollbacks_value : turns.world.tallies.rollbacks = turns.world.metrics.value .rollbacks []
  rollbacks_le : turns.world.tallies.rollbacks ≤ turns.world.tallies.failures
  testFailures : turns.world.metrics.value .testFailures [] = occurrences (.tested false) facts
  testDuration : turns.world.metrics.value .testDuration [] =
    occurrences (.tested true) facts + occurrences (.tested false) facts
  reloadFailures : turns.world.metrics.value .reloadFailures [] =
    occurrences (.reloaded false) facts

theorem Accounted.tells {controller : Controller} {tasks : List Task}
    {facts : List (Nat × Fact)} {turns : Turns TaskResult}
    (accounted : Accounted controller tasks facts turns) :
    controller.Tells tasks facts turns where
  applies := accounted.applies_eq
  applies_operations := accounted.value_ofOk_eq_operations true
  failures := accounted.failures_eq
  failures_operations := accounted.value_ofOk_eq_operations false
  locks i task known := by
    obtain ⟨_, _, accounts⟩ := accounted.of_task known
    rw [← mem_factsBy, accounts.locks_mem]
  rejected i task e known why fact listed := by
    obtain ⟨_, _, accounts⟩ := accounted.of_task known
    have nothing := accounts.of_rejection why
    rw [← mem_factsBy, nothing] at listed
    exact absurd listed List.not_mem_nil
  idle i result ended idle := by
    have absent {fact : Fact} (never : ∀ {task result} {own : List Fact},
        Task.Accounts controller task result own → result.isIdle = true → fact ∉ own) :
        (i, fact) ∉ facts := by
      intro listed
      obtain ⟨task, result', known, ended', accounts⟩ :=
        accounted.each i (accounted.known _ listed)
      obtain rfl := Thread.finished.inj (Option.some.inj (ended.symm.trans ended'))
      exact never accounts idle (mem_factsBy.2 listed)
    exact ⟨fun event => absent fun accounts idle => (accounts.of_isIdle idle).1 event,
      fun tally => absent fun accounts idle => (accounts.of_isIdle idle).2 tally⟩
  operation i task kind ok known := by
    obtain ⟨result, ended, accounts⟩ := accounted.of_task known
    rw [← mem_factsBy, accounts.mem_operation, mem_factsBy, mem_factsBy, Turns.fails, ended]
  rollbacks := accounted.rollbacks_eq
  rollbacks_value := accounted.rollbacks_eq_value
  rollbacks_le := accounted.rollbacks_le
  testFailures := by
    rw [Metrics.value_testFailures, accounted.count_eq]
    exact accounted.balanced.testFailures
  testDuration := by
    rw [Metrics.value_testDuration, accounted.count_eq]
    exact accounted.balanced.tests
  reloadFailures := by
    rw [Metrics.value_reloadFailures, accounted.count_eq]
    exact accounted.balanced.reloadFailures

/-- Changes of rules, in any order and whatever nginx and the file system answer, none of which is
dropped and all of which have come to their end: the counters tell what happened. -/
theorem Controller.metrics_tell (controller : Controller) {world : World}
    (fresh : world.metrics = [] ∧ world.tallies = {}) {tasks : List Task}
    (changes : ∀ task ∈ tasks, task.isChange = true) {moves : List Move}
    (whole : ∀ move ∈ moves, move.drops = false)
    (ended : ∀ i < tasks.length, ∃ result,
      ((controller.start world tasks).moveAll moves).threads[i]? = some (.finished result)) :
    controller.Tells tasks ((controller.start world tasks).facts moves)
      ((controller.start world tasks).moveAll moves) := by
  have noted := (controller.noted_start world tasks).moveAll whole
  rw [List.nil_append] at noted
  obtain ⟨empty, zero⟩ := fresh
  refine Accounted.tells ⟨fun entry listed => ?_, ?_, fun tally => ?_, fun i inside => ?_⟩
  · simpa using noted.known entry listed
  · rw [noted.metrics, empty, List.nil_append]
  · have nothing : Tallies.value {} tally = 0 := by cases tally <;> rfl
    rw [noted.tallies, zero, nothing, Nat.zero_add]
  · obtain ⟨result, ended⟩ := ended i inside
    have known : tasks[i]? = some tasks[i] := List.getElem?_eq_getElem inside
    refine ⟨tasks[i], result, known, ended, ?_⟩
    have change := changes tasks[i] (List.getElem_mem inside)
    refine noted.of_finished ended ?_ (Task.meets_accounts controller change)
    rw [List.getElem?_map, known]
    rfl

/-- A rule is removed and nginx does not take that up in time, a rule is removed that is not there,
and a list of rules has an id twice: the first task is counted, as a failure. -/
theorem Controller.metrics_tell_removals :
    let controller : Controller := ⟨{ activeDir := ⟨"/a"⟩ }⟩
    let world : World :=
      { tree := { entries := [(["a"], .directory), (["a", "web.conf"], .file .empty)] } }
    let rule : Rule :=
      { id := "web", targetContainer := "web", targetPort := 80, created := .epoch }
    let start := controller.start world [.remove "web", .remove "gone", .sync [rule, rule]]
    let history : List Turn := .step 2 :: List.replicate 8 (.step 1) ++
      List.replicate 6 (.step 0) ++ [.reply 0 (.finished { success := true })] ++
      List.replicate 3 (.step 0) ++ [.reply 0 .timedOut] ++ List.replicate 8 (.step 0)
    let moves := history.map Move.turn
    controller.Tells [.remove "web", .remove "gone", .sync [rule, rule]] (start.facts moves)
        (start.moveAll moves) ∧
      (start.moveAll moves).world.tallies.applies = 0 ∧
      (start.moveAll moves).world.tallies.failures = 1 := by
  intro controller world rule start history moves
  have whole : ∀ move ∈ moves, move.drops = false := by decide +kernel
  have all : (start.moveAll moves).threads.all Thread.isFinished = true := by decide +kernel
  have count : (start.moveAll moves).threads.length = 3 := by decide +kernel
  have ended (i : Nat) (inside : i < 3) :
      ∃ result, (start.moveAll moves).threads[i]? = some (.finished result) :=
    Turns.exists_finished all (count ▸ inside)
  exact ⟨controller.metrics_tell ⟨rfl, rfl⟩ (by decide) whole ended,
    by decide +kernel, by decide +kernel⟩

end ProxyKeeper
