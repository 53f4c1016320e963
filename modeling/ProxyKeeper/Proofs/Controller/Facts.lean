import ProxyKeeper.Proofs.Controller.Serial

/-!
# What happens in a run

The facts of a run that counters are about: who took the lock, how nginx answered, who began to put
files back, and what was counted. They are read off the requests that are answered, one program's
after another's as they take turns. Of a program by itself they follow from what it is answered
alone, so that what is known of its facts by itself is known of its facts among others.

## Main Definitions

* `Fact`, `Request.facts` — the facts, and those that lie in a request with its answer
* `Controller.factTerms` — terms that keep the facts of a program
* `Turns.facts`, `factsBy`, `occurrences` — the facts of a run, those of one program, and how often
  a fact is among them

## Main Results

* `Turns.trades_move` — a move that drops nobody is a request that is answered, or no fact at all
* `Noted.moveAll` — what is counted in a run, and what is left of its programs
-/

namespace ProxyKeeper

/-- Something that happens to a program. -/
inductive Fact where
  /-- It takes the lock. -/
  | locks
  /-- Its check of the configuration comes to its end. -/
  | tested (ok : Bool)
  /-- Its reload comes to its end. -/
  | reloaded (ok : Bool)
  /-- It begins to put files back. -/
  | undoes
  /-- It counts something. -/
  | counts (event : Event)
  /-- It counts one of the controller's own numbers up. -/
  | tallies (tally : Tally)
deriving DecidableEq

/-- What is counted in a fact. -/
def Fact.event? : Fact → Option Event
  | .counts event => some event
  | _ => none

/-- The facts that lie in a request with its answer. -/
def Request.facts : (request : Request) → request.Answer → List Fact
  | .acquire, _ => [.locks]
  | .nginx call, reply =>
    match call.action with
    | .test => [.tested reply.isSuccess]
    | .reload => [.reloaded reply.isSuccess]
    | .version => []
  | .publish phase, _ => if phase = .rollingBack then [.undoes] else []
  | .count event tally, _ => .counts event :: tally.toList.map .tallies
  | _, _ => []

/-- Among the facts of counting an event, it is the only one. -/
theorem filterMap_event?_count (event : Event) (tally : Option Tally) :
    ((Request.count event tally).facts ()).filterMap Fact.event? = [event] := by
  cases tally <;> rfl

/-- What is counted up beside an event. -/
theorem count_tallies (event : Event) (tally : Option Tally) (other : Tally) :
    ((Request.count event tally).facts ()).count (.tallies other) =
      tally.toList.count other := by
  cases tally with
  | none => rfl
  | some tally => cases tally <;> cases other <;> rfl

/-- The terms of a world that answers as it likes, with the facts so far. -/
def factTerms : Terms (List Fact) where
  allows _ _ := True
  answers request facts answer facts' := facts' = facts ++ request.facts answer

/-- The facts of one program among those of several. -/
def factsBy (i : Nat) (facts : List (Nat × Fact)) : List Fact :=
  facts.filterMap fun (j, fact) => if j = i then some fact else none

theorem factsBy_cons (i j : Nat) (fact : Fact) (facts : List (Nat × Fact)) :
    factsBy i ((j, fact) :: facts) = (if j = i then [fact] else []) ++ factsBy i facts := by
  by_cases mine : j = i <;> simp [factsBy, mine]

theorem factsBy_append (i : Nat) (front back : List (Nat × Fact)) :
    factsBy i (front ++ back) = factsBy i front ++ factsBy i back :=
  List.filterMap_append

theorem factsBy_self (i : Nat) (facts : List Fact) : factsBy i (facts.map (i, ·)) = facts := by
  induction facts with
  | nil => rfl
  | cons fact facts ih =>
    rw [List.map_cons, factsBy_cons, if_pos rfl, ih]
    rfl

theorem factsBy_of_ne {i j : Nat} (other : i ≠ j) (facts : List Fact) :
    factsBy i (facts.map (j, ·)) = [] := by
  refine List.filterMap_eq_nil_iff.2 fun entry listed => ?_
  obtain ⟨fact, _, rfl⟩ := List.mem_map.1 listed
  exact if_neg (Ne.symm other)

theorem mem_factsBy {i : Nat} {fact : Fact} {facts : List (Nat × Fact)} :
    fact ∈ factsBy i facts ↔ (i, fact) ∈ facts := by
  constructor
  · intro listed
    obtain ⟨⟨j, other⟩, inside, is⟩ := List.mem_filterMap.1 listed
    obtain ⟨rfl, same⟩ := Option.ite_none_right_eq_some.1 is
    cases same
    exact inside
  · exact fun listed => List.mem_filterMap.2 ⟨_, listed, if_pos rfl⟩

/-- How often something happens in a run. -/
def occurrences (fact : Fact) (facts : List (Nat × Fact)) : Nat :=
  (facts.map Prod.snd).count fact

theorem occurrences_append (fact : Fact) (front back : List (Nat × Fact)) :
    occurrences fact (front ++ back) = occurrences fact front + occurrences fact back := by
  rw [occurrences, List.map_append, List.count_append, occurrences, occurrences]

/-- Facts of one program only. -/
theorem occurrences_map (fact : Fact) (i : Nat) (facts : List Fact) :
    occurrences fact (facts.map (i, ·)) = facts.count fact := by
  rw [occurrences, List.map_map]
  exact congrArg (List.count fact) facts.map_id

/-! ## One move -/

/-- Whether a program is dropped in a move. -/
def Move.drops : Move → Bool
  | .turn taken => taken.drops
  | .mishap _ _ _ => false

namespace Turns

variable {α : Type}

/-- The facts that lie in what a program is answered in a move. -/
def factsOf (turns : Turns α) : Move → List (Nat × Fact)
  | .turn (.step i) =>
    match turns.threads[i]? with
    | some (.ready (.ask .acquire _)) => if turns.holder.isNone then [(i, .locks)] else []
    | some (.ready (.ask (.nginx _) _)) => []
    | some (.ready (.ask request _)) =>
      (request.facts (turns.world.answer World.withoutNginx request).1).map (i, ·)
    | _ => []
  | .turn (.fail _ _) => []
  | .turn (.reply i reply) =>
    match turns.threads[i]? with
    | some (.calling call _) => ((Request.nginx call).facts reply).map (i, ·)
    | _ => []
  | .turn (.drop _) => []
  | .mishap _ _ _ => []

/-- The facts of several moves. -/
def facts (turns : Turns α) : List Move → List (Nat × Fact)
  | [] => []
  | move :: moves => turns.factsOf move ++ (turns.move move).facts moves

/-- One move that drops nobody, by the facts in it. -/
inductive Trades (turns : Turns α) : List (Nat × Fact) → Turns α → Prop where
  /-- Nothing can be done. -/
  | idles : Trades turns [] turns
  /-- A call of nginx begins, or a program that is done ends. -/
  | stays {i : Nat} {thread thread' : Thread α} (here : turns.threads[i]? = some thread)
    (same : thread'.rest? = thread.rest?) : Trades turns [] (turns.put i thread')
  /-- A request is answered. -/
  | answers {i : Nat} {thread : Thread α} (request : Request)
    {next : request.Answer → Program α} {turns' : Turns α} (given : request.Answer)
    (here : turns.threads[i]? = some thread) (asks : thread.rest? = some (.ask request next))
    (set : turns'.threads = turns.threads.set i (.ready (next given)))
    (counted : turns'.world.metrics =
      turns.world.metrics ++ (request.facts given).filterMap Fact.event?)
    (tallied : ∀ tally, turns'.world.tallies.value tally =
      turns.world.tallies.value tally + (request.facts given).count (.tallies tally)) :
    Trades turns ((request.facts given).map (i, ·)) turns'

theorem trades_step (turns : Turns α) (i : Nat) :
    turns.Trades (turns.factsOf (.turn (.step i))) (turns.step i) := by
  rw [factsOf, step]
  cases here : turns.threads[i]? with
  | none => exact .idles
  | some thread =>
    cases thread with
    | calling call next => exact .idles
    | finished a => exact .idles
    | dropped => exact .idles
    | ready program =>
      cases program with
      | done a => exact .stays here rfl
      | ask request next =>
        have unchanged (metrics : Metrics) : metrics = metrics ++ [] := (List.append_nil _).symm
        cases request with
        | file call => exact .answers (.file call) _ here rfl rfl (unchanged _) fun _ => rfl
        | nginx call => exact .stays here rfl
        | freshName => exact .answers .freshName _ here rfl rfl (unchanged _) fun _ => rfl
        | acquire =>
          dsimp only
          split
          next => exact .answers .acquire () here rfl rfl (unchanged _) fun _ => rfl
          next => exact .idles
        | release => exact .answers .release () here rfl rfl (unchanged _) fun _ => rfl
        | publish phase =>
          refine .answers (.publish phase) () here rfl rfl ?_ fun tally => ?_
          · cases phase <;> exact unchanged _
          · cases phase <;> rfl
        | count event tally =>
          refine .answers (.count event tally) () here rfl rfl ?_ fun other => ?_
          · exact congrArg _ (filterMap_event?_count event tally).symm
          · exact (turns.world.tallies.value_up? tally other).trans
              (congrArg _ (count_tallies event tally other).symm)

/-- A call of the file system that fails is answered, and there is no fact in it. -/
theorem trades_failure (turns : Turns α) {i : Nat} {call : FileCall}
    {next : call.Answer → Program α}
    (here : turns.threads[i]? = some (.ready (.ask (.file call) next))) (fault : IoFault)
    (left : Tree) :
    turns.Trades [] { turns.put i (.ready (next (.error fault))) with
      world := { turns.world with tree := left } } :=
  .answers (.file call) (.error fault) here rfl rfl (List.append_nil _).symm fun _ => rfl

/-- A move that drops nobody is a request that is answered, or there is no fact in it. -/
theorem trades_move (turns : Turns α) {move : Move} (whole : move.drops = false) :
    turns.Trades (turns.factsOf move) (turns.move move) := by
  cases move with
  | mishap i fault left =>
    rw [factsOf, Turns.move, mishap]
    split
    next call next here =>
      split
      next => exact turns.trades_failure here fault left
      next => exact .idles
    next => exact .idles
  | turn turn =>
    cases turn with
    | step i => exact turns.trades_step i
    | fail i fault =>
      rw [factsOf, Turns.move, Turns.take, fail]
      split
      next call next here => exact turns.trades_failure here fault turns.world.tree
      next => exact .idles
    | reply i reply =>
      rw [factsOf, Turns.move, Turns.take, Turns.reply]
      cases here : turns.threads[i]? with
      | none => exact .idles
      | some thread =>
        cases thread with
        | calling call next =>
          refine .answers (.nginx call) reply here rfl rfl ?_ fun tally => ?_
          · have nothing : ((Request.nginx call).facts reply).filterMap Fact.event? = [] := by
              cases action : call.action <;> simp [Request.facts, action, Fact.event?]
            rw [nothing]
            exact (List.append_nil _).symm
          · have nothing : ((Request.nginx call).facts reply).count (.tallies tally) = 0 := by
              cases action : call.action <;> simp [Request.facts, action]
            rw [nothing]
            rfl
        | _ => exact .idles
    | drop i => cases whole

end Turns

/-! ## Runs -/

/-- What is noted of a run: each program is on its way from its beginning, with the facts that are
its own, and what was counted are the facts of counting. -/
structure Noted {α : Type} (programs : List (Program α)) (before : World)
    (facts : List (Nat × Fact)) (turns : Turns α) : Prop where
  left : ∀ i q, turns.rest? i = some q → ∃ p, programs[i]? = some p ∧
    p.Reaches factTerms [] q (factsBy i facts)
  known : ∀ entry ∈ facts, entry.1 < programs.length
  metrics : turns.world.metrics = before.metrics ++ facts.filterMap fun entry => entry.2.event?
  tallies (tally : Tally) : turns.world.tallies.value tally =
    before.tallies.value tally + occurrences (.tallies tally) facts

namespace Noted

variable {α : Type} {programs : List (Program α)} {before : World} {facts : List (Nat × Fact)}
  {turns turns' : Turns α}

/-- A move that drops nobody is noted with its facts. -/
theorem trades (noted : Noted programs before facts turns) {new : List (Nat × Fact)}
    (traded : turns.Trades new turns') : Noted programs before (facts ++ new) turns' := by
  cases traded with
  | idles =>
    rw [List.append_nil]
    exact noted
  | @stays i thread thread' here same =>
    rw [List.append_nil]
    refine ⟨fun j q rest => noted.left j q ?_, noted.known, noted.metrics, noted.tallies⟩
    rw [Turns.rest?_of_set (turns.put i thread') rfl here, same] at rest
    split at rest
    next mine => rwa [mine, Turns.rest?_eq here]
    next => exact rest
  | @answers i thread request next _ given here asks set counted tallied =>
    obtain ⟨p, known, reaches⟩ := noted.left i _ ((Turns.rest?_eq here).trans asks)
    refine ⟨fun j q rest => ?_, ?_, ?_, fun tally => ?_⟩
    · rw [Turns.rest?_of_set turns' set here] at rest
      rw [factsBy_append]
      split at rest
      next mine =>
        subst mine
        obtain rfl := Option.some.inj rest
        refine ⟨p, known, ?_⟩
        rw [factsBy_self]
        exact .ask reaches rfl
      next other =>
        rw [factsBy_of_ne other, List.append_nil]
        exact noted.left j q rest
    · refine List.forall_mem_append.2 ⟨noted.known, fun entry listed => ?_⟩
      obtain ⟨fact, _, rfl⟩ := List.mem_map.1 listed
      exact (List.getElem?_eq_some_iff.1 known).1
    · rw [counted, noted.metrics, List.filterMap_append, List.append_assoc, List.filterMap_map]
      rfl
    · rw [tallied, noted.tallies, occurrences_append, occurrences_map, Nat.add_assoc]

/-- Runs that drop nobody are noted with their facts. -/
theorem moveAll (noted : Noted programs before facts turns) {moves : List Move}
    (whole : ∀ move ∈ moves, move.drops = false) :
    Noted programs before (facts ++ turns.facts moves) (turns.moveAll moves) := by
  induction moves generalizing facts turns with
  | nil =>
    rw [Turns.facts, List.append_nil]
    exact noted
  | cons move moves ih =>
    obtain ⟨first, whole⟩ := List.forall_mem_cons.1 whole
    rw [Turns.facts, ← List.append_assoc]
    exact ih (noted.trades (turns.trades_move first)) whole

/-- A program that has come to its end has kept its promise on its facts. -/
theorem of_finished (noted : Noted programs before facts turns) {i : Nat} {a : α}
    (ended : turns.threads[i]? = some (.finished a)) {p : Program α} (known : programs[i]? = some p)
    {promise : α → List Fact → Prop} (meets : p.Meets factTerms promise []) :
    promise a (factsBy i facts) := by
  obtain ⟨p', known', reaches⟩ := noted.left i _ (Turns.rest?_eq ended)
  obtain rfl := Option.some.inj (known.symm.trans known')
  exact meets.of_reaches reaches fun _ _ _ _ answered => answered

end Noted

/-- Tasks that have not begun. -/
theorem Controller.noted_start (controller : Controller) (world : World) (tasks : List Task) :
    Noted (tasks.map (Task.program controller)) world [] (controller.start world tasks) where
  left i q rest := by
    obtain ⟨thread, there, is⟩ := Option.bind_eq_some_iff.1 rest
    rw [start, List.getElem?_map] at there
    obtain ⟨task, known, rfl⟩ := Option.map_eq_some_iff.1 there
    obtain rfl := Option.some.inj is
    exact ⟨task.program controller, by rw [List.getElem?_map, known]; rfl, .refl⟩
  known := nofun
  metrics := (List.append_nil _).symm
  tallies _ := rfl

end ProxyKeeper
