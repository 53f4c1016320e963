import ProxyKeeper.Proofs.Controller.TestedReload
import ProxyKeeper.Proofs.Program.Outcomes

/-!
# Serialization

Any number of tasks on one controller take turns, and each meets some outcomes: replies of nginx and
faults of its calls of the file system. What becomes of them is what becomes of the same tasks one
after another, in the order in which they take the lock, each against the outcomes that it meets.
What a task works out before it takes the lock depends on nothing that others change, and all that
it reads and writes after that lies between taking the lock and releasing it.

## Main Definitions

* `Turns.lockOrder`, `Turns.received` — who takes the lock, and what each program meets
* `serially` — programs one after another
* `Turns.Takes` — one turn, by what it does to whom
* `Serialized` — the invariant: the holder of the lock is on its way in the run one after another

## Main Results

* `Turns.takes_take` — every turn does one of these things
* `Serialized.takes` — every turn keeps the invariant
* `Controller.serialized` — results, files and counts are those of the run one after another
-/

namespace ProxyKeeper

open Program (unchecked)

/-- What is left of a program on its way; one that waits for nginx has its call before it. -/
def Thread.rest? {α : Type} : Thread α → Option (Program α)
  | .ready program => some program
  | .calling call next => some (.ask (.nginx call) next)
  | .finished a => some (.done a)
  | .dropped => none

/-- The program whose turn it is. -/
def Turn.who : Turn → Nat
  | .step i => i
  | .fail i _ => i
  | .reply i _ => i
  | .drop i => i

/-- Whether a program is dropped in a turn. -/
def Turn.drops : Turn → Bool
  | .drop _ => true
  | _ => false

namespace Turns

variable {α : Type}

/-- What is left of a program. -/
def rest? (turns : Turns α) (i : Nat) : Option (Program α) :=
  turns.threads[i]?.bind Thread.rest?

/-- The program that takes the lock in a turn. -/
def acquirer? (turns : Turns α) : Turn → Option Nat
  | .step i =>
    match turns.threads[i]? with
    | some (.ready (.ask .acquire _)) => if turns.holder.isNone then some i else none
    | _ => none
  | _ => none

/-- What the program whose turn it is meets. -/
def meets (turns : Turns α) : Turn → Outcomes
  | .step i =>
    match turns.threads[i]? with
    | some (.ready (.ask (.file _) _)) => { faults := [none] }
    | _ => {}
  | .fail i fault =>
    match turns.threads[i]? with
    | some (.ready (.ask (.file _) _)) => { faults := [some fault] }
    | _ => {}
  | .reply i reply =>
    match turns.threads[i]? with
    | some (.calling _ _) => { replies := [reply] }
    | _ => {}
  | .drop _ => {}

/-- The programs that take the lock, in that order. -/
def lockOrder (turns : Turns α) : List Turn → List Nat
  | [] => []
  | turn :: history => (turns.acquirer? turn).toList ++ (turns.take turn).lockOrder history

/-- What a program meets in some turns. -/
def received (i : Nat) (turns : Turns α) : List Turn → Outcomes
  | [] => {}
  | turn :: history =>
    (if turn.who = i then turns.meets turn else {}) ++ (turns.take turn).received i history

end Turns

/-- The world after some programs were run by themselves one after another. -/
def serially {α : Type} (programs : List (Program α)) (received : Nat → Outcomes)
    (order : List Nat) (world : World) : World :=
  order.foldl
    (fun world i =>
      match programs[i]? with
      | some program => (program.against (received i) world).2
      | none => world) world

section Serially

variable {α : Type} {programs : List (Program α)} {received received' : Nat → Outcomes}

theorem serially_append (front back : List Nat) (world : World) :
    serially programs received (front ++ back) world =
      serially programs received back (serially programs received front world) :=
  List.foldl_append

theorem serially_singleton {i : Nat} {p : Program α} (known : programs[i]? = some p)
    (world : World) :
    serially programs received [i] world = (p.against (received i) world).2 := by
  simp [serially, known]

/-- Only what the programs in question meet counts. -/
theorem serially_congr {order : List Nat} (same : ∀ i ∈ order, received' i = received i)
    (world : World) :
    serially programs received' order world = serially programs received order world := by
  induction order generalizing world with
  | nil => rfl
  | cons i order ih =>
    rw [← List.singleton_append, serially_append, serially_append,
      ih fun j listed => same j (List.mem_cons_of_mem i listed)]
    congr 1
    simp only [serially, List.foldl_cons, List.foldl_nil, same i (List.mem_cons_self ..)]

end Serially

/-! ## One turn -/

namespace Turns

variable {α : Type}

/-- One turn, by what it does to whom: the program that takes the lock in it, if one does, and what
the program whose turn it is meets. -/
inductive Takes (turns : Turns α) (i : Nat) : Option Nat → Outcomes → Turns α → Prop where
  /-- Nothing can be done. -/
  | idles : Takes turns i none {} turns
  /-- A call of nginx begins, or a program that is done ends. -/
  | stays {thread thread' : Thread α} (here : turns.threads[i]? = some thread)
    (same : thread'.rest? = thread.rest?) : Takes turns i none {} (turns.put i thread')
  | acquires {next : Unit → Program α}
    (here : turns.threads[i]? = some (.ready (.ask .acquire next))) (free : turns.holder = none) :
    Takes turns i (some i) {} { turns.put i (.ready (next ())) with holder := some i }
  | releases {next : Unit → Program α}
    (here : turns.threads[i]? = some (.ready (.ask .release next))) :
    Takes turns i none {} { turns.put i (.ready (next ())) with holder := none }
  /-- A request is answered as it is when the program is by itself. -/
  | answers {thread : Thread α} {request : Request} {next : request.Answer → Program α}
    {given : request.Answer} {world : World} {new : Outcomes}
    (here : turns.threads[i]? = some thread) (asks : thread.rest? = some (.ask request next))
    (inner : Program.Inner request)
    (answered : ∀ more, World.meet request (new ++ more, turns.world) = (given, more, world)) :
    Takes turns i none new { turns.put i (.ready (next given)) with world := world }

theorem takes_step (turns : Turns α) (i : Nat) :
    turns.Takes i (turns.acquirer? (.step i)) (turns.meets (.step i)) (turns.step i) := by
  rw [acquirer?, meets, step]
  cases here : turns.threads[i]? with
  | none => exact .idles
  | some thread =>
    cases thread with
    | calling call next => exact .idles
    | finished a => exact .idles
    | dropped => exact .idles
    | ready program =>
      cases program with
      | done a => exact .stays here rfl
      | ask request next =>
        cases request with
        | file call => exact .answers here rfl (by simp [Program.Inner]) fun _ => rfl
        | nginx call => exact .stays here rfl
        | freshName => exact .answers here rfl (by simp [Program.Inner]) fun _ => rfl
        | acquire =>
          dsimp only
          split
          next free => exact .acquires here (Option.isNone_iff_eq_none.1 free)
          next => exact .idles
        | release => exact .releases here
        | publish phase => exact .answers here rfl (by simp [Program.Inner]) fun _ => rfl
        | count event => exact .answers here rfl (by simp [Program.Inner]) fun _ => rfl

theorem takes_fail (turns : Turns α) (i : Nat) (fault : IoFault) :
    turns.Takes i none (turns.meets (.fail i fault)) (turns.fail i fault) := by
  rw [meets, fail]
  cases here : turns.threads[i]? with
  | none => exact .idles
  | some thread =>
    cases thread with
    | ready program =>
      cases program with
      | done a => exact .idles
      | ask request next =>
        cases request with
        | file call => exact .answers here rfl (by simp [Program.Inner]) fun _ => rfl
        | _ => exact .idles
    | _ => exact .idles

theorem takes_reply (turns : Turns α) (i : Nat) (reply : Nginx.Reply) :
    turns.Takes i none (turns.meets (.reply i reply)) (turns.reply i reply) := by
  rw [meets, Turns.reply]
  cases here : turns.threads[i]? with
  | none => exact .idles
  | some thread =>
    cases thread with
    | calling call next => exact .answers here rfl (by simp [Program.Inner]) fun _ => rfl
    | _ => exact .idles

/-- Every turn but that of a drop does one of these things. -/
theorem takes_take (turns : Turns α) {turn : Turn} (whole : turn.drops = false) :
    turns.Takes turn.who (turns.acquirer? turn) (turns.meets turn) (turns.take turn) := by
  cases turn with
  | step i => exact turns.takes_step i
  | fail i fault => exact turns.takes_fail i fault
  | reply i reply => exact turns.takes_reply i reply
  | drop i => cases whole

theorem rest?_eq {turns : Turns α} {i : Nat} {thread : Thread α}
    (here : turns.threads[i]? = some thread) : turns.rest? i = thread.rest? := by
  rw [rest?, here, Option.bind_some]

theorem rest?_of_set {turns : Turns α} (turns' : Turns α) {i : Nat} {thread old : Thread α}
    (set : turns'.threads = turns.threads.set i thread) (here : turns.threads[i]? = some old)
    (j : Nat) : turns'.rest? j = if j = i then thread.rest? else turns.rest? j := by
  have inside := (List.getElem?_eq_some_iff.1 here).1
  rw [rest?, set]
  split
  next same => rw [same, List.getElem?_set_self inside, Option.bind_some]
  next other => rw [List.getElem?_set_ne (Ne.symm other), rest?]

end Turns

/-! ## The invariant -/

namespace Program

/-- Requests of tasks that have no part in changes: calls of nginx, and counts of checks. -/
def Detached : Request → Prop
  | .nginx _ => True
  | .count event tally => event.isCheck = true ∧ tally = none
  | _ => False

/-- What such a request does is seen in the counts of checks only. -/
theorem unchecked_of_detached {request : Request} (detached : Detached request)
    {outcomes left : Outcomes} {world world' : World} {given : request.Answer}
    (answered : World.meet request (outcomes, world) = (given, left, world')) :
    world'.unchecked = world.unchecked := by
  cases request with
  | nginx call =>
    cases answered
    rfl
  | count event tally =>
    obtain ⟨check, rfl⟩ := detached
    cases answered
    simp [World.unchecked, check, Tallies.up?]
  | _ => exact detached.elim

end Program

/-- Where the run of some programs among others has got to in the run one after another: those that
had the lock are done, the holder of the lock comes last and is on its way, and the others have not
begun, or have no part in it. -/
structure Serialized {α : Type} (programs : List (Program α)) (world : World) (order : List Nat)
    (received : Nat → Outcomes) (turns : Turns α) : Prop where
  nodup : order.Nodup
  held : ∀ i, turns.holder = some i → ∃ before p q, order = before ++ [i] ∧
    programs[i]? = some p ∧ turns.rest? i = some q ∧ q.IsHeld ∧
    ∀ more, unchecked (q.against more turns.world) =
      unchecked (p.against (received i ++ more) (serially programs received before world))
  free : turns.holder = none →
    turns.world.unchecked = (serially programs received order world).unchecked
  served : ∀ before i after, order = before ++ i :: after → turns.holder ≠ some i →
    ∃ p a, programs[i]? = some p ∧ turns.rest? i = some (.done a) ∧
      a = (p.against (received i) (serially programs received before world)).1
  waiting : ∀ i q, i ∉ order → turns.rest? i = some q → ∃ p, programs[i]? = some p ∧
    (q = p ∧ p.IsExclusive ∧ received i = {} ∨ q.Asks Program.Detached ∧ ¬ p.IsExclusive)

namespace Serialized

variable {α : Type} {programs : List (Program α)} {world : World} {order : List Nat}
  {received : Nat → Outcomes} {turns turns' : Turns α} {i : Nat}

/-- A list is split at its last element in one way only, when the element occurs once. -/
theorem last_of_split {before front after : List Nat} (fresh : i ∉ before)
    (split : before ++ [i] = front ++ i :: after) : front = before ∧ after = [] := by
  rcases List.eq_nil_or_concat after with rfl | ⟨middle, last, rfl⟩
  · exact ⟨(List.append_inj' split rfl).1.symm, rfl⟩
  · rw [List.concat_eq_append, ← List.cons_append, ← List.append_assoc] at split
    refine absurd ?_ fresh
    rw [(List.append_inj' split rfl).1]
    simp

/-- What took the lock last did not take it before. -/
theorem notMem_of_last (serialized : Serialized programs world order received turns)
    {before : List Nat} (split : order = before ++ [i]) : i ∉ before := by
  have nodup := serialized.nodup
  rw [split] at nodup
  exact fun listed => (List.nodup_append.1 nodup).2.2 i listed i (List.mem_singleton_self i) rfl

/-- A program that has had the lock and lost it is done. -/
theorem done_of_mem (serialized : Serialized programs world order received turns)
    (listed : i ∈ order) (lost : turns.holder ≠ some i) :
    ∃ a, turns.rest? i = some (.done a) := by
  obtain ⟨before, after, split⟩ := List.append_of_mem listed
  obtain ⟨_, a, _, rest, _⟩ := serialized.served before i after split lost
  exact ⟨a, rest⟩

/-- A program that asks for the lock, or to release it, or for what belongs under it, is where it
should be: the first is still to begin, the others hold the lock. -/
theorem holder_of_ask (serialized : Serialized programs world order received turns)
    {request : Request} {next : request.Answer → Program α}
    (rest : turns.rest? i = some (.ask request next)) (other : request ≠ .acquire)
    (attached : ¬ Program.Detached request) : turns.holder = some i := by
  by_contra lost
  by_cases listed : i ∈ order
  · obtain ⟨a, done⟩ := serialized.done_of_mem listed lost
    rw [rest] at done
    cases done
  · obtain ⟨p, _, ⟨rfl, exclusive, _⟩ | ⟨detached, _⟩⟩ := serialized.waiting i _ listed rest
    · obtain ⟨a, is⟩ | ⟨next', is, _⟩ := exclusive
      · cases is
      · cases is
        exact other rfl
    · exact attached detached.1

theorem acquires (serialized : Serialized programs world order received turns)
    {next : Unit → Program α} (here : turns.threads[i]? = some (.ready (.ask .acquire next)))
    (free : turns.holder = none) :
    Serialized programs world (order ++ [i]) received
      { turns.put i (.ready (next ())) with holder := some i } := by
  have rest : turns.rest? i = some (.ask .acquire next) := Turns.rest?_eq here
  have rests := Turns.rest?_of_set
    { turns.put i (.ready (next ())) with holder := some i } rfl here
  have fresh : i ∉ order := by
    intro listed
    obtain ⟨a, done⟩ := serialized.done_of_mem listed (by simp [free])
    rw [rest] at done
    cases done
  obtain ⟨p, known, ⟨rfl, exclusive, nothing⟩ | ⟨detached, _⟩⟩ := serialized.waiting i _ fresh rest
  · obtain ⟨a, is⟩ | ⟨next', is, held⟩ := exclusive
    · cases is
    cases is
    refine ⟨?_, ?_, nofun, ?_, ?_⟩
    · refine List.nodup_append.2 ⟨serialized.nodup, by simp, ?_⟩
      rintro j listed _ mem rfl
      exact fresh (List.mem_singleton.1 mem ▸ listed)
    · rintro j ⟨⟩
      refine ⟨order, _, next (), rfl, known, ?_, held, fun more => ?_⟩
      · rw [rests, if_pos rfl]
        rfl
      · -- asking for the lock changes nothing, so it goes on from where the others got to
        rw [nothing, Outcomes.nil_append]
        exact (next ()).against_congr more (serialized.free free)
    · intro before j after split lost
      have other : j ≠ i := by
        rintro rfl
        exact lost rfl
      rw [rests, if_neg other]
      rcases List.eq_nil_or_concat after with rfl | ⟨front, last, rfl⟩
      · exact absurd (List.append_singleton_inj.1 split).2 (Ne.symm other)
      · rw [List.concat_eq_append, ← List.cons_append, ← List.append_assoc] at split
        exact serialized.served before j front (List.append_inj' split rfl).1 (by simp [free])
    · intro j q absent there
      rw [List.mem_append, List.mem_singleton, not_or] at absent
      rw [rests, if_neg absent.2] at there
      exact serialized.waiting j q absent.1 there
  · exact detached.1.elim

theorem releases (serialized : Serialized programs world order received turns)
    {next : Unit → Program α} (here : turns.threads[i]? = some (.ready (.ask .release next))) :
    Serialized programs world order received
      { turns.put i (.ready (next ())) with holder := none } := by
  have rest : turns.rest? i = some (.ask .release next) := Turns.rest?_eq here
  have rests := Turns.rest?_of_set
    { turns.put i (.ready (next ())) with holder := none } rfl here
  have mine := serialized.holder_of_ask rest nofun id
  obtain ⟨before, p, q, split, known, there, held, agrees⟩ := serialized.held i mine
  obtain rfl := Option.some.inj (rest.symm.trans there)
  cases held with
  | asks inner _ => exact absurd rfl inner.2
  | releases a =>
    have agrees := agrees {}
    rw [Outcomes.append_nil] at agrees
    have fresh := serialized.notMem_of_last split
    refine ⟨serialized.nodup, nofun, fun _ => ?_, ?_, ?_⟩
    · rw [split, serially_append, serially_singleton known]
      exact congrArg Prod.snd agrees
    · intro front j after split' _
      rw [rests]
      by_cases same : j = i
      · subst same
        -- it is the last of all, so what went before it is what it began from
        obtain ⟨rfl, _⟩ := last_of_split fresh (split.symm.trans split')
        exact ⟨p, a, known, if_pos rfl, congrArg Prod.fst agrees⟩
      · rw [if_neg same]
        exact serialized.served front j after split' (by rw [mine]; simpa using Ne.symm same)
    · intro j q absent there
      have other : j ≠ i := by
        rintro rfl
        exact absent (by rw [split]; simp)
      rw [rests, if_neg other] at there
      exact serialized.waiting j q absent there

/-- A request of the holder of the lock is answered as it is in the run one after another. -/
theorem answers_held (serialized : Serialized programs world order received turns)
    {received' : Nat → Outcomes} {thread : Thread α} {request : Request}
    {next : request.Answer → Program α} {given : request.Answer} {left : World} {new : Outcomes}
    (here : turns.threads[i]? = some thread) (asks : thread.rest? = some (.ask request next))
    (inner : Program.Inner request) (mine : turns.holder = some i)
    (answered : ∀ more, World.meet request (new ++ more, turns.world) = (given, more, left))
    (others : ∀ j, j ≠ i → received' j = received j) (met : received' i = received i ++ new) :
    Serialized programs world order received'
      { turns.put i (.ready (next given)) with world := left } := by
  have rest : turns.rest? i = some (.ask request next) :=
    (Turns.rest?_eq here).trans asks
  have rests := Turns.rest?_of_set
    { turns.put i (.ready (next given)) with world := left } rfl here
  obtain ⟨before, p, q, split, known, there, held, agrees⟩ := serialized.held i mine
  obtain rfl := Option.some.inj (rest.symm.trans there)
  have fresh := serialized.notMem_of_last split
  have earlier : ∀ j ∈ before, received' j = received j := by
    intro j listed
    refine others j ?_
    rintro rfl
    exact fresh listed
  refine ⟨serialized.nodup, ?_, ?_, ?_, ?_⟩
  · intro j holds
    obtain rfl : i = j := Option.some.inj (mine.symm.trans holds)
    refine ⟨before, p, next given, split, known, ?_, held.next inner given, fun more => ?_⟩
    · rw [rests, if_pos rfl]
      rfl
    · -- what it meets now is what comes next in the run one after another
      rw [met, Outcomes.append_assoc, serially_congr earlier, ← agrees (new ++ more),
        Program.against_ask (answered more)]
  · intro free
    rw [show turns.holder = none from free] at mine
    cases mine
  · intro front j after split' lost
    have other : j ≠ i := by
      rintro rfl
      exact lost mine
    obtain ⟨p', a, known', done, is⟩ := serialized.served front j after split' lost
    refine ⟨p', a, known', ?_, ?_⟩
    · rw [rests, if_neg other]
      exact done
    · have shorter : ∀ k ∈ front, received' k = received k := by
        intro k listed
        refine others k ?_
        rintro rfl
        -- the holder is the last of all, so it is not before another one
        obtain ⟨inside, outside, cut⟩ := List.append_of_mem listed
        rw [cut, List.append_assoc, List.cons_append] at split'
        have nothing := (last_of_split fresh (split.symm.trans split')).2
        simp at nothing
      rw [serially_congr shorter, others j other]
      exact is
  · intro j q absent there
    have other : j ≠ i := by
      rintro rfl
      exact absent (by rw [split]; simp)
    rw [rests, if_neg other] at there
    rw [others j other]
    exact serialized.waiting j q absent there

/-- What a program without a part in changes does makes no difference to the others. -/
theorem answers_detached (serialized : Serialized programs world order received turns)
    {received' : Nat → Outcomes} {thread : Thread α} {request : Request}
    {next : request.Answer → Program α} {given : request.Answer} {left : World} {new : Outcomes}
    (here : turns.threads[i]? = some thread) (asks : thread.rest? = some (.ask request next))
    (inner : Program.Inner request) (lost : turns.holder ≠ some i)
    (answered : ∀ more, World.meet request (new ++ more, turns.world) = (given, more, left))
    (others : ∀ j, j ≠ i → received' j = received j) :
    Serialized programs world order received'
      { turns.put i (.ready (next given)) with world := left } := by
  have rest : turns.rest? i = some (.ask request next) :=
    (Turns.rest?_eq here).trans asks
  have rests := Turns.rest?_of_set
    { turns.put i (.ready (next given)) with world := left } rfl here
  have absent : i ∉ order := by
    intro listed
    obtain ⟨a, done⟩ := serialized.done_of_mem listed lost
    rw [rest] at done
    cases done
  obtain ⟨p, known, ⟨rfl, exclusive, _⟩ | ⟨detached, shared⟩⟩ :=
    serialized.waiting i _ absent rest
  · obtain ⟨a, is⟩ | ⟨next', is, _⟩ := exclusive
    · cases is
    · cases is
      exact absurd rfl inner.1
  have same : left.unchecked = turns.world.unchecked :=
    Program.unchecked_of_detached detached.1 (answered {})
  have earlier {some : List Nat} (within : ∀ j ∈ some, j ∈ order) :
      ∀ j ∈ some, received' j = received j := by
    intro j listed
    refine others j ?_
    rintro rfl
    exact absent (within j listed)
  refine ⟨serialized.nodup, ?_, ?_, ?_, ?_⟩
  · intro j holds
    obtain ⟨before, p', q, split, known', there, held, agrees⟩ := serialized.held j holds
    have listed : j ∈ order := by rw [split]; simp
    have other : j ≠ i := by
      rintro rfl
      exact absent listed
    refine ⟨before, p', q, split, known', ?_, held, fun more => ?_⟩
    · rw [rests, if_neg other]
      exact there
    · rw [others j other, serially_congr (earlier fun k mem => by rw [split]; simp [mem]),
        ← agrees more]
      exact q.against_congr more same
  · intro free
    rw [serially_congr (earlier fun _ => id), ← serialized.free free]
    exact same
  · intro front j after split lost'
    have listed : j ∈ order := by rw [split]; simp
    have other : j ≠ i := by
      rintro rfl
      exact absent listed
    obtain ⟨p', a, known', done, is⟩ := serialized.served front j after split lost'
    refine ⟨p', a, known', ?_, ?_⟩
    · rw [rests, if_neg other]
      exact done
    · rw [serially_congr (earlier fun k mem => by rw [split]; simp [mem]), others j other]
      exact is
  · intro j q absent' there
    rw [rests] at there
    by_cases same : j = i
    · subst same
      rw [if_pos rfl] at there
      obtain rfl : next given = q := Option.some.inj there
      exact ⟨p, known, .inr ⟨detached.2 given, shared⟩⟩
    · rw [if_neg same] at there
      rw [others j same]
      exact serialized.waiting j q absent' there

/-- Every turn keeps the invariant. -/
theorem takes (serialized : Serialized programs world order received turns)
    {acquirer : Option Nat} {new : Outcomes} (taken : turns.Takes i acquirer new turns') :
    Serialized programs world (order ++ acquirer.toList)
      (fun j => received j ++ if i = j then new else {}) turns' := by
  have nothing : (fun j => received j ++ if i = j then ({} : Outcomes) else {}) = received := by
    funext j
    rw [ite_self, Outcomes.append_nil]
  cases taken with
  | idles =>
    rw [nothing, Option.toList_none, List.append_nil]
    exact serialized
  | @stays thread thread' here same =>
    rw [nothing, Option.toList_none, List.append_nil]
    have rests (j : Nat) : (turns.put i thread').rest? j = turns.rest? j := by
      rw [Turns.rest?_of_set (turns.put i thread') rfl here]
      split
      next is => rw [is, same, Turns.rest?_eq here]
      next => rfl
    have ⟨nodup, held, free, served, waiting⟩ := serialized
    refine ⟨nodup, ?_, free, ?_, ?_⟩
    all_goals simp only [rests]
    · exact held
    · exact served
    · exact waiting
  | acquires here free =>
    rw [nothing]
    exact serialized.acquires here free
  | releases here =>
    rw [nothing, Option.toList_none, List.append_nil]
    exact serialized.releases here
  | answers here asks inner answered =>
    rw [Option.toList_none, List.append_nil]
    have others (j : Nat) (other : j ≠ i) :
        (received j ++ if i = j then new else {}) = received j := by
      rw [if_neg (Ne.symm other), Outcomes.append_nil]
    by_cases mine : turns.holder = some i
    · exact serialized.answers_held here asks inner mine answered others (by rw [if_pos rfl])
    · exact serialized.answers_detached here asks inner mine answered others

/-- Any number of turns keep the invariant. -/
theorem takeAll (serialized : Serialized programs world order received turns)
    {history : List Turn} (whole : ∀ turn ∈ history, turn.drops = false) :
    Serialized programs world (order ++ turns.lockOrder history)
      (fun j => received j ++ turns.received j history) (turns.takeAll history) := by
  induction history generalizing turns order received with
  | nil =>
    simp only [Turns.lockOrder, Turns.received, List.append_nil, Outcomes.append_nil]
    exact serialized
  | cons turn history ih =>
    have kept := serialized.takes (turns.takes_take (whole turn (List.mem_cons_self ..)))
    simp only [Turns.lockOrder, Turns.received, ← List.append_assoc, ← Outcomes.append_assoc]
    exact ih kept fun other listed => whole other (List.mem_cons_of_mem _ listed)

end Serialized

/-! ## Tasks -/

theorem Stage.replied_ne_outside {stage : Stage} (inside : stage ≠ .outside)
    (reply : Nginx.Reply) : stage.replied reply ≠ .outside := by
  cases stage with
  | outside => exact absurd rfl inside
  | testing =>
    rw [replied]
    split <;> simp
  | _ => simp [replied]

/-- Once something is under way, nothing leads back. -/
theorem Stage.next_ne_outside {stage : Stage} (inside : stage ≠ .outside) (request : Request)
    (answer : request.Answer) : stage.next request answer ≠ .outside := by
  cases request with
  | nginx call => exact replied_ne_outside inside answer
  | acquire => simp [next]
  | release => simp [next]
  | publish phase =>
    cases leads : stage.published? phase with
    | none =>
      rw [next, leads]
      exact inside
    | some target =>
      rw [next, leads]
      rintro rfl
      cases (Stage.holdsLock_of_published? leads).2
  | _ => exact inside

namespace Controller

open Operation

variable (controller : Controller) {α : Type}

/-- From a stage that asks for nothing more a program comes to its end there. -/
theorem exists_promise_of_spent {p : Program α} {promise : α → Stage → Prop}
    (h : p.Meets (discipline controller.config) promise .spent) : ∃ a, promise a .spent := by
  induction p with
  | done a => exact ⟨a, h⟩
  | ask request next ih =>
    obtain ⟨allowed, rest⟩ := h
    cases request with
    | file call => exact ih (.error .notFound) (rest _ _ rfl)
    | nginx call => exact allowed.elim
    | freshName => exact ih "" (rest _ _ rfl)
    | acquire => cases allowed
    | release => rcases allowed with is | is <;> cases is
    | publish phase => cases allowed
    | count event => exact ih () (rest _ _ rfl)

/-- What keeps to the discipline with the lock held, and does not end with it released, leaves the
lock alone. -/
theorem asks_inner_of_meets {p : Program α} {promise : α → Stage → Prop} {stage : Stage}
    (h : p.Meets (discipline controller.config) promise stage) (inside : stage ≠ .outside)
    (kept : ∀ a, ¬ promise a .spent) : p.Asks Program.Inner := by
  induction p generalizing stage with
  | done a => trivial
  | ask request next ih =>
    obtain ⟨allowed, rest⟩ := h
    refine ⟨⟨?_, ?_⟩, fun answer => ih answer (rest answer _ rfl) ?_⟩
    · rintro rfl
      exact inside allowed
    · rintro rfl
      obtain ⟨a, promised⟩ := controller.exists_promise_of_spent (rest () _ rfl)
      exact kept a promised
    · exact Stage.next_ne_outside inside request answer

theorem run_outcome_bind {β : Type} (operation : Operation α)
    (f : Except OperationError α → Operation β) :
    (outcome operation >>= f).run = operation.run >>= fun result => (f result).run :=
  ExceptT.run_bind_lift ..

/-- A change has the lock until it releases it with its last request. -/
theorem isExclusive_exclusively (kind : OperationKind) (isIdle : α → Bool) {change : Operation α}
    (closes : controller.Closes change) :
    (controller.exclusively kind isIdle change).run.IsExclusive := by
  have asks : change.run.Asks Program.Inner := by
    refine controller.asks_inner_of_meets closes nofun ?_
    rintro (e | a) <;> nofun
  let last (result : Except OperationError α) : Operation α :=
    request .release >>= fun _ => Operation.ofExcept result
  have ends (result : Except OperationError α) : (last result).run.IsHeld := .releases _
  have records (ok : Bool) (result : Except OperationError α) :
      (ExceptT.lift (controller.record kind ok) >>= fun _ => last result).run.IsHeld := by
    have counts := controller.meets_record kind ok .closing
    rw [ExceptT.run_bind_lift]
    exact .of_asks (controller.asks_inner_of_meets counts (by decide) fun _ => by decide)
      fun _ => ends result
  refine .inr ⟨_, rfl, .asks ⟨nofun, nofun⟩ fun _ => ?_⟩
  show (outcome change >>= _).run.IsHeld
  rw [run_outcome_bind]
  refine .of_asks asks fun result => .asks ⟨nofun, nofun⟩ fun _ => ?_
  cases result with
  | error e => exact records false (.error e)
  | ok a =>
    show (if (!isIdle a) = true then ExceptT.lift (controller.record kind true) >>= fun _ =>
      last (.ok a) else last (.ok a)).run.IsHeld
    split
    · exact records true (.ok a)
    · exact ends (.ok a)

theorem isExclusive_bootstrap : controller.bootstrap.run.IsExclusive := by
  have asks : controller.store.bootstrap.run.Asks Program.Inner := by
    refine controller.store.asks_bootstrap.mono fun r stores => ?_
    cases r with
    | acquire => cases stores
    | release => cases stores
    | _ => exact ⟨nofun, nofun⟩
  refine .inr ⟨_, rfl, ?_⟩
  show (outcome controller.store.bootstrap >>= _).run.IsHeld
  rw [run_outcome_bind]
  exact .of_asks asks fun result => .releases result

/-- The tasks that take the lock do nothing without it. -/
theorem isExclusive_program {task : Task} (exclusive : task.isExclusive = true) :
    (task.program controller).IsExclusive := by
  by_cases change : task.isChange = true
  · exact controller.program_of_change Program.IsExclusive (fun a => .inl ⟨a, rfl⟩)
      Program.IsExclusive.bind (fun kind isIdle _ => controller.isExclusive_exclusively kind isIdle)
      change
  · cases task with
    | bootstrap => exact controller.isExclusive_bootstrap.bind fun _ => ⟨_, rfl⟩
    | apply rule => exact absurd rfl change
    | remove id => exact absurd rfl change
    | sync rules => exact absurd rfl change
    | _ => cases exclusive

theorem asks_gate : controller.gate.Asks Program.Detached := by
  have count {event : Event} (check : event.isCheck = true) :
      (Program.request (.count event none)).Asks Program.Detached :=
    ⟨⟨check, rfl⟩, fun _ => trivial⟩
  rw [gate]
  refine Program.Asks.bind ⟨trivial, fun _ => trivial⟩ fun (reply : Nginx.Reply) => ?_
  refine (count rfl).bind fun _ => ?_
  split
  · trivial
  · exact (count rfl).bind fun _ => trivial

theorem asks_status : controller.status.Asks Program.Detached := by
  rw [status]
  refine Program.Asks.bind ⟨trivial, fun _ => trivial⟩ fun (reply : Nginx.Reply) => ?_
  cases reply with
  | finished output => trivial
  | notStarted message => trivial
  | timedOut => trivial

/-- The others have no part in changes, and begin with a call of nginx. -/
theorem detached_program {task : Task} (shared : task.isExclusive = false)
    (listless : task ≠ .list) :
    (task.program controller).Asks Program.Detached ∧ ¬ (task.program controller).IsExclusive := by
  have begins {p : Program TaskResult} {call : Nginx.Call} {next : Nginx.Reply → Program TaskResult}
      (is : p = .ask (.nginx call) next) : ¬ p.IsExclusive := by
    rintro (⟨a, other⟩ | ⟨next', other, _⟩)
    · cases is.symm.trans other
    · cases is.symm.trans other
  cases task with
  | status => exact ⟨controller.asks_status.bind fun _ => trivial, begins rfl⟩
  | gate => exact ⟨controller.asks_gate.bind fun _ => trivial, begins rfl⟩
  | list => exact absurd rfl listless
  | _ => cases shared

/-- Tasks that have not begun. -/
theorem serialized_start (world : World) {tasks : List Task}
    (listless : ∀ task ∈ tasks, task ≠ .list) :
    Serialized (tasks.map (Task.program controller)) world [] (fun _ => {})
      (controller.start world tasks) where
  nodup := List.nodup_nil
  held := nofun
  free := fun _ => rfl
  served := fun before i after split => by simp at split
  waiting := by
    intro i q _ rest
    obtain ⟨thread, there, is⟩ := Option.bind_eq_some_iff.1 rest
    rw [start, List.getElem?_map] at there
    obtain ⟨task, known, rfl⟩ := Option.map_eq_some_iff.1 there
    obtain rfl := Option.some.inj is
    refine ⟨task.program controller, by rw [List.getElem?_map, known]; rfl, ?_⟩
    cases exclusive : task.isExclusive with
    | true => exact .inl ⟨rfl, controller.isExclusive_program exclusive, rfl⟩
    | false =>
      have listless := listless task (List.mem_of_getElem? known)
      exact .inr (controller.detached_program exclusive listless)

end Controller

namespace Serialized

variable {α : Type} {programs : List (Program α)} {world : World} {order : List Nat}
  {received : Nat → Outcomes} {turns : Turns α} {i : Nat}

/-- The result of a program that has had the lock is that of its run after those before it. -/
theorem result_of_mem (serialized : Serialized programs world order received turns)
    {before after : List Nat} (split : order = before ++ i :: after) {p : Program α}
    (known : programs[i]? = some p) {a : α} (ended : turns.threads[i]? = some (.finished a)) :
    a = (p.against (received i) (serially programs received before world)).1 := by
  have rest : turns.rest? i = some (.done a) := Turns.rest?_eq ended
  have lost : turns.holder ≠ some i := by
    intro mine
    obtain ⟨_, _, q, _, _, there, held, _⟩ := serialized.held i mine
    obtain rfl := Option.some.inj (rest.symm.trans there)
    cases held
  obtain ⟨p', a', known', there, is⟩ := serialized.served before i after split lost
  obtain rfl := Option.some.inj (known.symm.trans known')
  cases rest.symm.trans there
  exact is

/-- A program that does nothing without the lock, and has come to its end without it, has done
nothing. -/
theorem eq_done_of_notMem (serialized : Serialized programs world order received turns)
    (absent : i ∉ order) {p : Program α} (known : programs[i]? = some p) (exclusive : p.IsExclusive)
    {a : α} (ended : turns.threads[i]? = some (.finished a)) : p = .done a := by
  have rest : turns.rest? i = some (.done a) := Turns.rest?_eq ended
  obtain ⟨p', known', ⟨is, _⟩ | ⟨_, shared⟩⟩ := serialized.waiting i _ absent rest
  · obtain rfl := Option.some.inj (known.symm.trans known')
    exact is.symm
  · obtain rfl := Option.some.inj (known.symm.trans known')
    exact absurd exclusive shared

/-- A program that does nothing without the lock has it while it waits for nginx. -/
theorem holder_of_calling (serialized : Serialized programs world order received turns)
    {p : Program α} (known : programs[i]? = some p) (exclusive : p.IsExclusive) {call : Nginx.Call}
    {next : Nginx.Reply → Program α} (here : turns.threads[i]? = some (.calling call next)) :
    turns.holder = some i := by
  have rest : turns.rest? i = some (.ask (.nginx call) next) := Turns.rest?_eq here
  by_contra lost
  by_cases listed : i ∈ order
  · obtain ⟨a, done⟩ := serialized.done_of_mem listed lost
    cases rest.symm.trans done
  · obtain ⟨p', known', ⟨rfl, waits, _⟩ | ⟨_, shared⟩⟩ := serialized.waiting i _ listed rest
    · obtain ⟨a, is⟩ | ⟨next', is, _⟩ := waits
      · cases is
      · cases is
    · obtain rfl := Option.some.inj (known.symm.trans known')
      exact shared exclusive

/-- When all are done, nobody holds the lock. -/
theorem holder_of_finished (serialized : Serialized programs world order received turns)
    (ended : ∀ thread ∈ turns.threads, ∃ a, thread = .finished a) : turns.holder = none := by
  cases holder : turns.holder with
  | none => rfl
  | some i =>
    obtain ⟨_, _, q, _, _, rest, held, _⟩ := serialized.held i holder
    obtain ⟨thread, here, is⟩ := Option.bind_eq_some_iff.1 rest
    obtain ⟨a, rfl⟩ := ended thread (List.mem_of_getElem? here)
    obtain rfl := Option.some.inj is
    cases held

end Serialized

namespace Controller

/-- Whatever tasks do on one controller, in any order and whatever they meet: a task takes the lock
once at most, and then ends as it does by itself after those that took the lock before it, against
what it met; one that never takes it has done nothing; whenever nobody holds the lock, and so when
all have ended, the files and what was counted, but for checks in the metrics, are those of the
tasks that took the lock, run one after another in that order; and only one of them at a time waits
for nginx. -/
theorem serialized (controller : Controller) (world : World) {tasks : List Task}
    (listless : ∀ task ∈ tasks, task ≠ .list) {history : List Turn}
    (whole : ∀ turn ∈ history, turn.drops = false) :
    let start := controller.start world tasks
    let turns := start.takeAll history
    let order := start.lockOrder history
    let received := fun i => start.received i history
    let after := fun order =>
      serially (tasks.map (Task.program controller)) received order world
    order.Nodup ∧
    (∀ (before : List Nat) (i : Nat) (later : List Nat) (task : Task) (result : TaskResult),
      order = before ++ i :: later → tasks[i]? = some task →
      turns.threads[i]? = some (.finished result) →
      result = ((task.program controller).against (received i) (after before)).1) ∧
    (∀ (i : Nat) (task : Task) (result : TaskResult), i ∉ order → tasks[i]? = some task →
      task.isExclusive = true → turns.threads[i]? = some (.finished result) →
      ∀ outcomes w, (task.program controller).against outcomes w = (result, w)) ∧
    (turns.holder = none → turns.world.tree = (after order).tree ∧
      turns.world.tallies.applies = (after order).tallies.applies ∧
      turns.world.tallies.rollbacks = (after order).tallies.rollbacks ∧
      turns.world.tallies.failures = (after order).tallies.failures ∧
      turns.world.metrics.filter (!·.isCheck) = (after order).metrics.filter (!·.isCheck)) ∧
    ((∀ thread ∈ turns.threads, ∃ result, thread = .finished result) → turns.holder = none) ∧
    (∀ (i j : Nat) (task task' : Task) (call call' : Nginx.Call)
      (next next' : Nginx.Reply → Program TaskResult),
      tasks[i]? = some task → task.isExclusive = true → tasks[j]? = some task' →
      task'.isExclusive = true → turns.threads[i]? = some (.calling call next) →
      turns.threads[j]? = some (.calling call' next') → i = j) := by
  intro start turns order received after
  have serialized : Serialized (tasks.map (Task.program controller)) world order received turns :=
    (controller.serialized_start world listless).takeAll whole
  have known {i : Nat} {task : Task} (there : tasks[i]? = some task) :
      (tasks.map (Task.program controller))[i]? = some (task.program controller) := by
    rw [List.getElem?_map, there]
    rfl
  refine ⟨serialized.nodup, ?_, ?_, ?_, serialized.holder_of_finished, ?_⟩
  · intro before i later task result split there ended
    exact serialized.result_of_mem split (known there) ended
  · intro i task result absent there exclusive ended outcomes w
    rw [serialized.eq_done_of_notMem absent (known there)
      (controller.isExclusive_program exclusive) ended]
    rfl
  · intro free
    have same := serialized.free free
    have numbers := World.tallies_of_unchecked same
    exact ⟨World.tree_of_unchecked same, congrArg Tallies.applies numbers,
      congrArg Tallies.rollbacks numbers, congrArg Tallies.failures numbers,
      World.metrics_of_unchecked same⟩
  · intro i j task task' call call' next next' there exclusive there' exclusive' calling calling'
    have first := serialized.holder_of_calling (known there)
      (controller.isExclusive_program exclusive) calling
    have second := serialized.holder_of_calling (known there')
      (controller.isExclusive_program exclusive') calling'
    exact Option.some.inj (first.symm.trans second)

/-- Two rules are removed at the same time, beside a check that is no part of a change, and nginx
answers none of them. The second removal takes the lock first. -/
theorem serialized_removals :
    let controller : Controller := ⟨{ activeDir := ⟨"/a"⟩ }⟩
    let world : World :=
      { tree := { entries := [(["a"], .directory), (["a", "web.conf"], .file .empty),
          (["a", "api.conf"], .file .empty)] } }
    let tasks : List Task := [.remove "web", .remove "api", .gate]
    let history : List Turn := [.step 1, .step 0, .step 2] ++ List.replicate 5 (.step 1) ++
      [.reply 1 .timedOut, .reply 2 .timedOut] ++ List.replicate 10 (.step 1) ++
      List.replicate 6 (.step 0) ++ [.step 2, .reply 0 .timedOut] ++ List.replicate 10 (.step 0)
    let start := controller.start world tasks
    let serial := serially (tasks.map (Task.program controller))
      (fun i => start.received i history) [1, 0] world
    start.lockOrder history = [1, 0] ∧ (start.takeAll history).world.tree = serial.tree ∧
      (start.takeAll history).world.tallies.failures = serial.tallies.failures := by
  intro controller world tasks history start serial
  have order : start.lockOrder history = [1, 0] := by decide +kernel
  have free : (start.takeAll history).holder = none := by decide +kernel
  have listless : ∀ task ∈ tasks, task ≠ .list := by decide
  have whole : ∀ turn ∈ history, turn.drops = false := by decide +kernel
  obtain ⟨tree, _, _, failures, _⟩ := (controller.serialized world listless whole).2.2.2.1 free
  refine ⟨order, ?_, ?_⟩
  · rw [tree, order]
  · rw [failures, order]

end Controller

end ProxyKeeper
