import ProxyKeeper.Proofs.Program.Terms
import ProxyKeeper.World

/-!
# Programs against outcomes

A program by itself in a world in memory, with the outcomes it is to meet laid down beforehand: what
nginx replies to each of its calls, and which of its calls of the file system fail. Nothing that it
asks for depends on the counts of checks, so runs in worlds that differ in these counts only go the
same way.

## Main Definitions

* `Outcomes` — what a program meets
* `World.meet`, `Program.against` — answers and runs with outcomes laid down
* `World.unchecked`, `unchecked` — a world, and what comes of a run, without the counts of checks
* `Program.IsHeld`, `Program.IsExclusive` — programs that keep the lock to their end

## Main Results

* `Program.against_congr` — runs do not depend on the counts of checks
* `Program.IsHeld.of_asks` — an end that releases the lock, after a part that does not touch it
-/

namespace ProxyKeeper

/-- What a program meets: the replies to its calls of nginx, and the faults of its calls of the file
system, with none for a call that is carried out. -/
structure Outcomes where
  replies : List Nginx.Reply := []
  faults : List (Option IoFault) := []

namespace Outcomes

instance : Append Outcomes where
  append front back := ⟨front.replies ++ back.replies, front.faults ++ back.faults⟩

theorem append_assoc (a b c : Outcomes) : a ++ b ++ c = a ++ (b ++ c) :=
  congrArg₂ Outcomes.mk (List.append_assoc ..) (List.append_assoc ..)

theorem append_nil (a : Outcomes) : a ++ {} = a :=
  congrArg₂ Outcomes.mk (List.append_nil _) (List.append_nil _)

theorem nil_append (a : Outcomes) : {} ++ a = a :=
  rfl

end Outcomes

namespace World

/-- What a request is answered with when outcomes are laid down, with those that are left and the
world after it. -/
def meet (request : Request) : Outcomes × World → request.Answer × (Outcomes × World)
  | (outcomes, world) =>
    match request with
    | .file call =>
      let left := { outcomes with faults := outcomes.faults.tail }
      match outcomes.faults.head?.join with
      | some fault => (.error fault, left, world)
      | none =>
        let (given, tree) := world.tree.perform call
        (given, left, { world with tree := tree })
    | .nginx _ =>
      (outcomes.replies.headD (.notStarted ""),
        { outcomes with replies := outcomes.replies.tail }, world)
    | request =>
      let (given, world) := world.answer withoutNginx request
      (given, outcomes, world)

end World

/-- Whether a check is counted. -/
def Event.isCheck : Event → Bool
  | .test => true
  | .testFailure => true
  | _ => false

/-- A world without the counts of checks. -/
def World.unchecked (world : World) : World :=
  { world with metrics := world.metrics.filter (!·.isCheck) }

namespace World

variable {world world' : World}

theorem tree_of_unchecked (same : world.unchecked = world'.unchecked) :
    world.tree = world'.tree := by
  have trees := congrArg World.tree same
  exact trees

theorem tallies_of_unchecked (same : world.unchecked = world'.unchecked) :
    world.tallies = world'.tallies := by
  have tallies := congrArg World.tallies same
  exact tallies

theorem metrics_of_unchecked (same : world.unchecked = world'.unchecked) :
    world.metrics.filter (!·.isCheck) = world'.metrics.filter (!·.isCheck) := by
  have metrics := congrArg World.metrics same
  exact metrics

/-- Answers do not depend on the counts of checks. -/
theorem meet_congr (request : Request) (outcomes : Outcomes)
    (same : world.unchecked = world'.unchecked) :
    (meet request (outcomes, world)).1 = (meet request (outcomes, world')).1 ∧
      (meet request (outcomes, world)).2.1 = (meet request (outcomes, world')).2.1 ∧
      (meet request (outcomes, world)).2.2.unchecked =
        (meet request (outcomes, world')).2.2.unchecked := by
  obtain ⟨tree, freshNames, phase, metrics, tallies⟩ := world
  obtain ⟨tree', freshNames', phase', metrics', tallies'⟩ := world'
  simp only [unchecked, World.mk.injEq] at same
  obtain ⟨rfl, rfl, rfl, same, rfl⟩ := same
  cases request with
  | file call =>
    simp only [meet]
    split <;> exact ⟨rfl, rfl, by simp [unchecked, same]⟩
  | _ => exact ⟨rfl, rfl, by simp [meet, answer, unchecked, same]⟩

end World

namespace Program

variable {α β : Type}

/-- Runs a program by itself against outcomes. -/
def against (outcomes : Outcomes) (program : Program α) (world : World) : α × World :=
  let (a, _, world) := program.run World.meet (outcomes, world)
  (a, world)

theorem against_done (outcomes : Outcomes) (a : α) (world : World) :
    (done a).against outcomes world = (a, world) :=
  rfl

theorem against_ask {outcomes left : Outcomes} {request : Request}
    {next : request.Answer → Program α} {given : request.Answer} {world world' : World}
    (answered : World.meet request (outcomes, world) = (given, left, world')) :
    (ask request next).against outcomes world = (next given).against left world' := by
  rw [against, run, answered]
  rfl

/-- What comes of a run, without the counts of checks. -/
def unchecked (result : α × World) : α × World :=
  (result.1, result.2.unchecked)

/-- Runs do not depend on the counts of checks. -/
theorem against_congr (p : Program α) (outcomes : Outcomes) {world world' : World}
    (same : world.unchecked = world'.unchecked) :
    unchecked (p.against outcomes world) = unchecked (p.against outcomes world') := by
  induction p generalizing outcomes world world' with
  | done a => rw [against_done, against_done, unchecked, unchecked, same]
  | ask request next ih =>
    have alike := World.meet_congr request outcomes same
    rcases met : World.meet request (outcomes, world) with ⟨given, left, after⟩
    rcases met' : World.meet request (outcomes, world') with ⟨given', left', after'⟩
    rw [met, met'] at alike
    obtain ⟨rfl, rfl, alike⟩ := alike
    rw [against_ask met, against_ask met']
    exact ih _ _ alike

/-! ## The lock -/

/-- Requests that leave the lock alone. -/
def Inner (r : Request) : Prop :=
  r ≠ .acquire ∧ r ≠ .release

/-- A program that has the lock and releases it with its last request. -/
inductive IsHeld : Program α → Prop where
  | releases (a : α) : IsHeld (ask .release fun _ => done a)
  | asks {request : Request} {next : request.Answer → Program α} (inner : Inner request)
    (held : ∀ answer, IsHeld (next answer)) : IsHeld (ask request next)

/-- A program that does nothing without the lock. -/
def IsExclusive (p : Program α) : Prop :=
  (∃ a, p = done a) ∨ ∃ next : Unit → Program α, p = ask .acquire next ∧ (next ()).IsHeld

/-- A part that does not touch the lock goes before. -/
theorem IsHeld.of_asks {p : Program α} {f : α → Program β} (h : p.Asks Inner)
    (held : ∀ a, (f a).IsHeld) : (p >>= f).IsHeld := by
  show (p.bind f).IsHeld
  induction p with
  | done a => exact held a
  | ask request next ih => exact .asks h.1 fun answer => ih answer (h.2 answer)

/-- The result may be put into another form. -/
theorem IsHeld.bind {p : Program α} {f : α → Program β} (h : p.IsHeld)
    (ends : ∀ a, ∃ b, f a = done b) : (p >>= f).IsHeld := by
  show (p.bind f).IsHeld
  induction h with
  | releases a =>
    obtain ⟨b, is⟩ := ends a
    rw [Program.bind, Program.bind, is]
    exact .releases b
  | asks inner _ ih => exact .asks inner ih

theorem IsExclusive.bind {p : Program α} {f : α → Program β} (h : p.IsExclusive)
    (ends : ∀ a, ∃ b, f a = done b) : (p >>= f).IsExclusive := by
  obtain ⟨a, rfl⟩ | ⟨next, rfl, held⟩ := h
  · exact .inl (ends a)
  · exact .inr ⟨_, rfl, held.bind ends⟩

/-- A program with the lock does not end at once, and goes on with it. -/
theorem IsHeld.next {request : Request} {next : request.Answer → Program α}
    (h : (ask request next).IsHeld) (inner : Inner request) (answer : request.Answer) :
    (next answer).IsHeld := by
  cases h with
  | releases a => exact absurd rfl inner.2
  | asks _ held => exact held answer

end Program

end ProxyKeeper
