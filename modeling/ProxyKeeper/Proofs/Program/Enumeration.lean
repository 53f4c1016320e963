import ProxyKeeper.Proofs.Program.Endings
import ProxyKeeper.Proofs.Store.Requests

/-!
# Programs in worlds that list directories in any order

Nothing says in which order a directory is enumerated, and it may be another one each time. So a
world is made loose: it answers as before, but where it lists names it may list them in any order.
A program ignores the order when what is left of it after an answer does not depend on it. All its
runs in the loose world are then the one run it has in the world itself.

That is a condition on one request after the other, and it asks for equal programs, so a program
that sorts what it was told has to do so before it asks again. What is listed to be worked on entry
by entry does not satisfy it, and has to be followed by hand.

## Main Definitions

* `Request.IsSingle` — requests that list nothing
* `Request.Shuffles` — answers that differ in the order of names at most
* `Program.inAnyOrder` — the terms of a world that lists names in any order
* `Program.IgnoresOrder` — programs that go on in the same way

## Main Results

* `Program.IgnoresOrder.bind`, `Operation.ignoresOrder_bind` — programs in parts
* `Program.Asks.ignoresOrder` — programs that list nothing
* `Program.ends_run` — the order that the world itself keeps is one of them
* `Program.IgnoresOrder.ends_iff` — the only run there is
-/

namespace ProxyKeeper

/-- Requests that enumerate no directory. -/
def Request.IsSingle : Request → Prop
  | .file call => call.lists = false
  | _ => True

/-- Whether two answers to a request are the same, but for the order of names in a directory. -/
inductive Request.Shuffles : (request : Request) → request.Answer → request.Answer → Prop where
  | refl (request : Request) (answer : request.Answer) : Shuffles request answer answer
  | names {path : Path} {names names' : List String} (perm : names.Perm names') :
    Shuffles (.file (.list path)) (.ok names : Except IoFault (List String))
      (.ok names' : Except IoFault (List String))

namespace Request.Shuffles

/-- Other requests have one answer. -/
theorem eq_of_isSingle {request : Request} {answer answer' : request.Answer}
    (shuffles : request.Shuffles answer answer') (single : request.IsSingle) :
    answer = answer' := by
  cases shuffles with
  | refl => rfl
  | names perm => cases single

/-- Directories that are listed are listed with the same names. -/
theorem list_ok {path : Path} {names : List String} {answer : (FileCall.list path).Answer}
    (shuffles : (Request.file (.list path)).Shuffles
      (.ok names : Except IoFault (List String)) answer) :
    ∃ names' : List String, answer = .ok names' ∧ names.Perm names' := by
  cases shuffles with
  | refl => exact ⟨names, rfl, .refl names⟩
  | names perm => exact ⟨_, rfl, perm⟩

/-- Directories that cannot be listed are not listed in any order. -/
theorem list_error {path : Path} {fault : IoFault} {answer : (FileCall.list path).Answer}
    (shuffles : (Request.file (.list path)).Shuffles
      (.error fault : Except IoFault (List String)) answer) : answer = .error fault := by
  cases shuffles with
  | refl => rfl

end Request.Shuffles

variable {α β σ : Type}

namespace Program

/-- The terms of a world that answers, but lists the names in a directory in any order. -/
def inAnyOrder (answer : (request : Request) → σ → request.Answer × σ) : Terms σ where
  allows _ _ := True
  answers request s given t :=
    (answer request s).2 = t ∧ request.Shuffles (answer request s).1 given

/-- Whether a program goes on in the same way in whatever order names are listed. -/
def IgnoresOrder : Program α → Prop
  | done _ => True
  | ask request next =>
    (∀ answer answer', request.Shuffles answer answer' → next answer = next answer') ∧
      ∀ answer, (next answer).IgnoresOrder

theorem IgnoresOrder.bind {p : Program α} {f : α → Program β} (first : p.IgnoresOrder)
    (second : ∀ a, (f a).IgnoresOrder) : (p >>= f).IgnoresOrder := by
  show (p.bind f).IgnoresOrder
  induction p with
  | done a => exact second a
  | ask request next ih =>
    refine ⟨fun answer answer' shuffles => ?_, fun answer => ih answer (first.2 answer)⟩
    exact congrArg (fun p : Program α => p.bind f) (first.1 answer answer' shuffles)

/-- A program that lists nothing ignores the order. -/
theorem Asks.ignoresOrder {p : Program α} (asks : p.Asks Request.IsSingle) :
    p.IgnoresOrder := by
  induction p with
  | done a => trivial
  | ask request next ih =>
    refine ⟨fun answer answer' shuffles => ?_, fun answer => ih answer (asks.2 answer)⟩
    rw [shuffles.eq_of_isSingle asks.1]

theorem ignoresOrder_request {request : Request} (single : request.IsSingle) :
    (Program.request request).IgnoresOrder :=
  Asks.ignoresOrder ⟨single, fun _ => trivial⟩

/-- The order that a world keeps is one of those in which it may list names. -/
theorem ends_run (answer : (request : Request) → σ → request.Answer × σ) (p : Program α) (s : σ) :
    p.Ends (inAnyOrder answer) s (p.run answer s).1 (p.run answer s).2 := by
  induction p generalizing s with
  | done a => exact .done a s
  | ask request next ih => exact .ask ⟨rfl, .refl _ _⟩ (ih _ _)

/-- A program that ignores the order ends in one way: as it does in the world that keeps one. -/
theorem IgnoresOrder.ends_iff {answer : (request : Request) → σ → request.Answer × σ}
    {p : Program α} (ignores : p.IgnoresOrder) {s t : σ} {a : α} :
    p.Ends (inAnyOrder answer) s a t ↔ p.run answer s = (a, t) := by
  constructor
  · intro ends
    induction ends with
    | done a s => rfl
    | ask answered rest ih =>
      obtain ⟨rfl, shuffles⟩ := answered
      refine Eq.trans ?_ (ih (ignores.2 _))
      rw [← ignores.1 _ _ shuffles]
      rfl
  · intro comes
    have ends := ends_run answer p s
    rw [comes] at ends
    exact ends

end Program

namespace Operation

open Program

variable {operation : Operation α} {f : α → Operation β}

theorem ignoresOrder_bind (first : operation.run.IgnoresOrder)
    (second : ∀ a, (f a).run.IgnoresOrder) : (operation >>= f).run.IgnoresOrder := by
  rw [ExceptT.run_bind]
  refine IgnoresOrder.bind first fun result => ?_
  cases result with
  | ok a => exact second a
  | error e => trivial

theorem ignoresOrder_lift {p : Program α} (h : p.IgnoresOrder) :
    (ExceptT.lift p : Operation α).run.IgnoresOrder := by
  rw [ExceptT.run_lift, ← bind_pure_comp]
  exact h.bind fun _ => trivial

theorem ignoresOrder_request {request : Request} (single : request.IsSingle) :
    (Operation.request request).run.IgnoresOrder :=
  ignoresOrder_lift (Program.ignoresOrder_request single)

end Operation

end ProxyKeeper
