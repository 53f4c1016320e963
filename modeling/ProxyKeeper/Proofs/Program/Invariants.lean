import ProxyKeeper.Proofs.Program.Terms

/-!
# Invariants of programs

A program keeps an invariant of the states of some terms when every request of it does. Whatever it
ends with, so does whatever comes after it.

## Main Definitions

* `Program.Sustains` — a program keeps to terms, and keeps an invariant

## Main Results

* `Program.Sustains.bind`, `Operation.sustains_bind` — programs in parts
* `Program.Asks.sustains` — requests of a kind, one by one
-/

namespace ProxyKeeper

variable {α β σ : Type} {terms : Terms σ} {I : σ → Prop}

namespace Program

/-- Whether a program asks only for what is allowed, and keeps an invariant, however it is
answered. -/
def Sustains (terms : Terms σ) (I : σ → Prop) (p : Program α) : Prop :=
  ∀ s, I s → p.Meets terms (fun _ s => I s) s

theorem sustains_done (a : α) : (done a).Sustains terms I :=
  fun _ holds => holds

theorem Sustains.bind {p : Program α} {f : α → Program β} (first : p.Sustains terms I)
    (second : ∀ a, (f a).Sustains terms I) : (p >>= f).Sustains terms I :=
  fun s holds => Meets.bind (first s holds) fun a s holds => second a s holds

/-- A program whose requests, one by one, keep the invariant keeps it. -/
theorem Asks.sustains {kind : Request → Prop} {p : Program α} (asks : p.Asks kind)
    (each : ∀ r, kind r → (request r).Sustains terms I) : p.Sustains terms I := by
  induction p with
  | done a => exact sustains_done a
  | ask r next ih =>
    exact Sustains.bind (each r asks.1) fun answer => ih answer (asks.2 answer)

end Program

namespace Operation

variable {operation : Operation α} {f : α → Operation β}

theorem sustains_bind (first : operation.run.Sustains terms I)
    (second : ∀ a, (f a).run.Sustains terms I) : (operation >>= f).run.Sustains terms I := by
  rw [ExceptT.run_bind]
  refine Program.Sustains.bind first fun result => ?_
  cases result with
  | ok a => exact second a
  | error e => exact Program.sustains_done _

/-- An operation that keeps an invariant does so whether it fails or not. -/
theorem sustains_iff_meets : operation.run.Sustains terms I ↔
    ∀ s, I s → operation.Meets terms (fun _ s => I s) (fun _ s => I s) s := by
  refine forall₂_congr fun s _ => ?_
  constructor
  · intro h
    refine Program.Meets.mono h fun result s holds => ?_
    cases result <;> exact holds
  · intro h
    refine Program.Meets.mono h fun result s promised => ?_
    cases result <;> exact promised

theorem sustains_pure (a : α) : (pure a : Operation α).run.Sustains terms I :=
  Program.sustains_done _

theorem sustains_throw (e : OperationError) : (throw e : Operation α).run.Sustains terms I :=
  Program.sustains_done _

theorem sustains_lift {p : Program α} (h : p.Sustains terms I) :
    (ExceptT.lift p : Operation α).run.Sustains terms I := by
  rw [ExceptT.run_lift, ← bind_pure_comp]
  exact h.bind fun _ => Program.sustains_done _

theorem sustains_outcome (h : operation.run.Sustains terms I) :
    (outcome operation).run.Sustains terms I :=
  sustains_lift h

/-- What goes on with a value is what there is to it. -/
theorem sustains_ok_bind {a : α} (h : (f a).run.Sustains terms I) :
    (ofExcept (.ok a) >>= f).run.Sustains terms I :=
  h

theorem sustains_ofExcept (result : Except OperationError α) :
    (ofExcept result).run.Sustains terms I :=
  Program.sustains_done _

end Operation

end ProxyKeeper
