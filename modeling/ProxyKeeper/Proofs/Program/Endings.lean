import ProxyKeeper.Proofs.Program.Terms
import ProxyKeeper.World

/-!
# Ends of programs in parts

A run of a program in parts is a run of one part after the other, and a run that succeeds is one in
which every part succeeds. So a success can be followed back to the answers that it needed, and, in
a world that gives these answers, forward again.

## Main Definitions

* `Program.Finds` — what a program comes to in a world that it leaves as it is

## Main Results

* `Program.ends_bind`, `Program.ends_bind_ok` — back from the end of a program to those of its parts
* `Program.Ends.view_eq` — what no request of a program changes is as before
* `Program.Finds.bind` — forward from one part to the next
-/

namespace ProxyKeeper

namespace Program

variable {α β ε σ τ : Type} {terms : Terms σ} {s t : σ}

/-! ## Back -/

theorem ends_done {a b : α} : (done a).Ends terms s b t ↔ a = b ∧ s = t := by
  constructor
  · intro ends
    cases ends
    exact ⟨rfl, rfl⟩
  · rintro ⟨rfl, rfl⟩
    exact .done a s

theorem ends_ask {r : Request} {next : r.Answer → Program α} {a : α} :
    (ask r next).Ends terms s a t ↔
      ∃ answer u, terms.answers r s answer u ∧ (next answer).Ends terms u a t := by
  constructor
  · intro ends
    cases ends with
    | ask answered rest => exact ⟨_, _, answered, rest⟩
  · rintro ⟨answer, u, answered, rest⟩
    exact .ask answered rest

/-- A program in two parts ends as its second part does, from where the first one ended. -/
theorem ends_bind {p : Program α} {f : α → Program β} {b : β} :
    (p >>= f).Ends terms s b t ↔ ∃ a u, p.Ends terms s a u ∧ (f a).Ends terms u b t := by
  show (p.bind f).Ends terms s b t ↔ _
  induction p generalizing s with
  | done a => simp only [bind, ends_done, and_assoc, exists_and_left, exists_eq_left']
  | ask r next ih =>
    simp only [bind, ends_ask, ih]
    constructor
    · rintro ⟨answer, u, answered, a, v, first, second⟩
      exact ⟨a, v, ⟨answer, u, answered, first⟩, second⟩
    · rintro ⟨a, v, ⟨answer, u, answered, first⟩, second⟩
      exact ⟨answer, u, answered, a, v, first, second⟩

/-- A program in two parts that may fail succeeds when both parts do. -/
theorem ends_bind_ok {x : ExceptT ε Program α} {f : α → ExceptT ε Program β} {b : β} :
    (x >>= f).run.Ends terms s (.ok b) t ↔
      ∃ a u, x.run.Ends terms s (.ok a) u ∧ (f a).run.Ends terms u (.ok b) t := by
  rw [ExceptT.run_bind, ends_bind]
  constructor
  · rintro ⟨result, u, first, second⟩
    cases result with
    | ok a => exact ⟨a, u, first, second⟩
    | error e => cases (ends_done.1 second).1
  · rintro ⟨a, u, first, second⟩
    exact ⟨.ok a, u, first, second⟩

theorem ends_lift_ok {p : Program α} {a : α} :
    (ExceptT.lift p : ExceptT ε Program α).run.Ends terms s (.ok a) t ↔ p.Ends terms s a t := by
  rw [ExceptT.run_lift, ← bind_pure_comp, ends_bind]
  constructor
  · rintro ⟨b, u, ends, last⟩
    obtain ⟨same, rfl⟩ := ends_done.1 last
    obtain rfl := Except.ok.inj same
    exact ends
  · intro ends
    exact ⟨a, t, ends, .done _ _⟩

theorem ends_mk_ok {result : Except ε α} {a : α} :
    (ExceptT.mk (done result) : ExceptT ε Program α).run.Ends terms s (.ok a) t ↔
      result = .ok a ∧ s = t :=
  ends_done

theorem ends_pure_ok {a b : α} :
    (pure a : ExceptT ε Program α).run.Ends terms s (.ok b) t ↔ a = b ∧ s = t :=
  ends_done.trans (by rw [Except.ok.injEq])

theorem not_ends_throw_ok {e : ε} {a : α} :
    ¬ (throw e : ExceptT ε Program α).run.Ends terms s (.ok a) t :=
  fun ends => nomatch (ends_done.1 ends).1

/-- A program whose failures are told in other terms succeeds as it does by itself. -/
theorem ends_mapError_ok {p : Program (Except ε α)} {δ : Type} {tell : ε → δ} {a : α} :
    (p.bind fun result => done (result.mapError tell)).Ends terms s (.ok a) t ↔
      p.Ends terms s (.ok a) t := by
  refine (ends_bind (p := p) (f := fun result => done (result.mapError tell))).trans ?_
  constructor
  · rintro ⟨result, u, ends, last⟩
    obtain ⟨same, rfl⟩ := ends_done.1 last
    cases result with
    | ok b => cases same; exact ends
    | error e => cases same
  · intro ends
    exact ⟨.ok a, t, ends, .done _ _⟩

/-- What no request of a program changes is at the end as it was before. -/
theorem Ends.view_eq {kind : Request → Prop} {p : Program α} {a : α} (asks : p.Asks kind)
    (ends : p.Ends terms s a t) (view : σ → τ)
    (kept : ∀ r s answer s', kind r → terms.answers r s answer s' → view s' = view s) :
    view t = view s := by
  induction ends with
  | done a s => rfl
  | ask answered rest ih => exact (ih (asks.2 _)).trans (kept _ _ _ _ asks.1 answered)

/-! ## Forward -/

/-- Whether a program that may fail comes to a value in a world, and leaves the world as it is. -/
def Finds (nginx : NginxModel) (world : World) (x : ExceptT ε Program α) (a : α) : Prop :=
  x.run.runIn nginx world = (.ok a, world)

variable {nginx : NginxModel} {world : World}

theorem Finds.bind {x : ExceptT ε Program α} {f : α → ExceptT ε Program β} {a : α} {b : β}
    (first : Finds nginx world x a) (second : Finds nginx world (f a) b) :
    Finds nginx world (x >>= f) b := by
  rw [Finds, runIn] at first second ⊢
  rw [ExceptT.run_bind]
  show (x.run.bind _).run _ world = _
  rw [run_bind, first]
  exact second

theorem finds_pure (a : α) : Finds nginx world (pure a : ExceptT ε Program α) a :=
  rfl

theorem finds_mk {result : Except ε α} {a : α} (h : result = .ok a) :
    Finds nginx world (ExceptT.mk (done result)) a := by
  rw [h]
  rfl

theorem Finds.mapError {x : ExceptT ε Program α} {δ : Type} {tell : ε → δ} {a : α}
    (finds : Finds nginx world x a) :
    Finds nginx world
      (ExceptT.mk (x.run.bind fun result => done (result.mapError tell)) : ExceptT δ Program α)
      a := by
  rw [Finds, runIn] at finds ⊢
  show (x.run.bind _).run _ world = _
  rw [run_bind, finds]
  rfl

/-- The answer to a call that only looks. -/
theorem finds_call {call : FileCall} (looks : (world.tree.perform call).2 = world.tree)
    {answer : call.Answer} (h : (world.tree.perform call).1 = answer) :
    Finds nginx world (ExceptT.lift (request (.file call)) : ExceptT ε Program call.Answer)
      answer := by
  subst h
  show (_, { world with tree := (world.tree.perform call).2 }) = _
  rw [looks]
  rfl

end Program

end ProxyKeeper
