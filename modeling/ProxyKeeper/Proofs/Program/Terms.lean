import Mathlib.Tactic.Common
import ProxyKeeper.Program

/-!
# Programs on terms

What can be said of a program without running it: in a world that keeps to some terms, the program
asks only for what the terms allow, and whatever it ends with is as promised. Terms are an abstract
world. Its states can be as coarse as the stage an operation has reached, or as fine as the files
there are, and each request may have several answers.

## Main Definitions

* `Terms` — what may be asked, and how it may be answered
* `Program.Meets` — a program keeps to its side of the terms, with a promise for its end
* `Operation.Meets` — the same with one promise for success and one for failure
* `Program.Ends` — what a program may come to, and `Program.Reaches` what may be left of it
* `Program.Asks` — a program that asks only for requests of a kind

## Main Results

* `Program.meets_bind` — a program in two parts, and `Operation.meets_bind`
* `Program.Meets.of_ends` — runs end as promised
* `Program.Asks.meets` — requests of a harmless kind leave the state as it is
-/

namespace ProxyKeeper

/-- What may be asked in a state, and how it may be answered. -/
structure Terms (σ : Type) where
  allows : Request → σ → Prop
  answers : (request : Request) → σ → request.Answer → σ → Prop

variable {α β σ : Type} {terms : Terms σ}

namespace Program

/-- Whether a program asks only for what is allowed, however it is answered, and ends as
promised. -/
def Meets (terms : Terms σ) (promise : α → σ → Prop) : Program α → σ → Prop
  | done a, s => promise a s
  | ask request next, s =>
    terms.allows request s ∧
      ∀ answer s', terms.answers request s answer s' → (next answer).Meets terms promise s'

theorem meets_pure {promise : α → σ → Prop} {a : α} {s : σ} :
    (pure a : Program α).Meets terms promise s ↔ promise a s :=
  Iff.rfl

theorem meets_ask {promise : α → σ → Prop} {r : Request} {next : r.Answer → Program α} {s : σ} :
    (ask r next).Meets terms promise s ↔
      terms.allows r s ∧
        ∀ answer s', terms.answers r s answer s' → (next answer).Meets terms promise s' :=
  Iff.rfl

theorem meets_request {r : Request} {promise : r.Answer → σ → Prop} {s : σ} :
    (request r).Meets terms promise s ↔
      terms.allows r s ∧ ∀ answer s', terms.answers r s answer s' → promise answer s' :=
  Iff.rfl

/-- A weaker promise is kept too. -/
theorem Meets.mono {promise weaker : α → σ → Prop} {p : Program α} {s : σ}
    (h : p.Meets terms promise s) (weakens : ∀ a s, promise a s → weaker a s) :
    p.Meets terms weaker s := by
  induction p generalizing s with
  | done a => exact weakens a s h
  | ask r next ih =>
    refine ⟨h.1, ?_⟩
    intro answer s' answered
    exact ih answer (h.2 answer s' answered)

/-- A program in two parts meets what its first part does when that promises the second. -/
theorem meets_bind {p : Program α} {f : α → Program β} {promise : β → σ → Prop} {s : σ} :
    (p >>= f).Meets terms promise s ↔ p.Meets terms (fun a s => (f a).Meets terms promise s) s := by
  show (p.bind f).Meets terms promise s ↔ _
  induction p generalizing s with
  | done a => rfl
  | ask r next ih => simp only [bind, meets_ask, ih]

/-- The second part goes on from what the first one promises. -/
theorem Meets.bind {reached : α → σ → Prop} {promise : β → σ → Prop} {p : Program α}
    {f : α → Program β} {s : σ} (h : p.Meets terms reached s)
    (rest : ∀ a s, reached a s → (f a).Meets terms promise s) :
    (p >>= f).Meets terms promise s :=
  meets_bind.2 (h.mono rest)

/-! ## Runs -/

/-- What a program may come to, and the state it leaves, in a world that keeps to the terms. -/
inductive Ends (terms : Terms σ) : Program α → σ → α → σ → Prop where
  | done (a : α) (s : σ) : Ends terms (done a) s a s
  | ask {request : Request} {next : request.Answer → Program α} {s s' t : σ}
    {answer : request.Answer} {a : α} (answered : terms.answers request s answer s')
    (rest : Ends terms (next answer) s' a t) : Ends terms (ask request next) s a t

/-- What a program comes to is as promised. -/
theorem Meets.of_ends {promise : α → σ → Prop} {p : Program α} {s t : σ} {a : α}
    (h : p.Meets terms promise s) (ends : p.Ends terms s a t) : promise a t := by
  induction ends with
  | done a s => exact h
  | ask answered rest ih => exact ih (h.2 _ _ answered)

/-- What may be left of a program, and the state, after some of its requests were answered. -/
inductive Reaches (terms : Terms σ) (p : Program α) (s : σ) : Program α → σ → Prop where
  | refl : Reaches terms p s p s
  | ask {request : Request} {next : request.Answer → Program α} {t t' : σ}
    {answer : request.Answer} (reached : Reaches terms p s (ask request next) t)
    (answered : terms.answers request t answer t') : Reaches terms p s (next answer) t'

/-- What is left of a program keeps to its side of all terms with these answers. -/
theorem Meets.of_reaches {terms' : Terms σ} {promise : α → σ → Prop} {p q : Program α} {s t : σ}
    (h : p.Meets terms' promise s) (reached : p.Reaches terms s q t)
    (answers : ∀ request s answer s', terms.answers request s answer s' →
      terms'.answers request s answer s') : q.Meets terms' promise t := by
  induction reached with
  | refl => exact h
  | ask _ answered ih => exact ih.2 _ _ (answers _ _ _ _ answered)

/-- What a program comes to in a world that keeps to terms with one state is as promised. -/
theorem Meets.of_run {τ : Type} {terms : Terms Unit} {promise : α → Unit → Prop} {p : Program α}
    (h : p.Meets terms promise ()) (answer : (request : Request) → τ → request.Answer × τ)
    (keeps : ∀ request world, terms.answers request () (answer request world).1 ()) (world : τ) :
    promise (p.run answer world).1 () := by
  induction p generalizing world with
  | done a => exact h
  | ask request next ih => exact ih _ (h.2 _ () (keeps request world)) _

/-- Runs a program in a world that may have no answer. -/
def follow? {τ : Type} (answer? : (request : Request) → τ → Option (request.Answer × τ)) :
    Program α → τ → Option (α × τ)
  | done a, world => some (a, world)
  | ask request next, world =>
    (answer? request world).bind fun (given, world) => (next given).follow? answer? world

/-- A run in a world whose answers keep to the terms is one of these runs. -/
theorem ends_of_follow? {τ : Type} (view : τ → σ)
    {answer? : (request : Request) → τ → Option (request.Answer × τ)}
    (keeps : ∀ request world given world', answer? request world = some (given, world') →
      terms.answers request (view world) given (view world'))
    {p : Program α} {world world' : τ} {a : α}
    (h : p.follow? answer? world = some (a, world')) :
    p.Ends terms (view world) a (view world') := by
  induction p generalizing world with
  | done a =>
    cases h
    exact .done _ _
  | ask request next ih =>
    obtain ⟨⟨given, world₁⟩, answered, rest⟩ := Option.bind_eq_some_iff.1 h
    exact .ask (keeps _ _ _ _ answered) (ih given rest)

/-! ## Requests of a kind -/

/-- Whether a program asks only for requests of a kind, however it is answered. -/
def Asks (kind : Request → Prop) : Program α → Prop
  | done _ => True
  | ask request next => kind request ∧ ∀ answer, (next answer).Asks kind

theorem Asks.bind {kind : Request → Prop} {p : Program α} {f : α → Program β} (hp : p.Asks kind)
    (hf : ∀ a, (f a).Asks kind) : (p >>= f).Asks kind := by
  show (p.bind f).Asks kind
  induction p with
  | done a => exact hf a
  | ask r next ih => exact ⟨hp.1, fun answer => ih answer (hp.2 answer)⟩

/-- The same for parts that may fail. -/
theorem Asks.bind_except {ε : Type} {kind : Request → Prop} {x : ExceptT ε Program α}
    {f : α → ExceptT ε Program β} (hx : x.run.Asks kind) (hf : ∀ a, (f a).run.Asks kind) :
    (x >>= f).run.Asks kind := by
  rw [ExceptT.run_bind]
  refine hx.bind fun result => ?_
  cases result with
  | ok a => exact hf a
  | error e => trivial

theorem Asks.mono {kind wider : Request → Prop} {p : Program α} (h : p.Asks kind)
    (widens : ∀ r, kind r → wider r) : p.Asks wider := by
  induction p with
  | done a => trivial
  | ask r next ih => exact ⟨widens r h.1, fun answer => ih answer (h.2 answer)⟩

/-- Requests of a kind that is allowed and changes nothing leave the state as it is. -/
theorem Asks.meets {kind : Request → Prop} {p : Program α} (h : p.Asks kind) {s : σ}
    (allowed : ∀ r, kind r → terms.allows r s)
    (kept : ∀ r answer s', kind r → terms.answers r s answer s' → s' = s) :
    p.Meets terms (fun _ s' => s' = s) s := by
  induction p with
  | done a => rfl
  | ask r next ih =>
    refine ⟨allowed r h.1, ?_⟩
    intro answer s' answered
    rw [kept r answer s' h.1 answered]
    exact ih answer (h.2 answer)

end Program

namespace Operation

/-- Whether an operation keeps to the terms, with one promise for a value and one for a failure. -/
def Meets (terms : Terms σ) (returns : α → σ → Prop) (fails : OperationError → σ → Prop)
    (operation : Operation α) (s : σ) : Prop :=
  operation.run.Meets terms (fun result s =>
    match result with
    | .ok a => returns a s
    | .error e => fails e s) s

variable {returns : α → σ → Prop} {fails : OperationError → σ → Prop} {s : σ}

theorem meets_pure {a : α} : (pure a : Operation α).Meets terms returns fails s ↔ returns a s :=
  Iff.rfl

theorem meets_throw {e : OperationError} :
    (throw e : Operation α).Meets terms returns fails s ↔ fails e s :=
  Iff.rfl

theorem meets_ok {a : α} :
    (ofExcept (.ok a) : Operation α).Meets terms returns fails s ↔ returns a s :=
  Iff.rfl

theorem meets_error {e : OperationError} :
    (ofExcept (.error e) : Operation α).Meets terms returns fails s ↔ fails e s :=
  Iff.rfl

/-- An operation in two parts; a failure of the first is one of the whole. -/
theorem meets_bind {operation : Operation α} {f : α → Operation β} {returns : β → σ → Prop} :
    (operation >>= f).Meets terms returns fails s ↔
      operation.Meets terms (fun a s => (f a).Meets terms returns fails s) fails s := by
  rw [Meets, ExceptT.run_bind, Program.meets_bind, Meets]
  constructor
  all_goals
    intro h
    refine h.mono fun result s' promised => ?_
    cases result with
    | ok a => exact promised
    | error e => exact promised

theorem meets_lift {p : Program α} :
    Meets terms returns fails (ExceptT.lift p) s ↔ p.Meets terms returns s := by
  rw [Meets, ExceptT.run_lift, ← bind_pure_comp, Program.meets_bind]
  rfl

theorem meets_request {r : Request} {returns : r.Answer → σ → Prop} :
    (request r).Meets terms returns fails s ↔
      terms.allows r s ∧ ∀ answer s', terms.answers r s answer s' → returns answer s' :=
  Iff.rfl

/-- The outcome of an operation is a value, whether it is one of success or not. -/
theorem meets_outcome {operation : Operation α} {returns : Except OperationError α → σ → Prop} :
    (outcome operation).Meets terms returns fails s ↔
      operation.Meets terms (fun a s => returns (.ok a) s) (fun e s => returns (.error e) s) s := by
  rw [outcome, meets_lift, Meets]
  constructor
  all_goals
    intro h
    refine h.mono fun result s' promised => ?_
    cases result with
    | ok a => exact promised
    | error e => exact promised

theorem Meets.mono {weaker : α → σ → Prop} {worse : OperationError → σ → Prop}
    {operation : Operation α} (h : operation.Meets terms returns fails s)
    (weakens : ∀ a s, returns a s → weaker a s) (worsens : ∀ e s, fails e s → worse e s) :
    operation.Meets terms weaker worse s := by
  refine Program.Meets.mono h fun result s' promised => ?_
  cases result with
  | ok a => exact weakens a s' promised
  | error e => exact worsens e s' promised

/-- The second part goes on from what the first one promises, when its failures are expected. -/
theorem Meets.bind {operation : Operation α} {f : α → Operation β} {returns' : β → σ → Prop}
    (h : operation.Meets terms returns fails s)
    (rest : ∀ a s, returns a s → (f a).Meets terms returns' fails s) :
    (operation >>= f).Meets terms returns' fails s :=
  meets_bind.2 (h.mono rest fun _ _ failed => failed)

end Operation

end ProxyKeeper
