import ProxyKeeper.Files.Call
import ProxyKeeper.Metrics
import ProxyKeeper.Nginx.Call
import ProxyKeeper.Phase

/-!
# Programs

What the service does is a program: it asks the world around it for one thing after another and
goes on with the answers. A program does not say how the world answers, so the same program runs
on real files, on a tree in memory, and among others that take turns with it.

## Main Definitions

* `Request`, `Request.Answer`: what a program asks for.
* `Program`: the programs, a monad.
* `Program.run`: a program by itself, in a world that answers.
* `Operation`: a program that may fail.

## Main Results

* `LawfulMonad Program`.
* `Program.run_bind`: a program that is cut in two runs one part after the other.
-/

namespace ProxyKeeper

/-- What a program asks for. -/
inductive Request where
  | file (call : FileCall)
  | nginx (call : Nginx.Call)
  /-- A name for a file that no file bears. -/
  | freshName
  /-- To be the only one that changes files, from now on. -/
  | acquire
  /-- To let others change files. -/
  | release
  /-- To tell what is being done. -/
  | publish (phase : Phase)
  /-- To count an event, and one of the controller's own numbers up with it, if there is one. -/
  | count (event : Event) (tally : Option Tally)
deriving DecidableEq

/-- What a request is answered with. -/
def Request.Answer : Request → Type
  | .file call => call.Answer
  | .nginx _ => Nginx.Reply
  | .freshName => String
  | .acquire => Unit
  | .release => Unit
  | .publish _ => Unit
  | .count _ _ => Unit

/-- A sequence of requests, each depending on the answers to those before it. -/
inductive Program (α : Type) where
  | done (a : α)
  | ask (request : Request) (next : request.Answer → Program α)

namespace Program

variable {α β γ σ : Type}

/-- A program followed by another that depends on its result. -/
def bind : Program α → (α → Program β) → Program β
  | done a, f => f a
  | ask request next, f => ask request fun answer => (next answer).bind f

instance : Monad Program where
  pure := done
  bind := bind

theorem bind_done (p : Program α) : p.bind done = p := by
  induction p with
  | done a => rfl
  | ask request next ih => simp only [bind, ih]

theorem bind_assoc (p : Program α) (f : α → Program β) (g : β → Program γ) :
    (p.bind f).bind g = p.bind fun a => (f a).bind g := by
  induction p with
  | done a => rfl
  | ask request next ih => simp only [bind, ih]

instance : LawfulMonad Program :=
  LawfulMonad.mk' Program
    (fun p => bind_done p)
    (fun _ _ => rfl)
    (fun p f g => bind_assoc p f g)

/-- The program of a single request. -/
def request (request : Request) : Program request.Answer :=
  ask request done

/-- Runs a program in a world that answers its requests one by one. -/
def run (answer : (request : Request) → σ → request.Answer × σ) : Program α → σ → α × σ
  | done a, world => (a, world)
  | ask request next, world =>
    let (given, world) := answer request world
    (next given).run answer world

theorem run_bind (answer : (request : Request) → σ → request.Answer × σ) (p : Program α)
    (f : α → Program β) (world : σ) :
    (p.bind f).run answer world =
      (f (p.run answer world).1).run answer (p.run answer world).2 := by
  induction p generalizing world with
  | done a => rfl
  | ask request next ih => simp only [bind, run, ih]

end Program

/-- A program that ends in a value or fails. -/
abbrev Operation (α : Type) := ExceptT OperationError Program α

namespace Operation

variable {α : Type}

/-- The operation of a single request. -/
def request (request : Request) : Operation request.Answer :=
  ExceptT.lift (Program.request request)

/-- A call of the file system, as it is answered. -/
def attempt (call : FileCall) : Operation call.Answer :=
  request (.file call)

/-- A value, or a failure found without asking. -/
def ofExcept (result : Except OperationError α) : Operation α :=
  ExceptT.mk (.done result)

/-- A call of the file system whose faults are failures at a path. -/
def file (path : Path) (call : FileCall) : Operation call.Result := do
  match ← attempt call with
  | .ok result => return result
  | .error fault => throw (.io path.text fault)

/-- Goes on with the result of an operation, whether it has failed or not. -/
def outcome (operation : Operation α) : Operation (Except OperationError α) :=
  ExceptT.lift operation.run

end Operation

end ProxyKeeper
