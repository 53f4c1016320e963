import ProxyKeeper.Proofs.Files.Growth
import ProxyKeeper.Proofs.Program.Endings
import ProxyKeeper.Proofs.Store.Site

/-!
# Histories

The world around a program, with everything that has happened in it: the files as they were at every
moment, and what was asked for and answered. A call of the file system is not done at once. It
passes through trees in which it is half done, and where calls may break off, it may leave such a
tree and fail. So whatever holds of all trees of a history holds wherever a crash may cut it short.

What a program does to the files can be said without the history. The terms on trees have a place
for what every call has to respect on its way, and from that follows what holds between any two
moments of a history.

## Main Definitions

* `Tree.Halfway` — what a call may have done when it is broken off
* `Tree.Goes` — what a call passes through, answers and leaves
* `History`, `History.terms` — what has happened, and how it goes on
* `Tree.terms` — the same, told of the tree alone
* `Terms.within` — terms with fewer answers
* `History.act` — one such world, in which every call is carried out

## Main Results

* `History.pairwise_of_reaches` — what holds between any two moments
* `Program.Ends.tree` — a run with its history is a run on trees
* `History.ends_act` — a run in the world that carries out every call
-/

namespace ProxyKeeper

/-! ## Calls on their way -/

/-- What a call may have done when it is broken off: some of the directories that it makes, from the
top down, or a file with any content. Moving and removing are done at once. -/
inductive Tree.Halfway (tree : Tree) : FileCall → Tree → Prop where
  | nothing (call : FileCall) : Halfway tree call tree
  | directories {path : Path} {made : Tree} (first : tree.Grows made)
    (rest : made.Grows (tree.createDirectories path).2)
    (closed : tree.IsClosed → made.IsClosed) : Halfway tree (.createDirectories path) made
  | part {path : Path} {content part : ByteArray} {made : Tree}
    (written : tree.write path part = .ok made) : Halfway tree (.write path content) made

/-- Directories that are half made have been made from the top down. -/
theorem Tree.Halfway.of_createDirectories {tree made : Tree} {path : Path}
    (half : tree.Halfway (.createDirectories path) made) (closed : tree.IsClosed) :
    tree.Grows made ∧ made.Grows (tree.createDirectories path).2 ∧ made.IsClosed := by
  cases half with
  | nothing => exact ⟨.refl tree, tree.grows_createDirectories path, closed⟩
  | directories first rest kept => exact ⟨first, rest, kept closed⟩

/-- Which calls may break off, and what they may leave. -/
abbrev Breaks := Tree → FileCall → Tree → Prop

/-- Calls that do not break off. -/
def Breaks.never : Breaks := fun _ _ _ => False

/-- How a call goes: the trees it passes through, its answer and the tree it leaves. It is carried
out, or breaks off and fails. -/
inductive Tree.Goes (breaks : Breaks) (tree : Tree) (call : FileCall) :
    List Tree → call.Answer → Tree → Prop where
  | done {passed : List Tree} (through : ∀ made ∈ passed, tree.Halfway call made) :
    Goes breaks tree call passed (tree.perform call).1 (tree.perform call).2
  | fails {passed : List Tree} {fault : IoFault} {left : Tree}
    (through : ∀ made ∈ passed, tree.Halfway call made) (stopped : tree.Halfway call left)
    (may : breaks tree call left) : Goes breaks tree call passed (.error fault) left

/-- Calls that do not break off are carried out. -/
theorem Tree.Goes.perform_eq {tree left : Tree} {call : FileCall} {passed : List Tree}
    {answer : call.Answer} (goes : tree.Goes .never call passed answer left) :
    tree.perform call = (answer, left) := by
  cases goes with
  | done => rfl
  | fails _ _ may => exact may.elim

/-- Terms with those answers only that are of a kind. -/
def Terms.within {σ : Type} (terms : Terms σ) (kind : (request : Request) → request.Answer → Prop) :
    Terms σ where
  allows := terms.allows
  answers request s answer s' := terms.answers request s answer s' ∧ kind request answer

/-! ## Histories -/

/-- A request and its answer. -/
structure Exchange where
  request : Request
  answer : request.Answer

/-- What has happened: the trees there were, the tree there is, and what was asked for. -/
structure History where
  past : List Tree := []
  tree : Tree
  exchanges : List Exchange := []

namespace History

/-- The tree at every moment. -/
def trees (history : History) : List Tree :=
  history.past ++ [history.tree]

/-- The history after an answer that changes no file. -/
def told (history : History) (exchange : Exchange) : History :=
  { history with exchanges := history.exchanges ++ [exchange] }

/-- The history after a call. -/
def after (history : History) (exchange : Exchange) (passed : List Tree) (left : Tree) : History :=
  ⟨history.past ++ history.tree :: passed, left, history.exchanges ++ [exchange]⟩

/-- How a history goes on. Everything may be asked, nginx replies as it likes and changes no file,
and fresh names are those of no file. -/
def terms (breaks : Breaks) : Terms History where
  allows _ _ := True
  answers
    | .file call, history, answer, next =>
      ∃ passed left, history.tree.Goes breaks call passed answer left ∧
        next = history.after ⟨.file call, answer⟩ passed left
    | .freshName, history, fresh, next =>
      history.tree.IsFresh fresh ∧ next = history.told ⟨.freshName, fresh⟩
    | .nginx call, history, reply, next => next = history.told ⟨.nginx call, reply⟩
    | .acquire, history, answer, next => next = history.told ⟨.acquire, answer⟩
    | .release, history, answer, next => next = history.told ⟨.release, answer⟩
    | .publish phase, history, answer, next => next = history.told ⟨.publish phase, answer⟩
    | .count event tally, history, answer, next =>
      next = history.told ⟨.count event tally, answer⟩

end History

/-! ## Trees alone -/

/-- How trees go on. What a call passes through and leaves is to respect a relation, from one moment
to any later one. -/
def Tree.terms (breaks : Breaks) (respects : Tree → Tree → Prop) : Terms Tree where
  allows
    | .file call, tree => ∀ passed answer left, tree.Goes breaks call passed answer left →
      (tree :: passed ++ [left]).Pairwise respects
    | _, _ => True
  answers
    | .file call, tree, answer, left => ∃ passed, tree.Goes breaks call passed answer left
    | .freshName, tree, fresh, left => tree.IsFresh fresh ∧ left = tree
    | .nginx _, tree, _, left => left = tree
    | .acquire, tree, _, left => left = tree
    | .release, tree, _, left => left = tree
    | .publish _, tree, _, left => left = tree
    | .count _ _, tree, _, left => left = tree

/-- How trees go on when every call is carried out. -/
def Tree.exactly : Terms Tree :=
  Tree.terms .never fun _ _ => True

namespace History

variable {α : Type} {breaks : Breaks} {respects : Tree → Tree → Prop} {history next : History}

theorem answers_tree {request : Request} {answer : request.Answer}
    (answered : (terms breaks).answers request history answer next) :
    (Tree.terms breaks respects).answers request history.tree answer next.tree := by
  cases request with
  | file call =>
    obtain ⟨passed, left, goes, rfl⟩ := answered
    exact ⟨passed, goes⟩
  | freshName =>
    obtain ⟨fresh, rfl⟩ := answered
    exact ⟨fresh, rfl⟩
  | nginx call => obtain rfl := answered; rfl
  | acquire => obtain rfl := answered; rfl
  | release => obtain rfl := answered; rfl
  | publish phase => obtain rfl := answered; rfl
  | count event => obtain rfl := answered; rfl

/-- Where a call respects a transitive relation, all moments up to its end do. -/
theorem pairwise_after [IsTrans Tree respects] {exchange : Exchange} {passed : List Tree}
    {left : Tree} (before : history.trees.Pairwise respects)
    (call : (history.tree :: passed ++ [left]).Pairwise respects) :
    (history.after exchange passed left).trees.Pairwise respects := by
  have early := List.pairwise_append.1 before
  have late := List.pairwise_cons.1 call
  rw [trees, after, List.append_assoc, List.pairwise_append]
  refine ⟨early.1, call, fun old was now is => ?_⟩
  have current := early.2.2 old was history.tree (List.mem_singleton_self _)
  rcases List.mem_cons.1 is with rfl | is
  · exact current
  · exact IsTrans.trans _ _ _ current (late.1 now is)

/-- What was told before is told still. -/
theorem exchanges_of_answers {request : Request} {answer : request.Answer}
    (answered : (terms breaks).answers request history answer next) :
    next.exchanges = history.exchanges ++ [⟨request, answer⟩] := by
  cases request with
  | file call => obtain ⟨_, _, _, rfl⟩ := answered; rfl
  | freshName => obtain ⟨_, rfl⟩ := answered; rfl
  | nginx call => obtain rfl := answered; rfl
  | acquire => obtain rfl := answered; rfl
  | release => obtain rfl := answered; rfl
  | publish phase => obtain rfl := answered; rfl
  | count event => obtain rfl := answered; rfl

/-- No moment is forgotten. -/
theorem prefix_of_reaches {α : Type} {p rest : Program α}
    (reached : p.Reaches (terms breaks) history rest next) : history.trees <+: next.trees := by
  induction reached with
  | refl => exact List.prefix_rfl
  | @ask request next t t' answer _ answered ih =>
    refine ih.trans ?_
    cases request with
    | file call =>
      obtain ⟨passed, left, _, rfl⟩ := answered
      exact ⟨passed ++ [left], by simp [trees, after]⟩
    | freshName => obtain ⟨_, rfl⟩ := answered; exact List.prefix_rfl
    | nginx call => obtain rfl := answered; exact List.prefix_rfl
    | acquire => obtain rfl := answered; exact List.prefix_rfl
    | release => obtain rfl := answered; exact List.prefix_rfl
    | publish phase => obtain rfl := answered; exact List.prefix_rfl
    | count event => obtain rfl := answered; exact List.prefix_rfl

section Reaches

variable [IsTrans Tree respects] {promise : α → Tree → Prop} {p rest : Program α}
  (before : history.trees.Pairwise respects) (reached : p.Reaches (terms breaks) history rest next)

include before reached

/-- A program whose calls respect a transitive relation, as long as it is answered in some way,
keeps it between any two moments. -/
theorem pairwise_of_reaches_within {kind : (request : Request) → request.Answer → Prop}
    (meets : p.Meets ((Tree.terms breaks respects).within kind) promise history.tree)
    (told : ∀ exchange ∈ next.exchanges, kind exchange.request exchange.answer) :
    next.trees.Pairwise respects := by
  suffices rest.Meets ((Tree.terms breaks respects).within kind) promise next.tree ∧
      next.trees.Pairwise respects from this.2
  induction reached with
  | refl => exact ⟨meets, before⟩
  | @ask request next t t' answer _ answered ih =>
    rw [exchanges_of_answers answered] at told
    obtain ⟨told, last⟩ := List.forall_mem_append.1 told
    obtain ⟨⟨allowed, meets⟩, before⟩ := ih told
    refine ⟨meets _ _ ⟨answers_tree answered, last _ (List.mem_singleton_self _)⟩, ?_⟩
    cases request with
    | file call =>
      obtain ⟨passed, left, goes, rfl⟩ := answered
      exact pairwise_after before (allowed passed answer left goes)
    | freshName => obtain ⟨_, rfl⟩ := answered; exact before
    | nginx call => obtain rfl := answered; exact before
    | acquire => obtain rfl := answered; exact before
    | release => obtain rfl := answered; exact before
    | publish phase => obtain rfl := answered; exact before
    | count event => obtain rfl := answered; exact before

end Reaches

end History

namespace Program

variable {α σ τ : Type} {terms : Terms σ} {terms' : Terms τ} {p : Program α} {s t : σ} {a : α}

/-- A run is a run on what is seen of its states, when answers are answers there. -/
theorem Ends.map (view : σ → τ)
    (answers : ∀ request s answer s', terms.answers request s answer s' →
      terms'.answers request (view s) answer (view s'))
    (ends : p.Ends terms s a t) : p.Ends terms' (view s) a (view t) := by
  induction ends with
  | done a s => exact .done a _
  | ask answered rest ih => exact .ask (answers _ _ _ _ answered) ih

/-- A run with its history is a run on trees. -/
theorem Ends.tree {breaks : Breaks} {respects : Tree → Tree → Prop} {history next : History}
    (ends : p.Ends (History.terms breaks) history a next) :
    p.Ends (Tree.terms breaks respects) history.tree a next.tree :=
  ends.map History.tree fun _ _ _ _ => History.answers_tree

/-- What a program ends with is reached. -/
theorem Ends.reaches {terms : Terms σ} (ends : p.Ends terms s a t) :
    p.Reaches terms s (.done a) t := by
  suffices ∀ {q : Program α} {u : σ}, p.Reaches terms s q u → q.Ends terms u a t →
      p.Reaches terms s (.done a) t from this .refl ends
  intro q u reached ends
  induction ends with
  | done a u => exact reached
  | ask answered rest ih => exact ih ends (reached.ask answered)

/-- What is promised on stricter terms is promised on any with no more answers. -/
theorem Meets.of_answers {terms terms' : Terms σ} {promise : α → σ → Prop}
    (h : p.Meets terms promise s) (allows : ∀ request s, terms.allows request s →
      terms'.allows request s)
    (answers : ∀ request s answer s', terms'.answers request s answer s' →
      terms.answers request s answer s') : p.Meets terms' promise s := by
  induction p generalizing s with
  | done a => exact h
  | ask request next ih =>
    refine ⟨allows request s h.1, fun answer s' answered => ?_⟩
    exact ih answer (h.2 answer s' (answers request s answer s' answered))

/-- What is promised is promised when only some answers are given. -/
theorem Meets.within {promise : α → σ → Prop} (h : p.Meets terms promise s)
    (kind : (request : Request) → request.Answer → Prop) :
    p.Meets (terms.within kind) promise s :=
  h.of_answers (fun _ _ allowed => allowed) fun _ _ _ _ answered => answered.1

end Program

/-- A program whose calls respect a transitive relation keeps it between any two moments. -/
theorem History.pairwise_of_reaches {α : Type} {breaks : Breaks} {respects : Tree → Tree → Prop}
    [IsTrans Tree respects] {history next : History} {promise : α → Tree → Prop}
    {p rest : Program α} (meets : p.Meets (Tree.terms breaks respects) promise history.tree)
    (before : history.trees.Pairwise respects)
    (reached : p.Reaches (terms breaks) history rest next) : next.trees.Pairwise respects :=
  pairwise_of_reaches_within before reached
    (meets.within fun _ _ => True) fun _ _ => trivial

/-! ## A world that carries out every call -/

namespace History

variable {α : Type} {breaks : Breaks}

/-- Carries out a request. nginx gives the replies laid down, and then succeeds. -/
def act : (request : Request) → List Nginx.Reply × History →
    request.Answer × (List Nginx.Reply × History)
  | .file call, (replies, history) =>
    let (answer, left) := history.tree.perform call
    (answer, replies, history.after ⟨.file call, answer⟩ [] left)
  | .nginx call, (replies, history) =>
    let reply := replies.headD (.finished { success := true })
    (reply, replies.tail, history.told ⟨.nginx call, reply⟩)
  | .freshName, (replies, history) =>
    let fresh := history.tree.spareName
    (fresh, replies, history.told ⟨.freshName, fresh⟩)
  | .acquire, (replies, history) => ((), replies, history.told ⟨.acquire, ()⟩)
  | .release, (replies, history) => ((), replies, history.told ⟨.release, ()⟩)
  | .publish phase, (replies, history) => ((), replies, history.told ⟨.publish phase, ()⟩)
  | .count event tally, (replies, history) =>
    ((), replies, history.told ⟨.count event tally, ()⟩)

theorem answers_act (request : Request) (world : List Nginx.Reply × History) :
    (terms breaks).answers request world.2 (act request world).1 (act request world).2.2 := by
  obtain ⟨replies, history⟩ := world
  cases request with
  | file call => exact ⟨[], _, .done nofun, rfl⟩
  | freshName => exact ⟨history.tree.isFresh_spareName, rfl⟩
  | nginx call => rfl
  | acquire => rfl
  | release => rfl
  | publish phase => rfl
  | count event => rfl

/-- Every program comes to an end in such a world. -/
theorem ends_act (p : Program α) (world : List Nginx.Reply × History) :
    p.Ends (terms breaks) world.2 (p.run act world).1 (p.run act world).2.2 := by
  induction p generalizing world with
  | done a => exact .done a _
  | ask request next ih => exact .ask (answers_act request world) (ih _ _)

end History

end ProxyKeeper
