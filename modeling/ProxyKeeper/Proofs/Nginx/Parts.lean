import Mathlib.Data.List.Forall2
import ProxyKeeper.Nginx.Document
import ProxyKeeper.Proofs.Text.Splitting

/-!
# Documents in parts

Documents are put together from parts, some of which may be empty. When the nodes of different
parts differ in their names or in the number of their arguments, nothing is lost: the parts are found
again in the whole.

## Main Definitions

* `Node.kind` — the name of a node with the number of its arguments
* `OfKinds` — nodes of given kinds

## Main Results

* `flatten_inj` — the parts of two documents that are the same are the same
-/

namespace ProxyKeeper.Nginx

/-- The name of a node with the number of its arguments. Comments and empty lines have names that no
directive has. -/
def Node.kind : Node → String × Nat
  | .directive name args => (name, args.length)
  | .block name args _ => (name, args.length)
  | .comment _ => ("#", 0)
  | .blank => ("", 0)

/-- Whether nodes are of given kinds, apart from what is in them. -/
def OfKinds (kinds : List (String × Nat)) (nodes : List Node) : Prop :=
  ∀ node ∈ nodes, node.kind ∈ kinds

variable {kinds : List (String × Nat)}

namespace OfKinds

theorem nil : OfKinds kinds [] := by
  intro node listed
  cases listed

theorem singleton {node : Node} (h : node.kind ∈ kinds) : OfKinds kinds [node] :=
  List.forall_mem_singleton.2 h

theorem cons {node : Node} {nodes : List Node} (h : node.kind ∈ kinds)
    (rest : OfKinds kinds nodes) : OfKinds kinds (node :: nodes) :=
  List.forall_mem_cons.2 ⟨h, rest⟩

theorem append {front back : List Node} (hf : OfKinds kinds front) (hb : OfKinds kinds back) :
    OfKinds kinds (front ++ back) :=
  List.forall_mem_append.2 ⟨hf, hb⟩

theorem map {α : Type*} {node : α → Node} (h : ∀ a, (node a).kind ∈ kinds) (list : List α) :
    OfKinds kinds (list.map node) :=
  List.forall_mem_map.2 fun a _ => h a

/-- The part that belongs to something optional. -/
theorem elim {α : Type*} {nodes : α → List Node} (h : ∀ a, OfKinds kinds (nodes a)) (o : Option α) :
    OfKinds kinds (o.elim [] nodes) := by
  cases o with
  | none => exact nil
  | some a => exact h a

end OfKinds

/-- The nodes of a whole are of the kinds of its parts. -/
theorem exists_kinds_of_mem_flatten {kinds : List (List (String × Nat))} {parts : List (List Node)}
    (ofKinds : List.Forall₂ OfKinds kinds parts) {node : Node} (listed : node ∈ parts.flatten) :
    ∃ allowed ∈ kinds, node.kind ∈ allowed := by
  induction ofKinds with
  | nil => cases listed
  | cons first _ ih =>
    rw [List.flatten_cons, List.mem_append] at listed
    rcases listed with inFirst | inOthers
    · exact ⟨_, List.mem_cons_self .., first node inFirst⟩
    · obtain ⟨allowed, listed, here⟩ := ih inOthers
      exact ⟨allowed, List.mem_cons_of_mem _ listed, here⟩

/-- Parts of other kinds do not begin with a node of these. -/
theorem notMem_kinds_of_head? {others : List (List (String × Nat))}
    (apart : ∀ later ∈ others, ∀ kind ∈ later, kind ∉ kinds) {parts : List (List Node)}
    (ofKinds : List.Forall₂ OfKinds others parts) :
    ∀ node ∈ parts.flatten.head?, node.kind ∉ kinds := by
  intro node begins
  obtain ⟨later, listed, here⟩ :=
    exists_kinds_of_mem_flatten ofKinds (List.mem_of_mem_head? begins)
  exact apart later listed _ here

/-- Parts of different kinds are found again in the whole. -/
theorem flatten_inj {kinds : List (List (String × Nat))}
    (apart : kinds.Pairwise fun kinds later => ∀ kind ∈ later, kind ∉ kinds)
    {parts parts' : List (List Node)} (ofKinds : List.Forall₂ OfKinds kinds parts)
    (ofKinds' : List.Forall₂ OfKinds kinds parts') :
    parts.flatten = parts'.flatten ↔ parts = parts' := by
  induction ofKinds generalizing parts' with
  | nil =>
    cases ofKinds'
    exact iff_of_true rfl rfl
  | cons first others ih =>
    cases ofKinds' with
    | cons first' others' =>
      obtain ⟨mine, rest⟩ := List.pairwise_cons.1 apart
      rw [List.flatten_cons, List.flatten_cons, List.cons.injEq,
        Text.append_inj_of_head first first' (notMem_kinds_of_head? mine others)
          (notMem_kinds_of_head? mine others'),
        ih rest others']

end ProxyKeeper.Nginx
