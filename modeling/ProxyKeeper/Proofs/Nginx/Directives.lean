import Mathlib.Tactic.Common
import ProxyKeeper.Nginx.Reader

/-!
# Directives and blocks by name

What a configuration says under a name, wherever it stands: the arguments of the directives, and the
blocks. A part of a document that does not use a name has no say in it, so what a document says
under a name can be found by looking at the few parts that use it.

## Main Definitions

* `nodesWithin` — the nodes of a document at any depth
* `directives`, `blocks` — what is said under a name
* `Only` — nodes that use some names and no others

## Main Results

* `directives_append`, `blocks_append` — documents in parts
* `directives_effectiveNodes`, `blocks_effectiveNodes` — documents as nginx sees them
* `Only.directives`, `Only.blocks` — parts without a name
-/

namespace ProxyKeeper.Nginx

mutual

/-- A node and the nodes in it, at any depth. -/
def Node.within : Node → List Node
  | .directive name args => [.directive name args]
  | .block name args children => .block name args children :: nodesWithin children
  | .comment text => [.comment text]
  | .blank => [.blank]

/-- Some nodes and the nodes in them, at any depth. -/
def nodesWithin : List Node → List Node
  | [] => []
  | node :: rest => node.within ++ nodesWithin rest

end

/-- The name of a directive or a block. -/
def Node.name? : Node → Option String
  | .directive name _ => some name
  | .block name _ _ => some name
  | .comment _ => none
  | .blank => none

/-- The arguments of the directives of a name, in their order. -/
def directives (name : String) (nodes : List Node) : List (List String) :=
  (nodesWithin nodes).filterMap fun
    | .directive n args => if n = name then some args else none
    | _ => none

/-- The blocks of a name, in their order: their arguments and what is in them. -/
def blocks (name : String) (nodes : List Node) : List (List String × List Node) :=
  (nodesWithin nodes).filterMap fun
    | .block n args children => if n = name then some (args, children) else none
    | _ => none

variable {name : String} {nodes front back : List Node}

theorem nodesWithin_append (front back : List Node) :
    nodesWithin (front ++ back) = nodesWithin front ++ nodesWithin back := by
  induction front with
  | nil => rfl
  | cons node front ih => rw [List.cons_append, nodesWithin, nodesWithin, ih, List.append_assoc]

/-! ## Documents in parts -/

@[simp] theorem directives_nil (name : String) : directives name [] = [] :=
  rfl

@[simp] theorem blocks_nil (name : String) : blocks name [] = [] :=
  rfl

@[simp] theorem directives_append (name : String) (front back : List Node) :
    directives name (front ++ back) = directives name front ++ directives name back := by
  rw [directives, nodesWithin_append, List.filterMap_append]
  rfl

@[simp] theorem blocks_append (name : String) (front back : List Node) :
    blocks name (front ++ back) = blocks name front ++ blocks name back := by
  rw [blocks, nodesWithin_append, List.filterMap_append]
  rfl

@[simp] theorem directives_directive (name n : String) (args : List String) (rest : List Node) :
    directives name (.directive n args :: rest) =
      (if n = name then [args] else []) ++ directives name rest := by
  rw [directives, nodesWithin, Node.within, List.filterMap_append]
  by_cases same : n = name <;> simp [same, directives]

@[simp] theorem blocks_directive (name n : String) (args : List String) (rest : List Node) :
    blocks name (.directive n args :: rest) = blocks name rest := by
  rw [blocks, nodesWithin, Node.within, List.filterMap_append]
  rfl

@[simp] theorem directives_block (name n : String) (args : List String)
    (children rest : List Node) :
    directives name (.block n args children :: rest) =
      directives name children ++ directives name rest := by
  rw [directives, nodesWithin, Node.within, List.filterMap_append]
  rfl

@[simp] theorem blocks_block (name n : String) (args : List String) (children rest : List Node) :
    blocks name (.block n args children :: rest) =
      (if n = name then [(args, children)] else []) ++ blocks name children ++
        blocks name rest := by
  rw [blocks, nodesWithin, Node.within, List.filterMap_append]
  by_cases same : n = name <;> simp [same, blocks]

@[simp] theorem directives_comment (name text : String) (rest : List Node) :
    directives name (.comment text :: rest) = directives name rest :=
  rfl

@[simp] theorem blocks_comment (name text : String) (rest : List Node) :
    blocks name (.comment text :: rest) = blocks name rest :=
  rfl

@[simp] theorem directives_blank (name : String) (rest : List Node) :
    directives name (.blank :: rest) = directives name rest :=
  rfl

@[simp] theorem blocks_blank (name : String) (rest : List Node) :
    blocks name (.blank :: rest) = blocks name rest :=
  rfl

/-! ## Documents as nginx sees them -/

mutual

theorem Node.directives_effective (name : String) : ∀ node : Node,
    directives name node.effective = directives name [node]
  | .directive _ _ => rfl
  | .block n args children => by
    rw [Node.effective, directives_block, directives_block,
      directives_effectiveNodes name children]
  | .comment _ => rfl
  | .blank => rfl

/-- Comments and empty lines say nothing. -/
theorem directives_effectiveNodes (name : String) : ∀ nodes : List Node,
    directives name (effectiveNodes nodes) = directives name nodes
  | [] => rfl
  | node :: nodes => by
    rw [effectiveNodes, directives_append, node.directives_effective name,
      directives_effectiveNodes name nodes, ← directives_append, List.singleton_append]

end

mutual

theorem Node.blocks_effective (name : String) : ∀ node : Node,
    blocks name node.effective =
      (blocks name [node]).map fun (args, children) => (args, effectiveNodes children)
  | .directive _ _ => rfl
  | .block n args children => by
    rw [Node.effective, blocks_block, blocks_block, blocks_effectiveNodes name children]
    by_cases same : n = name <;> simp [same]
  | .comment _ => rfl
  | .blank => rfl

/-- Blocks are seen without the comments and empty lines in them. -/
theorem blocks_effectiveNodes (name : String) : ∀ nodes : List Node,
    blocks name (effectiveNodes nodes) =
      (blocks name nodes).map fun (args, children) => (args, effectiveNodes children)
  | [] => rfl
  | node :: nodes => by
    rw [effectiveNodes, blocks_append, node.blocks_effective name,
      blocks_effectiveNodes name nodes, ← List.map_append, ← blocks_append,
      List.singleton_append]

end

/-! ## Parts without a name -/

/-- Whether nodes use some names and no others, at any depth. -/
def Only (names : List String) (nodes : List Node) : Prop :=
  ∀ node ∈ nodesWithin nodes, ∀ name, node.name? = some name → name ∈ names

namespace Only

variable {names wider : List String}

theorem nil : Only names [] := by
  intro node listed
  cases listed

theorem append (first : Only names front) (second : Only names back) :
    Only names (front ++ back) := by
  intro node listed
  rw [nodesWithin_append] at listed
  rcases List.mem_append.1 listed with listed | listed
  · exact first node listed
  · exact second node listed

theorem mono (only : Only names nodes) (widens : names ⊆ wider) : Only wider nodes :=
  fun node listed name named => widens (only node listed name named)

theorem directive {name : String} (allowed : name ∈ names) (args : List String) :
    Only names [.directive name args] := by
  intro node listed n named
  obtain rfl := List.mem_singleton.1 listed
  cases named
  exact allowed

theorem block {name : String} (allowed : name ∈ names) (args : List String)
    (inside : Only names nodes) : Only names [.block name args nodes] := by
  intro node listed n named
  rw [nodesWithin, Node.within, nodesWithin, List.append_nil] at listed
  rcases List.mem_cons.1 listed with rfl | listed
  · cases named
    exact allowed
  · exact inside node listed n named

/-- Directives use their own names. -/
theorem of_directives (h : ∀ node ∈ nodes, ∃ name ∈ names, ∃ args, node = .directive name args) :
    Only names nodes := by
  induction nodes with
  | nil => exact nil
  | cons node nodes ih =>
    obtain ⟨⟨name, allowed, args, rfl⟩, rest⟩ := List.forall_mem_cons.1 h
    exact (directive allowed args).append (ih rest)

/-- Nothing is said under another name. -/
theorem directives (only : Only names nodes) (other : name ∉ names) :
    directives name nodes = [] := by
  refine List.filterMap_eq_nil_iff.2 fun node listed => ?_
  have mine := only node listed
  cases node with
  | directive n args =>
    refine if_neg ?_
    rintro rfl
    exact other (mine n rfl)
  | _ => rfl

/-- There is no block of another name. -/
theorem blocks (only : Only names nodes) (other : name ∉ names) : blocks name nodes = [] := by
  refine List.filterMap_eq_nil_iff.2 fun node listed => ?_
  have mine := only node listed
  cases node with
  | block n args children =>
    refine if_neg ?_
    rintro rfl
    exact other (mine n rfl)
  | _ => rfl

end Only

end ProxyKeeper.Nginx
