import Mathlib.Tactic.Common
import Mathlib.Data.List.Forall2
import ProxyKeeper.Proofs.Nginx.Directives

/-!
# What may stand in a context

nginx refuses a configuration when a directive stands in a block that has no use for it, or stands
twice where it may stand once. A list of quotas says what a block may hold and how often. Quotas
look at the nodes of the block itself; what is in the blocks within has quotas of its own, by their
names.

## Main Definitions

* `Label` — what a node is, apart from its arguments and what is in it
* `Quota` — how often something may stand in a block
* `Fits` — nodes that keep to the quotas of the block they stand in
* `Obeys` — the same of all blocks of a document, at any depth

## Main Results

* `Fits.append` — parts with quotas of their own
* `Obeys.append`, `Obeys.block` — documents in parts
-/

namespace ProxyKeeper.Nginx

/-- What a node is, apart from its arguments and what is in it. -/
inductive Label where
  | directive (name : String)
  | block (name : String)
  | comment
  | blank
deriving DecidableEq

def Node.label : Node → Label
  | .directive name _ => .directive name
  | .block name _ _ => .block name
  | .comment _ => .comment
  | .blank => .blank

/-- The labels of nodes, apart from what is in them. -/
def labels (nodes : List Node) : List Label :=
  nodes.map Node.label

@[simp] theorem labels_nil : labels [] = [] :=
  rfl

@[simp] theorem labels_cons (node : Node) (nodes : List Node) :
    labels (node :: nodes) = node.label :: labels nodes :=
  rfl

@[simp] theorem labels_append (front back : List Node) :
    labels (front ++ back) = labels front ++ labels back :=
  List.map_append

theorem labels_flatten (parts : List (List Node)) :
    labels parts.flatten = (parts.map labels).flatten :=
  List.map_flatten

@[simp] theorem labels_optional (given : Bool) (node : Node) :
    labels (if given then [node] else []) = if given then [node.label] else [] := by
  cases given <;> rfl

/-- How often something may stand in a block. -/
inductive Quota where
  | times (n : Nat)
  | atMost (n : Nat)
  | any
deriving DecidableEq

def Quota.Admits : Quota → Nat → Prop
  | times n, found => found = n
  | atMost n, found => found ≤ n
  | any, _ => True

instance : (quota : Quota) → (found : Nat) → Decidable (quota.Admits found)
  | .times n, found => inferInstanceAs (Decidable (found = n))
  | .atMost n, found => inferInstanceAs (Decidable (found ≤ n))
  | .any, _ => inferInstanceAs (Decidable True)

/-- What may stand in a block, and how often. -/
abbrev Quotas := List (Label × Quota)

/-- Whether the nodes of a block keep to its quotas: nothing else stands there, and nothing stands
there too often or not often enough. -/
structure Fits (quotas : Quotas) (found : List Label) : Prop where
  known : ∀ label ∈ found, label ∈ quotas.map Prod.fst
  counted : ∀ entry ∈ quotas, entry.2.Admits (found.count entry.1)

instance (quotas : Quotas) (found : List Label) : Decidable (Fits quotas found) :=
  decidable_of_iff
    ((∀ label ∈ found, label ∈ quotas.map Prod.fst) ∧
      ∀ entry ∈ quotas, entry.2.Admits (found.count entry.1))
    ⟨fun h => ⟨h.1, h.2⟩, fun h => ⟨h.1, h.2⟩⟩

namespace Fits

variable {quotas others : Quotas} {found more : List Label} {label : Label}

/-- The order of the nodes does not matter. -/
theorem perm (fits : Fits quotas found) (same : found.Perm more) : Fits quotas more where
  known label listed := fits.known label (same.mem_iff.2 listed)
  counted entry listed := same.count_eq entry.1 ▸ fits.counted entry listed

/-- Parts that have nothing in common keep to the quotas of both. -/
theorem append (first : Fits quotas found) (second : Fits others more)
    (apart : ∀ label ∈ quotas.map Prod.fst, label ∉ others.map Prod.fst) :
    Fits (quotas ++ others) (found ++ more) where
  known label listed := by
    rw [List.map_append, List.mem_append]
    rcases List.mem_append.1 listed with listed | listed
    · exact .inl (first.known label listed)
    · exact .inr (second.known label listed)
  counted entry listed := by
    rw [List.count_append]
    rcases List.mem_append.1 listed with listed | listed
    · have here := List.mem_map_of_mem (f := Prod.fst) listed
      have none := List.count_eq_zero.2 fun inMore => apart _ here (second.known _ inMore)
      rw [none, Nat.add_zero]
      exact first.counted entry listed
    · have here := List.mem_map_of_mem (f := Prod.fst) listed
      have none := List.count_eq_zero.2 fun inFound => apart _ (first.known _ inFound) here
      rw [none, Nat.zero_add]
      exact second.counted entry listed

/-- A block in parts, when no label has two quotas. -/
theorem flatten {quotas : List Quotas} {parts : List (List Label)}
    (fits : List.Forall₂ Fits quotas parts) (apart : (quotas.flatten.map Prod.fst).Nodup) :
    Fits quotas.flatten parts.flatten := by
  induction fits with
  | nil => exact ⟨fun _ listed => (nomatch listed), fun _ listed => (nomatch listed)⟩
  | cons first _ ih =>
    rw [List.flatten_cons, List.map_append] at apart
    obtain ⟨_, others, disjoint⟩ := List.nodup_append.1 apart
    exact first.append (ih others) fun label here there => disjoint label here label there rfl

theorem replicate (n : Nat) (label : Label) :
    Fits [(label, .times n)] (List.replicate n label) where
  known _ listed := List.mem_singleton.2 (List.eq_of_mem_replicate listed)
  counted entry listed := by
    obtain rfl := List.mem_singleton.1 listed
    exact List.count_replicate_self

/-- What stands exactly when it is given. -/
theorem times (given : Bool) (label : Label) :
    Fits [(label, .times given.toNat)] (if given then [label] else []) := by
  cases given with
  | false => exact replicate 0 label
  | true => exact replicate 1 label

/-- What may stand any number of times. -/
theorem any (all : ∀ here ∈ found, here = label) : Fits [(label, .any)] found where
  known here listed := List.mem_singleton.2 (all here listed)
  counted entry listed := by
    obtain rfl := List.mem_singleton.1 listed
    trivial

theorem optional (given : Bool) (label : Label) :
    Fits [(label, .atMost 1)] (if given then [label] else []) := by
  cases given with
  | false => exact ⟨fun _ listed => (nomatch listed), by simp [Quota.Admits]⟩
  | true => exact ⟨fun _ listed => listed, by simp [Quota.Admits]⟩

end Fits

/-- Whether all blocks of a document keep to the quotas that their names have. -/
def Obeys (quotasOf : String → Quotas) (nodes : List Node) : Prop :=
  ∀ node ∈ nodesWithin nodes, ∀ name args children, node = .block name args children →
    Fits (quotasOf name) (labels children)

namespace Obeys

variable {quotasOf : String → Quotas} {nodes front back : List Node}

theorem nil : Obeys quotasOf [] := by
  intro node listed
  cases listed

theorem append (first : Obeys quotasOf front) (second : Obeys quotasOf back) :
    Obeys quotasOf (front ++ back) := by
  intro node listed
  rw [nodesWithin_append] at listed
  rcases List.mem_append.1 listed with listed | listed
  · exact first node listed
  · exact second node listed

theorem block {name : String} {args : List String} (fits : Fits (quotasOf name) (labels nodes))
    (inside : Obeys quotasOf nodes) : Obeys quotasOf [.block name args nodes] := by
  intro node listed name' args' children same
  rw [nodesWithin, Node.within, nodesWithin, List.append_nil] at listed
  rcases List.mem_cons.1 listed with rfl | listed
  · obtain ⟨rfl, rfl, rfl⟩ := Node.block.inj same
    exact fits
  · exact inside node listed name' args' children same

theorem of_cons {node : Node} (obeys : Obeys quotasOf (node :: nodes)) : Obeys quotasOf nodes :=
  fun inner listed => obeys inner (List.mem_append_right _ listed)

/-- What is in the first block. -/
theorem fits_head {name : String} {args : List String} {children : List Node}
    (obeys : Obeys quotasOf (.block name args children :: nodes)) :
    Fits (quotasOf name) (labels children) :=
  obeys _ (List.mem_cons_self ..) name args children rfl

theorem of_head {name : String} {args : List String} {children : List Node}
    (obeys : Obeys quotasOf (.block name args children :: nodes)) : Obeys quotasOf children :=
  fun inner listed => obeys inner (List.mem_cons_of_mem _ (List.mem_append_left _ listed))

/-- Nodes without blocks among them. -/
theorem of_plain (plain : ∀ name, Label.block name ∉ labels nodes) : Obeys quotasOf nodes := by
  induction nodes with
  | nil => exact nil
  | cons node nodes ih =>
    have rest : Obeys quotasOf nodes :=
      ih fun name listed => plain name (List.mem_cons_of_mem _ listed)
    have front : Obeys quotasOf [node] := by
      intro node' listed name args children same
      cases node with
      | block name args children => exact absurd (List.mem_cons_self ..) (plain name)
      | _ =>
        obtain rfl := List.mem_singleton.1 listed
        cases same
    exact append front rest

theorem of_fits {quotas : Quotas} (fits : Fits quotas (labels nodes))
    (plain : ∀ name, Label.block name ∉ quotas.map Prod.fst) : Obeys quotasOf nodes :=
  of_plain fun name listed => plain name (fits.known _ listed)

theorem flatten {parts : List (List Node)} (each : ∀ part ∈ parts, Obeys quotasOf part) :
    Obeys quotasOf parts.flatten := by
  induction parts with
  | nil => exact nil
  | cons part parts ih =>
    obtain ⟨first, rest⟩ := List.forall_mem_cons.1 each
    exact first.append (ih rest)

end Obeys

end ProxyKeeper.Nginx
