import Mathlib.Tactic.Common

/-!
# All but some

What is collected from the parts of a document is in order but for a few items that hang on
something else: the words that are taken from a rule as they are, or the numbers that nobody
checked. Documents are put together from parts, and so are these statements. In the end, all items
have a property that comes with being in order exactly when the few items have it.

## Main Definitions

* `AllBut` — items in order but for given ones, which are among them

## Main Results

* `AllBut.append`, `AllBut.trim` — items in parts, and exceptions that are none
* `AllBut.forall_iff` — a property of all items hangs on the exceptions
-/

namespace ProxyKeeper

variable {α : Type*} {good : α → Prop} {items more exceptions others : List α}

/-- All items are good but for given ones, which are among them. -/
structure AllBut (good : α → Prop) (items exceptions : List α) : Prop where
  found : exceptions ⊆ items
  others : ∀ a ∈ items, good a ∨ a ∈ exceptions

namespace AllBut

/-- Items of which nothing is known. -/
theorem refl (good : α → Prop) (items : List α) : AllBut good items items where
  found := List.Subset.refl items
  others := fun _ listed => .inr listed

theorem of_forall (all : ∀ a ∈ items, good a) : AllBut good items [] where
  found := List.nil_subset items
  others := fun a listed => .inl (all a listed)

theorem append (h : AllBut good items exceptions) (h' : AllBut good more others) :
    AllBut good (items ++ more) (exceptions ++ others) where
  found := List.append_subset.2 ⟨List.subset_append_of_subset_left _ h.found,
    List.subset_append_of_subset_right _ h'.found⟩
  others := by
    intro a listed
    rw [List.mem_append] at listed ⊢
    rcases listed with listed | listed
    · exact (h.others a listed).imp_right .inl
    · exact (h'.others a listed).imp_right .inr

/-- Exceptions that are good need not be told. -/
theorem trim (h : AllBut good items exceptions) (fewer : others ⊆ exceptions)
    (rest : ∀ a ∈ exceptions, good a ∨ a ∈ others) : AllBut good items others where
  found := List.Subset.trans fewer h.found
  others := fun a listed => (h.others a listed).elim .inl (rest a)

/-- What good items have, all have exactly when the exceptions have it. -/
theorem forall_iff (h : AllBut good items exceptions) {p : α → Prop} (ofGood : ∀ a, good a → p a) :
    (∀ a ∈ items, p a) ↔ ∀ a ∈ exceptions, p a :=
  ⟨fun all a given => all a (h.found given),
    fun given a listed => (h.others a listed).elim (ofGood a) (given a)⟩

end AllBut

end ProxyKeeper
