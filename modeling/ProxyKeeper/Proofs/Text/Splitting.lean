import Mathlib.Tactic.Common
import ProxyKeeper.Text.Replace

/-!
# Cutting at a separator

Cutting a text at a separator is the splitting of lists, so what is known of that holds of it. A
text also falls into two parts in only one way when the second part begins with what the first does
not hold.

## Main Results

* `Text.stripLead?_append` — a beginning is taken off
* `Text.splitOn_eq` — the two are the same
* `Text.notMem_of_mem_splitOn` — no piece holds the separator
* `Text.eq_or_mem_of_mem_intercalate` — what stands in pieces that are joined
* `Text.append_inj_of_head`, `Text.append_cons_inj` — two parts that are found again in the whole
-/

namespace ProxyKeeper.Text

theorem stripLead?_append (lead rest : List Char) : stripLead? lead (lead ++ rest) = some rest := by
  induction lead with
  | nil => rfl
  | cons c lead ih => rw [List.cons_append, stripLead?, if_pos rfl, ih]

/-- A text that is long enough and has another beginning keeps it, whatever follows. -/
theorem stripLead?_append_of_none {lead front : List Char} (other : stripLead? lead front = none)
    (long : lead.length ≤ front.length) (back : List Char) :
    stripLead? lead (front ++ back) = none := by
  induction lead generalizing front with
  | nil => cases other
  | cons p lead ih =>
    cases front with
    | nil => cases long
    | cons c front =>
      rw [List.cons_append, stripLead?]
      rw [stripLead?] at other
      split_ifs at other ⊢
      · exact ih other (Nat.le_of_succ_le_succ long)
      · rfl

theorem splitFrom_eq (separator : Char) (piece cs : List Char) :
    splitFrom separator piece cs = List.splitOnPPrepend (· == separator) cs piece := by
  induction cs generalizing piece with
  | nil => rfl
  | cons c cs ih =>
    rw [splitFrom, List.splitOnPPrepend_cons_eq_if, ih, ih]
    simp

/-- Cutting a text is splitting a list. -/
theorem splitOn_eq (separator : Char) (cs : List Char) :
    splitOn separator cs = cs.splitOn separator :=
  splitFrom_eq separator [] cs

theorem notMem_of_mem_splitFrom {separator : Char} {piece cs : List Char}
    (clean : separator ∉ piece) {part : List Char} (h : part ∈ splitFrom separator piece cs) :
    separator ∉ part := by
  induction cs generalizing piece with
  | nil =>
    rw [splitFrom, List.mem_singleton] at h
    rwa [h, List.mem_reverse]
  | cons c cs ih =>
    rw [splitFrom] at h
    split at h
    next =>
      rcases List.mem_cons.1 h with rfl | h
      · rwa [List.mem_reverse]
      · exact ih List.not_mem_nil h
    next other =>
      refine ih ?_ h
      rw [List.mem_cons, not_or]
      exact ⟨Ne.symm other, clean⟩

/-- No piece holds the separator. -/
theorem notMem_of_mem_splitOn {separator : Char} {cs part : List Char}
    (h : part ∈ splitOn separator cs) : separator ∉ part :=
  notMem_of_mem_splitFrom List.not_mem_nil h

/-- What stands in pieces with a separator between them stands in one of them, or is the separator.
-/
theorem eq_or_mem_of_mem_intercalate {separator c : Char} {pieces : List (List Char)}
    (inside : c ∈ [separator].intercalate pieces) :
    c = separator ∨ ∃ piece ∈ pieces, c ∈ piece := by
  induction pieces with
  | nil => cases inside
  | cons piece pieces ih =>
    cases pieces with
    | nil => exact .inr ⟨piece, List.mem_cons_self .., by simpa using inside⟩
    | cons next pieces =>
      rw [List.intercalate_cons_cons, List.mem_append, List.mem_append,
        List.mem_singleton] at inside
      rcases inside with (here | between) | later
      · exact .inr ⟨piece, List.mem_cons_self .., here⟩
      · exact .inl between
      · rcases ih later with between | ⟨other, listed, here⟩
        · exact .inl between
        · exact .inr ⟨other, List.mem_cons_of_mem _ listed, here⟩

/-- Two parts are found again in the whole, when the first holds only what the second does not begin
with. -/
theorem append_inj_of_head {α : Type*} {p : α → Prop} {front front' back back' : List α}
    (inFront : ∀ a ∈ front, p a) (inFront' : ∀ a ∈ front', p a)
    (begins : ∀ a ∈ back.head?, ¬ p a) (begins' : ∀ a ∈ back'.head?, ¬ p a) :
    front ++ back = front' ++ back' ↔ front = front' ∧ back = back' := by
  induction front generalizing front' with
  | nil =>
    cases front' with
    | nil => simp
    | cons b front' =>
      refine iff_of_false ?_ (by simp)
      rintro rfl
      exact begins b rfl (inFront' b (List.mem_cons_self ..))
  | cons a front ih =>
    obtain ⟨first, others⟩ := List.forall_mem_cons.1 inFront
    cases front' with
    | nil =>
      refine iff_of_false ?_ (by simp)
      rintro rfl
      exact begins' a rfl first
    | cons b front' =>
      obtain ⟨_, others'⟩ := List.forall_mem_cons.1 inFront'
      rw [List.cons_append, List.cons_append, List.cons.injEq, List.cons.injEq, ih others others',
        and_assoc]

/-- Two parts are found again at the first place of what stands between them. -/
theorem append_cons_inj {α : Type*} {separator : α} {front front' back back' : List α}
    (h : separator ∉ front) (h' : separator ∉ front') :
    front ++ separator :: back = front' ++ separator :: back' ↔ front = front' ∧ back = back' := by
  have before {front : List α} (h : separator ∉ front) : ∀ a ∈ front, a ≠ separator := by
    rintro a inside rfl
    exact h inside
  have begins (back : List α) : ∀ a ∈ (separator :: back).head?, ¬ a ≠ separator := by
    intro a first
    obtain rfl := Option.some.inj first
    exact not_not_intro rfl
  rw [append_inj_of_head (before h) (before h') (begins back) (begins back'), List.cons.injEq,
    and_iff_right rfl]

end ProxyKeeper.Text
