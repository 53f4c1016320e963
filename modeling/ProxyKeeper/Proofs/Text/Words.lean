import Mathlib.Data.List.TakeWhile
import Mathlib.Tactic.Common
import ProxyKeeper.Text.Blank

/-!
# The words of a text

A word is a run of characters that are not white space, with white space or an end of the text on
either side. The words are collected from the left, character by character; here each is told by
where it stands.

## Main Definitions

* `Text.IsWord` — runs without white space
* `Text.Stands` — the word that a text begins with, behind white space

## Main Results

* `Text.words_append` — white space in front, a word, and the rest
* `Text.head?_words_iff` — the first word
-/

namespace ProxyKeeper.Text

variable {gap word rest cs : List Char}

/-- A run of characters that are not white space. -/
structure IsWord (word : List Char) : Prop where
  some_character : word ≠ []
  dense : ∀ c ∈ word, isBlank c = false

/-- Whether a word stands first in a text: there is nothing but white space in front of it, and
white space or nothing behind it. -/
structure Stands (gap word rest : List Char) : Prop where
  gap : ∀ c ∈ gap, isBlank c = true
  word : IsWord word
  rest : ∀ c ∈ rest.head?, isBlank c = true

theorem wordsFrom_gap (blank : ∀ c ∈ gap, isBlank c = true) (cs : List Char) :
    wordsFrom [] (gap ++ cs) = wordsFrom [] cs := by
  induction gap with
  | nil => rfl
  | cons c gap ih =>
    obtain ⟨first, others⟩ := List.forall_mem_cons.1 blank
    rw [List.cons_append, wordsFrom, if_pos first, ih others]
    rfl

theorem wordsFrom_dense (dense : ∀ c ∈ word, isBlank c = false) (piece cs : List Char) :
    wordsFrom piece (word ++ cs) = wordsFrom (word.reverse ++ piece) cs := by
  induction word generalizing piece with
  | nil => rfl
  | cons c word ih =>
    obtain ⟨first, others⟩ := List.forall_mem_cons.1 dense
    rw [List.cons_append, wordsFrom, if_neg (by simp [first]), ih others, List.reverse_cons,
      List.append_assoc, List.singleton_append]

theorem wordsFrom_rest {piece : List Char} (some_character : piece ≠ [])
    (ends : ∀ c ∈ rest.head?, isBlank c = true) :
    wordsFrom piece rest = piece.reverse :: words rest := by
  have open_piece : piece.isEmpty = false := List.isEmpty_eq_false_iff.2 some_character
  cases rest with
  | nil =>
    rw [wordsFrom, open_piece]
    rfl
  | cons c rest =>
    have first := ends c rfl
    rw [words, wordsFrom, wordsFrom, if_pos first, if_pos first, open_piece]
    rfl

/-- The words of a text that begins with a word. -/
theorem words_append (stands : Stands gap word rest) :
    words (gap ++ word ++ rest) = word :: words rest := by
  have some_character : word.reverse ++ [] ≠ [] := by
    rw [List.append_nil, Ne, List.reverse_eq_nil_iff]
    exact stands.word.some_character
  rw [words, List.append_assoc, wordsFrom_gap stands.gap, wordsFrom_dense stands.word.dense,
    wordsFrom_rest some_character stands.rest, List.append_nil, List.reverse_reverse]

/-- A text is white space, or a word stands first in it. -/
theorem blank_or_stands (cs : List Char) :
    (∀ c ∈ cs, isBlank c = true) ∨ ∃ gap word rest, Stands gap word rest ∧
      cs = gap ++ word ++ rest := by
  have parted : cs = cs.takeWhile isBlank ++ cs.dropWhile isBlank :=
    List.takeWhile_append_dropWhile.symm
  have gap : ∀ c ∈ cs.takeWhile isBlank, isBlank c = true := fun _ => List.mem_takeWhile_imp
  cases behind : cs.dropWhile isBlank with
  | nil =>
    left
    rwa [parted, behind, List.append_nil]
  | cons c back =>
    right
    have first : isBlank c = false := by
      have := List.head?_dropWhile_not isBlank cs
      simpa [behind] using this
    refine ⟨_, c :: back.takeWhile (!isBlank ·), back.dropWhile (!isBlank ·),
      ⟨gap, ⟨List.cons_ne_nil _ _, ?_⟩, fun d here => ?_⟩, ?_⟩
    · refine List.forall_mem_cons.2 ⟨first, fun d inside => ?_⟩
      simpa using List.mem_takeWhile_imp inside
    · have := List.head?_dropWhile_not (!isBlank ·) back
      rw [Option.mem_def.1 here] at this
      simpa using this
    · rw [List.append_assoc, List.cons_append, List.takeWhile_append_dropWhile, ← behind]
      exact parted

/-- The first word of a text is the one that stands first in it. -/
theorem head?_words_iff :
    (words cs).head? = some word ↔ ∃ gap rest, Stands gap word rest ∧ cs = gap ++ word ++ rest := by
  constructor
  · intro first
    rcases blank_or_stands cs with blank | ⟨gap, word', rest, stands, rfl⟩
    · have none := wordsFrom_gap blank []
      rw [List.append_nil] at none
      rw [words, none] at first
      cases first
    · rw [words_append stands, List.head?_cons] at first
      obtain rfl := Option.some.inj first
      exact ⟨gap, rest, stands, rfl⟩
  · rintro ⟨gap, rest, stands, rfl⟩
    rw [words_append stands, List.head?_cons]

end ProxyKeeper.Text
