import ProxyKeeper.Files.Tree
import ProxyKeeper.Proofs.Text.Splitting

/-!
# Paths below a directory

The path of a name in a directory, taken apart again: its pieces are those of the directory and the
name, and the path above it leads where the path of the directory leads, for the two differ in
dots only.

## Main Definitions

* `Path.names` — the pieces of a path that a walk takes
* `Path.IsPlainName` — names that are one piece of their own

## Main Results

* `Path.names_child`, `Path.steps_child` — the walk to a name in a directory
* `Path.parent?_child`, `Path.fileName?_child` — the path above a name in a directory, and the name
-/

namespace ProxyKeeper.Path

/-- The pieces of a path that count for a walk. -/
def names (path : Path) : List String :=
  path.pieces.filter (· != "")

/-- A name that is one piece of a path and no dots. -/
structure IsPlainName (name : String) : Prop where
  noSlash : '/' ∉ name.toList
  notEmpty : name ≠ ""
  notHere : name ≠ "."
  notAbove : name ≠ ".."

/-! ## Pieces -/

theorem noSlash_of_mem_pieces {path : Path} {piece : String} (h : piece ∈ path.pieces) :
    '/' ∉ piece.toList := by
  obtain ⟨cs, listed, rfl⟩ := List.mem_map.1 h
  rw [String.toList_ofList]
  exact Text.notMem_of_mem_splitOn listed

theorem pieces_ne_nil (path : Path) : path.pieces ≠ [] := by
  rw [pieces, Text.splitOn_eq, Ne, List.map_eq_nil_iff]
  exact List.splitOn_ne_nil _ _

/-- The text of a path is its pieces with slashes between them. -/
theorem toList_eq_intercalate (path : Path) :
    path.text.toList = ['/'].intercalate (path.pieces.map String.toList) := by
  rw [pieces, List.map_map, Text.splitOn_eq]
  have same : String.toList ∘ String.ofList = id := by
    funext cs
    exact String.toList_ofList
  rw [same, List.map_id, List.intercalate_splitOn]

/-- Pieces without slashes are those of the path that is made of them. -/
theorem pieces_intercalate {pieces : List String} (h : pieces ≠ [])
    (noSlash : ∀ piece ∈ pieces, '/' ∉ piece.toList) :
    (⟨"/".intercalate pieces⟩ : Path).pieces = pieces := by
  have clean : ∀ cs ∈ pieces.map String.toList, '/' ∉ cs := by
    intro cs listed
    obtain ⟨piece, listed, rfl⟩ := List.mem_map.1 listed
    exact noSlash piece ‹_›
  have text : ("/".intercalate pieces).toList = ['/'].intercalate (pieces.map String.toList) :=
    String.toList_intercalate
  have same : String.ofList ∘ String.toList = id := by
    funext s
    exact String.ofList_toList
  rw [Path.pieces, Text.splitOn_eq, text, List.splitOn_intercalate _ clean (by simpa using h),
    List.map_map, same, List.map_id]

/-- A path is absolute when its first piece is empty and not its only one. -/
theorem isAbsolute_iff {path : Path} {first : String} {rest : List String}
    (cut : path.pieces = first :: rest) :
    path.isAbsolute = true ↔ first = "" ∧ rest ≠ [] := by
  have text := path.toList_eq_intercalate
  rw [cut] at text
  have clean : '/' ∉ first.toList :=
    noSlash_of_mem_pieces (by rw [cut]; exact List.mem_cons_self ..)
  rw [isAbsolute, text]
  cases rest with
  | nil =>
    simp only [List.map_cons, List.map_nil, List.intercalate_singleton, ne_eq, not_true_eq_false,
      and_false, iff_false, beq_iff_eq]
    intro head
    exact clean (List.mem_of_mem_head? head)
  | cons second rest =>
    simp only [List.map_cons, List.intercalate_cons_cons]
    cases chars : first.toList with
    | nil =>
      have empty : first = "" := String.toList_eq_nil_iff.1 chars
      simp [empty]
    | cons c cs =>
      rw [chars, List.mem_cons, not_or] at clean
      have full : first ≠ "" := by
        rintro rfl
        simp at chars
      simp [full, Ne.symm clean.1]

/-! ## The path of a name in a directory -/

section Child

variable {directory : Path} {name : String}

theorem child_text (given : directory.text ≠ "") (plain : IsPlainName name) :
    (directory.child name).text.toList =
      if directory.text.toList.getLast? = some '/' then directory.text.toList ++ name.toList
      else directory.text.toList ++ '/' :: name.toList := by
  have relative : isAbsolute ⟨name⟩ = false := by
    rw [isAbsolute, beq_eq_false_iff_ne]
    intro head
    exact plain.noSlash (List.mem_of_mem_head? head)
  have full : directory.text.isEmpty = false := by simpa using given
  rw [child, join, relative, full]
  simp only [Bool.or_self, Bool.false_eq_true, if_false]
  split
  · exact String.toList_append ..
  · simp

/-- The pieces of the path of a name: some that count as those of the directory, and the name. -/
theorem child_cut (given : directory.text ≠ "") (plain : IsPlainName name) :
    ∃ front back, front ≠ [] ∧ (directory.child name).pieces = front ++ [name] ∧
      directory.pieces = front ++ back ∧ ∀ piece ∈ back, piece = "" := by
  have alone : List.splitOn '/' name.toList = [name.toList] :=
    List.splitOn_eq_singleton plain.noSlash
  have some_front (cs : List Char) : (List.splitOn '/' cs).map String.ofList ≠ [] := by
    rw [Ne, List.map_eq_nil_iff]
    exact List.splitOn_ne_nil _ _
  have text := child_text given plain
  -- the slash before the name is that of the directory, or a new one
  by_cases slash : directory.text.toList.getLast? = some '/'
  · rw [if_pos slash] at text
    obtain ⟨cs, ends⟩ := List.getLast?_eq_some_iff.1 slash
    refine ⟨(cs.splitOn '/').map String.ofList, [""], some_front cs, ?_, ?_, ?_⟩
    · rw [pieces, text, ends, Text.splitOn_eq, List.append_assoc, List.singleton_append,
        List.splitOn_append_cons_self, alone]
      simp
    · rw [pieces, ends, Text.splitOn_eq, List.splitOn_append_cons_self]
      simp
    · simp
  · rw [if_neg slash] at text
    refine ⟨directory.pieces, [], directory.pieces_ne_nil, ?_, by simp, by simp⟩
    rw [pieces, text, Text.splitOn_eq, List.splitOn_append_cons_self, alone, pieces,
      Text.splitOn_eq]
    simp

/-- Empty pieces at the end are no names. -/
theorem names_of_cut {path : Path} {front back : List String} (cut : path.pieces = front ++ back)
    (silent : ∀ piece ∈ back, piece = "") : path.names = front.filter (· != "") := by
  have nothing : back.filter (· != "") = [] := by
    rw [List.filter_eq_nil_iff]
    intro piece listed
    simp [silent piece listed]
  rw [names, cut, List.filter_append, nothing, List.append_nil]

/-- The walk to a name in a directory is that to the directory and one step more. -/
theorem names_child (given : directory.text ≠ "") (plain : IsPlainName name) :
    (directory.child name).names = directory.names ++ [name] := by
  obtain ⟨front, back, _, cut, whole, silent⟩ := child_cut given plain
  rw [names_of_cut whole silent, names, cut, List.filter_append,
    List.filter_cons_of_pos (by simpa using plain.notEmpty), List.filter_nil]

theorem isAbsolute_child (given : directory.text ≠ "") (plain : IsPlainName name) :
    (directory.child name).isAbsolute = directory.isAbsolute := by
  have text := child_text given plain
  cases cs : directory.text.toList with
  | nil => exact absurd (String.toList_eq_nil_iff.1 cs) given
  | cons c cs' =>
    rw [isAbsolute, isAbsolute, text, cs]
    split <;> rfl

/-- A name in a directory is no directory by its path. -/
theorem getLast?_child (given : directory.text ≠ "") (plain : IsPlainName name) :
    (directory.child name).text.toList.getLast? ≠ some '/' := by
  cases ends : name.toList.getLast? with
  | none => exact absurd (by simpa using ends) plain.notEmpty
  | some c =>
    have last : (directory.child name).text.toList.getLast? = some c := by
      rw [child_text given plain]
      split
      · rw [List.getLast?_append, ends, Option.some_or]
      · rw [List.getLast?_append, List.getLast?_cons, ends, Option.getD_some, Option.some_or]
    rw [last]
    rintro ⟨⟩
    exact plain.noSlash (List.mem_of_getLast? ends)

theorem steps_child (given : directory.text ≠ "") (plain : IsPlainName name) :
    Tree.steps (directory.child name) = directory.names ++ [name] := by
  rw [Tree.steps, if_neg (getLast?_child given plain)]
  exact names_child given plain

/-- The last part of the path of a name is the name. -/
theorem fileName?_child (given : directory.text ≠ "") (plain : IsPlainName name) :
    (directory.child name).fileName? = some name := by
  obtain ⟨front, _, _, cut, _, _⟩ := child_cut given plain
  have part : partOf? name = some (.name name) := by
    simp [partOf?, plain.notEmpty, plain.notHere, plain.notAbove]
  have last : (directory.child name).parts.getLast? = some (.name name) := by
    rw [parts, cut, List.filterMap_append, List.filterMap_cons, part, List.filterMap_nil,
      ← List.append_assoc, List.getLast?_concat]
  rw [fileName?, last]

/-- A piece that counts for nothing is a dot to a walk, or is left out. -/
theorem eq_dot_of_isSilent {piece : String} (silent : isSilent piece = true)
    (counts : piece ≠ "") : piece = "." := by
  rw [isSilent, Bool.or_eq_true, decide_eq_true_eq, decide_eq_true_eq] at silent
  exact silent.resolve_left counts

/-- The path above a name in a directory, by its pieces: those of the directory up to the last one
that counts. -/
theorem parent?_of_cut {path : Path} {first : String} {rest : List String}
    (cut : path.pieces = first :: (rest ++ [name])) (plain : IsPlainName name) :
    path.parent? = some
      (match rest.reverse.dropWhile isSilent with
      | [] => ⟨if path.isAbsolute then "/" else first⟩
      | kept => ⟨"/".intercalate (first :: kept.reverse)⟩) := by
  have loud : isSilent name = false := by simp [isSilent, plain.notEmpty, plain.notHere]
  rw [parent?, cut]
  simp only [List.reverse_append, List.reverse_cons, List.reverse_nil, List.nil_append,
    List.cons_append, List.dropWhile_cons, loud, Bool.false_eq_true, if_false]
  cases rest.reverse.dropWhile isSilent with
  | nil => rfl
  | cons piece kept => rfl

/-- The path above a name in a directory leads where the path of the directory leads: they differ
in dots at the end. -/
theorem parent?_child (given : directory.text ≠ "") (plain : IsPlainName name) :
    ∃ above dots, (directory.child name).parent? = some above ∧ above.text ≠ "" ∧
      above.isAbsolute = directory.isAbsolute ∧ directory.names = above.names ++ dots ∧
      ∀ dot ∈ dots, dot = "." := by
  obtain ⟨front, back, full, cut, whole, silent⟩ := child_cut given plain
  obtain ⟨first, rest, rfl⟩ := List.exists_cons_of_ne_nil full
  have parent := parent?_of_cut cut plain
  have absolute := isAbsolute_child given plain
  have parted : rest = (rest.reverse.dropWhile isSilent).reverse ++
      (rest.reverse.takeWhile isSilent).reverse := by
    rw [← List.reverse_append, List.takeWhile_append_dropWhile, List.reverse_reverse]
  have noSlash : ∀ piece ∈ first :: rest, '/' ∉ piece.toList := by
    intro piece listed
    exact noSlash_of_mem_pieces (by rw [whole]; exact List.mem_append_left _ listed)
  have names := names_of_cut whole silent
  have dots : ∀ dot ∈ (rest.reverse.takeWhile isSilent).reverse.filter (· != ""), dot = "." := by
    intro dot listed
    obtain ⟨taken, counts⟩ := List.mem_filter.1 listed
    have quiet := List.all_eq_true.1 List.all_takeWhile dot (List.mem_reverse.1 taken)
    exact eq_dot_of_isSilent quiet (by simpa using counts)
  rw [← absolute]
  cases kept : rest.reverse.dropWhile isSilent with
  | nil =>
    -- nothing but dots stands between the first piece and the name
    rw [kept] at parent parted
    rw [List.reverse_nil, List.nil_append] at parted
    rw [names]
    by_cases root : (directory.child name).isAbsolute = true
    · obtain ⟨rfl, _⟩ := (isAbsolute_iff cut).1 root
      simp only [root, if_true] at parent
      refine ⟨⟨"/"⟩, _, parent, by decide, root.symm, ?_, dots⟩
      rw [← parted]
      rfl
    · have relative := mt (isAbsolute_iff cut).2 root
      simp only [root, Bool.false_eq_true, if_false] at parent
      have counts : first ≠ "" := by
        rintro rfl
        exact relative ⟨rfl, by simp⟩
      have alone : (⟨first⟩ : Path).pieces = [first] := by
        have made := pieces_intercalate (List.cons_ne_nil first [])
          (by simpa using noSlash first (List.mem_cons_self ..))
        rwa [String.intercalate_singleton] at made
      refine ⟨⟨first⟩, _, parent, counts, ?_, ?_, dots⟩
      · rw [Bool.eq_false_iff.2 root, Bool.eq_false_iff]
        exact fun h => ((isAbsolute_iff alone).1 h).2 rfl
      · rw [← parted, Path.names, alone, List.filter_cons_of_pos (by simpa using counts),
          List.filter_cons_of_pos (by simpa using counts)]
        rfl
  | cons piece kept' =>
    rw [kept] at parent parted
    have made : (⟨"/".intercalate (first :: (piece :: kept').reverse)⟩ : Path).pieces =
        first :: (piece :: kept').reverse := by
      refine pieces_intercalate (List.cons_ne_nil _ _) fun part listed => noSlash part ?_
      rw [parted, ← List.cons_append]
      exact List.mem_append_left _ listed
    refine ⟨_, _, parent, ?_, ?_, ?_, dots⟩
    · intro empty
      dsimp only at empty
      have one : (⟨""⟩ : Path).pieces = [""] := rfl
      have lengths := congrArg List.length made
      rw [empty, one] at lengths
      simp at lengths
    · rw [Bool.eq_iff_iff, isAbsolute_iff made, isAbsolute_iff cut]
      simp
    · rw [names, Path.names, made, ← List.filter_append, List.cons_append, ← parted]

end Child

end ProxyKeeper.Path
