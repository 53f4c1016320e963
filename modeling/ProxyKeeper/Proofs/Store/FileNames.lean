import Mathlib.Data.String.Basic
import ProxyKeeper.Proofs.Files.Paths
import ProxyKeeper.Store.Basic

/-!
# The names of rule files

A rule file is found under the id of its rule and nowhere else: its name is one piece of a path,
different ids have different names, and the id can be read off the name again. Names that files are
written under before they are moved begin with a dot, so they are never mistaken for rule files.

## Main Results

* `Store.isPlainName_fileName`, `Store.isPlainName_temporaryName` — names that are one piece
* `Store.fileName_injective` — different rules have different files
* `Store.ruleId?_fileName`, `Store.eq_fileName_of_ruleId?` — the id of a file and back
* `Store.temporaryName_ne_fileName` — a file that is being written is no rule file
-/

namespace ProxyKeeper.Store

variable {id : String}

/-- The characters of an id. -/
theorem isIdCharacter_of_mem (h : isRuleId id = true) {c : Char} (listed : c ∈ id.toList) :
    isIdCharacter c = true := by
  rw [isRuleId, Bool.and_eq_true] at h
  exact List.all_eq_true.1 h.2 c listed

theorem ne_empty_of_isRuleId (h : isRuleId id = true) : id ≠ "" := by
  rintro rfl
  exact absurd h (by decide)

/-- An id holds no character that is none of ids. -/
theorem notMem_of_isRuleId (h : isRuleId id = true) {c : Char} (other : isIdCharacter c = false) :
    c ∉ id.toList := by
  intro listed
  have good := isIdCharacter_of_mem h listed
  rw [other] at good
  cases good

theorem toList_fileName (id : String) : (fileName id).toList = id.toList ++ ".conf".toList := by
  show (id ++ "." ++ "conf").toList = _
  rw [String.append_assoc, String.toList_append]
  rfl

/-- The name of a rule file is one piece of a path. -/
theorem isPlainName_fileName (h : isRuleId id = true) : Path.IsPlainName (fileName id) := by
  have long : 5 ≤ (fileName id).toList.length := by
    rw [toList_fileName, List.length_append]
    exact Nat.le_add_left ..
  refine ⟨?_, ?_, ?_, ?_⟩
  · rw [toList_fileName, List.mem_append, not_or]
    exact ⟨notMem_of_isRuleId h (by decide), by decide⟩
  all_goals
    intro same
    rw [same] at long
    revert long
    decide

/-- Where every character is one byte, there are as many bytes as characters. -/
theorem utf8Len_eq_length {cs : List Char} (small : ∀ c ∈ cs, c.val ≤ 127) :
    String.utf8Len cs = cs.length := by
  induction cs with
  | nil => rfl
  | cons c cs ih =>
    obtain ⟨first, others⟩ := List.forall_mem_cons.1 small
    rw [String.utf8Len_cons, ih others, Char.utf8Size_eq_one_iff.2 first, List.length_cons]

/-- The name of a rule file is not too long. -/
theorem utf8ByteSize_fileName (h : isRuleId id = true) :
    (fileName id).utf8ByteSize ≤ Tree.maximalNameSize := by
  have small : ∀ c ∈ (fileName id).toList, c.val ≤ 127 := by
    rw [toList_fileName, List.forall_mem_append]
    refine ⟨fun c listed => ?_, by simp⟩
    have good := isIdCharacter_of_mem h listed
    simp only [isIdCharacter, isAlphanumeric, Bool.or_eq_true, Bool.and_eq_true,
      decide_eq_true_eq, beq_iff_eq] at good
    rcases good with (((⟨_, le⟩ | ⟨_, le⟩) | ⟨_, le⟩) | rfl) | rfl
    · exact UInt32.le_trans le (by decide)
    · exact UInt32.le_trans le (by decide)
    · exact UInt32.le_trans le (by decide)
    · decide
    · decide
  have length : id.toList.length ≤ maximalIdLength := by
    simp only [isRuleId, Bool.and_eq_true, decide_eq_true_eq] at h
    exact h.1.2
  rw [← String.ofList_toList (s := fileName id), String.utf8ByteSize_ofList,
    utf8Len_eq_length small, toList_fileName, List.length_append]
  exact Nat.le_trans (Nat.add_le_add_right length _) (by decide)

/-- Different rules have different files. -/
theorem fileName_injective : Function.Injective fileName := by
  intro id id' same
  have texts : (fileName id).toList = (fileName id').toList := by rw [same]
  rw [toList_fileName, toList_fileName] at texts
  exact String.toList_injective (List.append_cancel_right texts)

theorem fileName_ne_stream (id : String) : fileName id ≠ "stream" := by
  intro same
  have last : (fileName id).toList.getLast? = some 'f' := by
    rw [toList_fileName, List.getLast?_append]
    rfl
  rw [same] at last
  revert last
  decide

/-! ## Names while a file is written -/

theorem toList_temporaryName (name fresh : String) :
    (temporaryName name fresh).toList =
      '.' :: (name.toList ++ '.' :: (fresh.toList ++ ".tmp".toList)) := by
  simp only [temporaryName, String.toList_append, List.append_assoc]
  rfl

theorem isPlainName_temporaryName {name fresh : String} (plain : '/' ∉ name.toList)
    (plainFresh : '/' ∉ fresh.toList) : Path.IsPlainName (temporaryName name fresh) := by
  have long : 6 ≤ (temporaryName name fresh).toList.length := by
    rw [toList_temporaryName]
    simp only [List.length_cons, List.length_append]
    have tmp : ".tmp".toList.length = 4 := rfl
    omega
  refine ⟨?_, ?_, ?_, ?_⟩
  · rw [toList_temporaryName]
    simp only [List.mem_cons, List.mem_append, plain, plainFresh, false_or, not_or]
    decide
  all_goals
    intro same
    rw [same] at long
    revert long
    decide

/-- A file that is being written is no rule file. -/
theorem temporaryName_ne_fileName (name fresh : String) (h : isRuleId id = true) :
    temporaryName name fresh ≠ fileName id := by
  intro same
  have texts : (temporaryName name fresh).toList = (fileName id).toList := by rw [same]
  rw [toList_temporaryName, toList_fileName] at texts
  cases chars : id.toList with
  | nil => exact ne_empty_of_isRuleId h (String.toList_eq_nil_iff.1 chars)
  | cons c cs =>
    rw [chars, List.cons_append, List.cons.injEq] at texts
    have dot : '.' ∈ id.toList := by
      rw [chars, texts.1]
      exact List.mem_cons_self ..
    exact notMem_of_isRuleId h (by decide) dot

theorem temporaryName_ne_stream (name fresh : String) : temporaryName name fresh ≠ "stream" := by
  intro same
  have texts : (temporaryName name fresh).toList = "stream".toList := by rw [same]
  rw [toList_temporaryName] at texts
  exact absurd (List.cons.inj texts).1 (by decide)

/-! ## The id of a file -/

/-- The id of a rule can be read off the name of its file. -/
theorem ruleId?_fileName (h : isRuleId id = true) : ruleId? (fileName id) = some id := by
  have noDot : '.' ∉ id.toList := notMem_of_isRuleId h (by decide)
  have cut : Text.splitOn '.' (fileName id).toList = [id.toList, "conf".toList] := by
    rw [toList_fileName, Text.splitOn_eq]
    show List.splitOn '.' (id.toList ++ '.' :: "conf".toList) = _
    rw [List.splitOn_append_cons_self, List.splitOn_eq_singleton noDot]
    rfl
  have stem : ".".intercalate [String.ofList id.toList] = id := by
    rw [String.intercalate_singleton, String.ofList_toList]
  have full : id.isEmpty = false := by simpa using ne_empty_of_isRuleId h
  rw [ruleId?, Path.cutName, cut]
  simp only [List.reverse_cons, List.reverse_nil, List.nil_append, List.cons_append,
    List.map_cons, List.map_nil, stem, full, Bool.false_eq_true, if_false, h]
  rfl

/-- The name that an id is read off is that of its file. -/
theorem eq_fileName_of_ruleId? {name : String} (h : ruleId? name = some id) :
    name = fileName id := by
  rw [ruleId?] at h
  split at h
  next stem extension cut =>
    split at h
    next valid =>
      cases h
      obtain rfl : extension = ruleFileExtension := by
        simpa using (Bool.and_eq_true_iff.1 valid).1
      -- the pieces between the dots are put together again
      have whole : name = ".".intercalate ((Text.splitOn '.' name.toList).map String.ofList) := by
        refine String.toList_injective ?_
        rw [String.toList_intercalate, List.map_map, Text.splitOn_eq]
        have same : String.toList ∘ String.ofList = fun cs => cs :=
          funext fun _ => String.toList_ofList
        rw [same, List.map_id']
        exact (List.intercalate_splitOn '.').symm
      rw [Path.cutName] at cut
      split at cut
      next => cases cut
      next => cases cut
      next last front several pieces =>
        dsimp only at cut
        split at cut
        next => cases cut
        next =>
          obtain ⟨stem, extension⟩ := Prod.mk.inj cut
          have order : Text.splitOn '.' name.toList = front.reverse ++ [last] := by
            rw [← List.reverse_reverse (Text.splitOn _ _), pieces, List.reverse_cons]
          have some : front.reverse.map String.ofList ≠ [] := by simpa using several
          rw [whole, order, List.map_append, String.intercalate_append_of_ne_nil some (by simp),
            stem, List.map_singleton, String.intercalate_singleton, Option.some.inj extension]
          rfl
    next => cases h
  next => cases h

/-- What is read off a name is an id. -/
theorem isRuleId_of_ruleId? {name : String} (h : ruleId? name = some id) :
    isRuleId id = true := by
  rw [ruleId?] at h
  split at h
  next =>
    split at h
    next valid =>
      cases h
      exact (Bool.and_eq_true_iff.1 valid).2
    next => cases h
  next => cases h

end ProxyKeeper.Store
