import ProxyKeeper.Proofs.Nginx.SemanticVersion
import ProxyKeeper.Proofs.Text.Words

/-!
# Versions in reports of nginx

In a report the version is the first word behind the first slash, whatever stands around it. How a
version is written is the matter of its library. What is asked of the library is what it documents:
a version is displayed in the form in which it is parsed, that form is its only one, and it is a run
of ASCII characters of a few kinds. The last of these is what makes the form a word, so that what
follows it in a report does not matter.

## Main Definitions

* `Versions.IsDocumented` — versions that are parsed and displayed as documented
* `IsReported` — the word that a report of nginx has in the place of a version

## Main Results

* `semanticVersions_isDocumented` — semantic versions are
* `Versions.ofReport?_eq_some_iff` — reports
-/

namespace ProxyKeeper.Nginx

open Text

variable {cs back : List Char}

/-! ## Libraries of versions -/

/-- Whether the versions of a library are parsed and displayed as documented. -/
structure Versions.IsDocumented (versions : Versions) : Prop where
  /-- What is displayed is parsed again. -/
  parse_display : ∀ version, versions.parse? (versions.display version) = some version
  /-- What is parsed is what is displayed: a version has no other form. -/
  display_of_parse : ∀ text version, versions.parse? text = some version →
    versions.display version = text
  display_ne_empty : ∀ version, versions.display version ≠ ""
  /-- A version is displayed in letters, digits, hyphens, dots and plus signs. -/
  characters : ∀ version, ∀ c ∈ (versions.display version).toList,
    c.isAlphanum = true ∨ c ∈ ['-', '.', '+']

theorem not_isBlank_of_isAlphanum {c : Char} (inside : c.isAlphanum = true) :
    isBlank c = false := by
  have ascii : 48 ≤ c.toNat ∧ c.toNat ≤ 122 := by
    have ordered {c d : Char} (le : c ≤ d) : c.toNat ≤ d.toNat := UInt32.le_iff_toNat_le.1 le
    rcases SemanticVersion.isAlphanum_iff.1 inside with (upper | lower) | digit
    · exact ⟨le_trans (by decide) (ordered upper.1), le_trans (ordered upper.2) (by decide)⟩
    · exact ⟨le_trans (by decide) (ordered lower.1), le_trans (ordered lower.2) (by decide)⟩
    · exact ⟨le_trans (by decide) (ordered digit.1), le_trans (ordered digit.2) (by decide)⟩
  rw [← Bool.not_eq_true]
  intro blank
  simp only [isBlank, Bool.or_eq_true, beq_iff_eq, decide_eq_true_eq, Bool.and_eq_true] at blank
  omega

namespace Versions.IsDocumented

variable {versions : Versions} (documented : versions.IsDocumented)

include documented

/-- A version is parsed from the form in which it is displayed and from nothing else. -/
theorem parse?_eq_some_iff {text : String} {version : versions.Version} :
    versions.parse? text = some version ↔ text = versions.display version := by
  constructor
  · exact fun parsed => (documented.display_of_parse text version parsed).symm
  · rintro rfl
    exact documented.parse_display version

/-- A version is displayed as a word. -/
theorem isWord_display (version : versions.Version) :
    IsWord (versions.display version).toList where
  some_character none := documented.display_ne_empty version (String.toList_eq_nil_iff.1 none)
  dense c inside := by
    have other (c : Char) (sign : c ∈ ['-', '.', '+']) : isBlank c = false := by
      simp only [List.mem_cons, List.not_mem_nil, or_false] at sign
      obtain rfl | rfl | rfl := sign <;> rfl
    exact (documented.characters version c inside).elim not_isBlank_of_isAlphanum (other c)

end Versions.IsDocumented

/-- Semantic versions are parsed and displayed as documented. -/
theorem semanticVersions_isDocumented : semanticVersions.IsDocumented := by
  have parses (text : String) :
      semanticVersions.parse? text = SemanticVersion.read? text.toList := rfl
  have written (version : SemanticVersion) :
      (semanticVersions.display version).toList = version.write := String.toList_ofList
  refine ⟨fun version => ?_, fun text version parsed => ?_, fun version none => ?_,
    fun version c inside => ?_⟩
  · rw [parses, written]
    exact SemanticVersion.read?_write version
  · rw [← String.toList_inj, written]
    exact (SemanticVersion.read?_eq_some_iff.1 parsed).symm
  · have empty := congrArg String.toList none
    rw [written] at empty
    exact SemanticVersion.write_ne_nil version empty
  · rw [written] at inside
    exact SemanticVersion.mem_write inside

/-! ## Reports -/

theorem afterSlash?_eq_some_iff :
    afterSlash? cs = some back ↔ ∃ front, cs = front ++ '/' :: back ∧ '/' ∉ front := by
  induction cs with
  | nil => simp [afterSlash?]
  | cons c cs ih =>
    rw [afterSlash?]
    split
    next slash =>
      subst slash
      constructor
      · rintro same
        obtain rfl := Option.some.inj same
        exact ⟨[], rfl, List.not_mem_nil⟩
      · rintro ⟨_ | ⟨d, front⟩, same, noSlash⟩
        · rw [List.nil_append, List.cons.injEq] at same
          rw [same.2]
        · rw [List.cons_append, List.cons.injEq] at same
          exact absurd (same.1 ▸ List.mem_cons_self ..) noSlash
    next other =>
      rw [ih]
      constructor
      · rintro ⟨front, rfl, noSlash⟩
        exact ⟨c :: front, rfl, List.not_mem_cons_of_ne_of_not_mem (Ne.symm other) noSlash⟩
      · rintro ⟨_ | ⟨d, front⟩, same, noSlash⟩
        · rw [List.nil_append, List.cons.injEq] at same
          exact absurd same.1 other
        · rw [List.cons_append, List.cons.injEq] at same
          exact ⟨front, same.2, List.not_mem_of_not_mem_cons noSlash⟩

/-- Whether a word is the first one behind the first slash of a report. -/
def IsReported (report : String) (word : List Char) : Prop :=
  ∃ front gap rest, report.toList = front ++ '/' :: (gap ++ word ++ rest) ∧ '/' ∉ front ∧
    Stands gap word rest

namespace Versions

/-- A report tells a version exactly when its first word behind the first slash is the version as it
is displayed, whatever stands around it; so it does when that follows the name of nginx, up to white
space or the end. -/
theorem ofReport?_eq_some_iff (versions : Versions) (documented : versions.IsDocumented)
    (version : versions.Version) :
    (∀ report, versions.ofReport? report = some version ↔
      IsReported report (versions.display version).toList) ∧
    ∀ rest : String, (∀ c ∈ rest.toList.head?, isBlank c = true) →
      versions.ofReport? ("nginx version: nginx/" ++ versions.display version ++ rest) =
        some version := by
  have tells (report : String) :
      versions.ofReport? report = some version ↔
        IsReported report (versions.display version).toList := by
    simp only [ofReport?, Option.bind_eq_bind, Option.bind_eq_some_iff,
      documented.parse?_eq_some_iff, afterSlash?_eq_some_iff, head?_words_iff]
    constructor
    · rintro ⟨_, ⟨front, split, noSlash⟩, word, ⟨gap, rest, stands, rfl⟩, displayed⟩
      rw [← displayed, String.toList_ofList]
      exact ⟨front, gap, rest, split, noSlash, stands⟩
    · rintro ⟨front, gap, rest, split, noSlash, stands⟩
      exact ⟨_, ⟨front, split, noSlash⟩, _, ⟨gap, rest, stands, rfl⟩, String.ofList_toList⟩
  refine ⟨tells, fun rest ends => (tells _).2 ?_⟩
  refine ⟨"nginx version: nginx".toList, [], rest.toList, ?_, by decide,
    List.forall_mem_nil _, documented.isWord_display version, ends⟩
  simp

/-- A report with more slashes behind the version, and a semantic version with all its parts. -/
theorem ofReport?_eq_some_iff_openresty :
    let version : SemanticVersion :=
      { major := 1, minor := 21, patch := 0, release := [['r', 'c', '-', '1'], ['0']],
        build := [['0', '0', '7']] }
    semanticVersions.IsDocumented ∧ (∀ c ∈ " (a/1.2.3)".toList.head?, isBlank c = true) ∧
      semanticVersions.display version = "1.21.0-rc-1.0+007" ∧
      semanticVersions.ofReport?
        ("nginx version: nginx/" ++ semanticVersions.display version ++ " (a/1.2.3)") =
          some version := by
  intro version
  have ends : ∀ c ∈ " (a/1.2.3)".toList.head?, isBlank c = true := by
    rintro _ ⟨⟩
    rfl
  have tells := ofReport?_eq_some_iff semanticVersions semanticVersions_isDocumented version
  exact ⟨semanticVersions_isDocumented, ends, by decide, tells.2 _ ends⟩

end Versions

end ProxyKeeper.Nginx
