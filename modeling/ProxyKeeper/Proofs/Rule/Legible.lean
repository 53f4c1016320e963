import ProxyKeeper.Proofs.Nginx.Printed
import ProxyKeeper.Proofs.Rule.Contexts
import ProxyKeeper.Proofs.Rule.ReadBack

/-!
# Printing is reversible

A document whose names are plain words is read back from its text, and the document of a valid rule
is one of these: what may stand in its blocks is known by name, and its title, the only comment,
stays on its line. The names that the rule shares with the main configuration are arguments, and
arguments may be anything, so this does not depend on how these names are chosen.

## Main Definitions

* `Label.isQuiet` — what nodes can be without quotes in their names

## Main Results

* `areLegible_of_obeys` — documents that hold what their quotas know
* `Rule.areLegible_of_document` — the document of a valid rule
* `Document.print_reversible` — the text of a document gives the document back
-/

namespace ProxyKeeper

open Nginx

namespace Nginx

/-- Whether nodes are legible for their name alone; what a comment says is not in its label. -/
def Label.isQuiet : Label → Bool
  | .directive name => !needsQuotes name.toList
  | .block name => !needsQuotes name.toList
  | .comment => false
  | .blank => true

/-- A document in which quiet nodes stand at the top and quotas know quiet nodes only is legible:
by induction on the depth, what is in a block is known to the quotas of the block. -/
theorem areLegible_of_obeys {quotasOf : String → Quotas}
    (quiet : ∀ name, ∀ label ∈ (quotasOf name).map Prod.fst, label.isQuiet = true) :
    ∀ (nodes : List Node) (_ : Obeys quotasOf nodes)
      (_ : ∀ label ∈ labels nodes, label.isQuiet = true), areLegible nodes = true
  | [], _, _ => rfl
  | .directive name args :: nodes, obeys, top => by
    obtain ⟨first, others⟩ := List.forall_mem_cons.1 top
    rw [areLegible, areLegible_of_obeys quiet nodes obeys.of_cons others, Bool.and_true]
    exact first
  | .block name args children :: nodes, obeys, top => by
    obtain ⟨first, others⟩ := List.forall_mem_cons.1 top
    have fits : Fits (quotasOf name) (labels children) := obeys.fits_head
    have inside := areLegible_of_obeys quiet children obeys.of_head fun label listed =>
      quiet name label (fits.known label listed)
    rw [areLegible, areLegible_of_obeys quiet nodes obeys.of_cons others, Node.isLegible, inside,
      Bool.and_true, Bool.and_true]
    exact first
  | .comment text :: nodes, _, top => absurd (top .comment (List.mem_cons_self ..)) (by decide)
  | .blank :: nodes, obeys, top => by
    rw [areLegible, areLegible_of_obeys quiet nodes obeys.of_cons (List.forall_mem_cons.1 top).2]
    rfl

end Nginx

namespace Rule

variable {rule : Rule} {options : RenderOptions}

/-- What may stand in the blocks of a rule's document has a plain name. -/
theorem isQuiet_quotasOf (rule : Rule) (name : String) :
    ∀ label ∈ (rule.quotasOf name).map Prod.fst, label.isQuiet = true := by
  unfold quotasOf
  split
  · rw [serverQuotas]
    cases rule.context <;> simp only [List.map_cons, List.map_nil] <;> decide
  · rw [locationQuotas]
    simp only [List.map_cons, List.map_nil]
    decide
  · rw [groupQuotas]
    cases rule.context <;> simp only [List.map_cons, List.map_nil] <;> decide
  · decide
  · decide
  · decide

/-- Behind the title of a rule's document there is no comment, and what stands there has a plain
name. -/
theorem isQuiet_of_topQuotas {nodes : List Node}
    (fits : Fits rule.topQuotas (labels (rule.titleNode :: nodes))) :
    ∀ label ∈ labels nodes, label.isQuiet = true := by
  intro label listed
  have entry : (Label.comment, Quota.times 1) ∈ rule.topQuotas := by
    rw [topQuotas]
    cases rule.context <;> exact List.mem_cons_self ..
  have one : (Label.comment :: labels nodes).count Label.comment = 1 := fits.counted _ entry
  rw [List.count_cons_self, Nat.add_eq_right, List.count_eq_zero] at one
  have known := fits.known label (List.mem_cons_of_mem _ listed)
  have quiet : ∀ label ∈ rule.topQuotas.map Prod.fst, label ≠ .comment → label.isQuiet = true := by
    rw [topQuotas]
    cases rule.context <;> decide
  refine quiet label known ?_
  rintro rfl
  exact one listed

/-- The document of a valid rule is legible, whatever names it shares with the main
configuration. -/
theorem areLegible_of_document (valid : rule.validate = .ok ()) {document : Document}
    (made : rule.document options = .ok document) : areLegible document = true := by
  have keeps := keepsContexts_of_document valid made
  obtain ⟨nodes, rfl⟩ : ∃ nodes, document = rule.titleNode :: nodes := by
    rcases eq_of_document valid made with ⟨_, rfl⟩ | ⟨_, port, _, rfl⟩ <;> exact ⟨_, rfl⟩
  have title := areLegible_of_arePlain _ (draws_titleNode valid).plain
  rw [areLegible, areLegible, Bool.and_true] at title
  rw [areLegible, title, areLegible_of_obeys rule.isQuiet_quotasOf nodes keeps.inside.of_cons
    (isQuiet_of_topQuotas keeps.top)]
  rfl

end Rule

/-- The text of a legible document gives the document back, so different documents have different
texts. The reader takes lines word by word, as it says. The documents of valid rules are legible. -/
theorem Document.print_reversible :
    (∀ document : Document, areLegible document = true →
      Document.readPrinted? document.render = some document) ∧
    (∀ document other : Document, areLegible document = true → areLegible other = true →
      document ≠ other → document.render ≠ other.render) ∧
    (∀ (name : String) (words : List (List Char)) (args : List String),
      needsQuotes name.toList = false → List.Forall₂ PrintedReader.ReadsAs words args →
      Document.readPrinted?
          (String.ofList (name.toList ++ words.flatMap (' ' :: ·) ++ [';', '\n'])) =
        some [.directive name args] ∧
      Document.readPrinted?
          (String.ofList
            (name.toList ++ words.flatMap (' ' :: ·) ++ [' ', '{', '\n'] ++ ['}', '\n'])) =
        some [.block name args []]) ∧
    ∀ (rule : Rule) (options : RenderOptions) (document : Document), rule.validate = .ok () →
      rule.document options = .ok document → areLegible document = true := by
  refine ⟨fun document legible => Document.readPrinted?_render legible,
    fun document other legible otherLegible apart same => ?_,
    fun name words args plain means => ⟨?_, ?_⟩,
    fun rule options document valid made => Rule.areLegible_of_document valid made⟩
  · exact apart ((Document.render_inj legible otherLegible).1 same)
  · exact Document.readPrinted?_directive plain means
  · exact Document.readPrinted?_block plain means

/-- Arguments may be empty, hold quotes and line breaks, or be one where another document has two;
a rule may share names that are no words. -/
theorem Document.print_reversible_quotes :
    let document : Document :=
      [.comment "a \"b\" \x7b #", .blank, .directive "x" ["", "say \"hi\"", "\\", "1\n2 ;"],
        .block "y" [] [.block "z" ["a b"] [], .blank]]
    let other : Document := [.directive "x" ["a", "b"]]
    let rule : Rule :=
      { id := "web", name := "a; b", targetContainer := "web", targetPort := 80,
        healthCheck := some {}, created := .epoch }
    let options : RenderOptions := { upstreamStem := "\x7b two words" }
    let words : List (List Char) := [['"', '\\', '"', ' ', '"'], ['a', '"', '\\']]
    areLegible document = true ∧ areLegible other = true ∧
      Document.readPrinted? document.render = some document ∧ document.render ≠ other.render ∧
      Document.readPrinted?
          (String.ofList ("x".toList ++ words.flatMap (' ' :: ·) ++ [';', '\n'])) =
        some [.directive "x" ["\" ", "a\"\\"]] ∧
      rule.validate = .ok () ∧
      ∃ document, rule.document options = .ok document ∧ areLegible document = true := by
  intro document other rule options words
  have legible : areLegible document = true := by decide
  have otherLegible : areLegible other = true := by decide
  have apart : document ≠ other := fun same => absurd (congrArg List.length same) (by decide)
  have means : List.Forall₂ PrintedReader.ReadsAs words ["\" ", "a\"\\"] :=
    .cons (.quoted (.escaped '"' (.plain (by decide) .nil)))
      (.cons (.bare (by decide) (by simp [IsStop])) .nil)
  have valid : rule.validate = .ok () := by decide
  obtain ⟨made, done, _⟩ := Rule.exists_document_of_validate valid options
  have reversible := Document.print_reversible
  exact ⟨legible, otherLegible, reversible.1 document legible,
    reversible.2.1 document other legible otherLegible apart,
    (reversible.2.2.1 "x" words _ (by decide) means).1, valid, made, done,
    reversible.2.2.2 rule options made valid done⟩

end ProxyKeeper
