import ProxyKeeper.Proofs.Rule.Drawn
import ProxyKeeper.Proofs.Rule.Specified

/-!
# The lines of a rule's text

The text of a valid rule has as many lines as its document, whatever stands in the fields of the
rule: neither of the two ends of lines gets through validation into a word of the document. The end
of a text does get through in one place. Paths of requests must be free of white space and of what
nginx gives a meaning, and the character with code zero is neither; all other checks of texts
refuse it.

## Main Definitions

* `Rule.paths` — the paths of requests that go into the document of a rule

## Main Results

* `Rule.mem_charactersOf_document_iff` — what breaks a line comes from the paths
* `Rule.unbroken_compile` — the text of a valid rule has the lines of its document and no other
  end of line, and the end of a text exactly when a path has one
* `Rule.not_unbroken_compile` — a valid rule with such a path
-/

namespace ProxyKeeper

open Nginx

/-- The paths of requests that go into the document of a rule. -/
def Rule.paths (rule : Rule) : List String :=
  match rule.context with
  | .http => rule.sourcePath :: rule.healthCheck.toList.map (·.path)
  | .stream => []

/-! ## Free texts stay on their lines -/

namespace AdvancedConfig

variable {settings : AdvancedConfig} {text : String}

theorem line_of_mem_corsTexts (spec : settings.IsSpecified) (listed : text ∈ settings.corsTexts) :
    Form.Line text := by
  rw [corsTexts] at listed
  split at listed
  next => cases listed
  next cors enabled =>
    have given : cors ∈ settings.cors := (Option.filter_eq_some_iff.1 enabled).1
    simp only [List.mem_cons, List.not_mem_nil, or_false] at listed
    rcases listed with rfl | rfl | rfl
    · exact spec.allowOrigin cors given
    · exact spec.allowMethods cors given
    · exact spec.allowHeaders cors given

theorem line_of_mem_rewriteTexts (spec : settings.IsSpecified)
    (listed : text ∈ settings.rewriteTexts) : Form.Line text := by
  obtain ⟨rewrite, given, listed⟩ := List.mem_flatMap.1 listed
  simp only [List.mem_cons, List.not_mem_nil, or_false] at listed
  rcases listed with rfl | rfl
  · exact (spec.rewriteRules rewrite given).pattern
  · exact (spec.rewriteRules rewrite given).replacement

end AdvancedConfig

namespace Rule

variable {rule : Rule} {options : RenderOptions} {text : String}

theorem line_of_mem_certificateTexts (spec : rule.IsSpecified)
    (listed : text ∈ rule.certificateTexts) : Form.Line text := by
  rw [certificateTexts] at listed
  split at listed
  next tls =>
    obtain ⟨certificate, given, _, line⟩ := spec.tls.certificate (isTls_iff.1 tls)
    obtain ⟨key, given', _, line'⟩ := spec.tls.key (isTls_iff.1 tls)
    rw [Option.mem_def.1 given, Option.mem_def.1 given'] at listed
    simp only [Option.toList_some, List.cons_append, List.nil_append, List.mem_cons,
      List.not_mem_nil, or_false] at listed
    rcases listed with rfl | rfl
    · exact line
    · exact line'
  next => cases listed

/-- Every free text of a valid rule was checked for ends of lines and texts. -/
theorem line_of_mem_freeTexts (spec : rule.IsSpecified) (listed : text ∈ rule.freeTexts) :
    Form.Line text := by
  have ofSettings {texts : AdvancedConfig → List String}
      (line : ∀ settings ∈ rule.advanced, text ∈ texts settings → Form.Line text)
      (listed : text ∈ rule.advanced.elim [] texts) : Form.Line text := by
    cases given : rule.advanced with
    | none => rw [given] at listed; cases listed
    | some settings => rw [given] at listed; exact line settings given listed
  have ofHeaders {headers : HeaderMap} (spec : headers.IsSpecified)
      (listed : text ∈ headers.entries.map (·.2)) : Form.Line text := by
    obtain ⟨header, given, rfl⟩ := List.mem_map.1 listed
    exact (spec header given).2
  cases context : rule.context with
  | http =>
    simp only [freeTexts_of_http context, List.mem_append] at listed
    rcases listed with certificate | ((request | response) | cors) | rewrite
    · exact line_of_mem_certificateTexts spec certificate
    · exact ofHeaders spec.headers request
    · exact ofHeaders spec.responseHeaders response
    · exact ofSettings (fun settings given =>
        AdvancedConfig.line_of_mem_corsTexts (spec.advanced settings given)) cors
    · exact ofSettings (fun settings given =>
        AdvancedConfig.line_of_mem_rewriteTexts (spec.advanced settings given)) rewrite
  | stream =>
    rw [freeTexts_of_stream context] at listed
    cases listed

/-! ## What breaks a line -/

/-- Nothing in front of a path breaks a line, and neither does the path that stands for none. -/
theorem mem_pathWords_iff (http : rule.context = .http) {c : Char}
    (breaks : isLineBreaker c = true) :
    (∃ word ∈ rule.pathWords, c ∈ word.toList) ↔ ∃ path ∈ rule.paths, c ∈ path.toList := by
  have disruptive := isDisruptive_of_isLineBreaker breaks
  have apart {s : String} (harmless : IsHarmless s) : c ∉ s.toList := harmless.notMem disruptive
  have source : c ∈ rule.effectivePath.toList ↔ c ∈ rule.sourcePath.toList := by
    rw [effectivePath]
    split_ifs with none
    · exact iff_of_false (apart (by decide)) (apart (.of_isEmpty none))
    · exact Iff.rfl
  have asked (path : String) : c ∈ (setting "uri" path).toList ↔ c ∈ path.toList := by
    rw [setting, String.toList_append, List.mem_append]
    exact or_iff_right (apart (by decide))
  simp only [pathWords, paths, http, List.exists_mem_cons_iff, List.mem_map,
    exists_exists_and_eq_and, source, asked]

/-- A character that breaks a line is in the texts of a valid rule's document exactly when a path
has it. -/
theorem mem_charactersOf_document_iff (valid : rule.validate = .ok ())
    (names : HarmlessNames options) {document : Document}
    (made : rule.document options = .ok document) {c : Char} (breaks : isLineBreaker c = true) :
    c ∈ charactersOf document ↔ ∃ path ∈ rule.paths, c ∈ path.toList := by
  have spec := validate_eq_ok_iff_isSpecified.1 valid
  rw [(draws_document valid names made).mem_charactersOf_iff breaks, givenWords]
  cases context : rule.context with
  | http =>
    rw [← mem_pathWords_iff context breaks]
    -- the free texts were checked for just these characters, so the paths alone are left
    simp only [List.mem_append, or_and_right, exists_or]
    refine or_iff_left ?_
    rintro ⟨text, listed, inside⟩
    have line := isOneLine_iff_unbroken.1 (isOneLine_iff.2 (line_of_mem_freeTexts spec listed))
    rw [line c inside] at breaks
    cases breaks
  | stream => simp only [paths, context]

/-- White space has no place in a path. -/
theorem notMem_of_mem_paths (spec : rule.IsSpecified) {path : String} (listed : path ∈ rule.paths)
    {c : Char} (blank : Text.isBlank c = true) : c ∉ path.toList := by
  have ofForm (form : Form.Path path) : c ∉ path.toList := by
    intro inside
    rw [(form.2 c inside).1] at blank
    cases blank
  rw [paths] at listed
  split at listed
  next =>
    rcases List.mem_cons.1 listed with rfl | asked
    · rcases spec.sourcePath with none | form
      · rw [none]
        exact List.not_mem_nil
      · exact ofForm form
    · obtain ⟨check, given, rfl⟩ := List.mem_map.1 asked
      exact ofForm (spec.healthCheck check (Option.mem_toList.1 given)).path
  next => cases listed

/-- A valid rule is compiled under a valid configuration to a text with one end of line for each
line of its document and no carriage return. The end of a text is in it exactly when a path of the
rule has one. -/
theorem unbroken_compile (rule : Rule) (config : ManagerConfig) (validRule : rule.validate = .ok ())
    (validConfig : config.validate = .ok ()) :
    ∃ document, rule.document config.renderOptions = .ok document ∧
      rule.compile config.renderOptions = .ok document.render ∧
      '\r' ∉ document.render.toList ∧
      document.render.toList.count '\n' = lineCount document ∧
      ('\x00' ∈ document.render.toList ↔ ∃ path ∈ rule.paths, '\x00' ∈ path.toList) := by
  obtain ⟨document, made, compiled⟩ := exists_document_of_validate validRule config.renderOptions
  have spec := validate_eq_ok_iff_isSpecified.1 validRule
  have broken {c : Char} (breaks : isLineBreaker c = true) :=
    mem_charactersOf_document_iff validRule (harmlessNames_of_validate validConfig) made breaks
  have whole {c : Char} (breaks : isLineBreaker c = true) (blank : Text.isBlank c = true) :
      c ∉ charactersOf document := by
    rw [broken breaks]
    rintro ⟨path, listed, inside⟩
    exact notMem_of_mem_paths spec listed blank inside
  refine ⟨document, made, compiled, ?_, document.count_newline_render (whole rfl rfl), ?_⟩
  · rw [document.mem_render_iff rfl (by decide)]
    exact whole rfl rfl
  · rw [document.mem_render_iff rfl (by decide)]
    exact broken rfl

/-- A rule with tabs, quotes and backslashes in its free texts, and a path to ask at. -/
theorem unbroken_compile_tabs :
    let rule : Rule :=
      { id := "web", name := "a\tb", targetContainer := "web", targetPort := 80, sslEnabled := true,
        sslCertPath := some "/tls/a b.pem", sslKeyPath := some "\\n", sourcePath := "/a",
        headers := .ofList [("X-Text", "\"\t\\r\"")],
        healthCheck := some { path := "/healthz" }, created := .epoch }
    let config : ManagerConfig := {}
    rule.validate = .ok () ∧ config.validate = .ok () ∧
      ∃ document, rule.document config.renderOptions = .ok document ∧
        rule.compile config.renderOptions = .ok document.render ∧
        '\r' ∉ document.render.toList ∧
        document.render.toList.count '\n' = lineCount document ∧
        ('\x00' ∈ document.render.toList ↔ ∃ path ∈ rule.paths, '\x00' ∈ path.toList) :=
  ⟨by decide, by decide, unbroken_compile _ _ (by decide) (by decide)⟩

/-- A path with the end of a text in it passes validation and goes into the text. -/
theorem not_unbroken_compile :
    let rule : Rule :=
      { id := "web", targetContainer := "web", targetPort := 80, sourcePath := "/\x00",
        created := .epoch }
    let config : ManagerConfig := {}
    rule.validate = .ok () ∧ config.validate = .ok () ∧
      ∃ text, rule.compile config.renderOptions = .ok text ∧ '\x00' ∈ text.toList := by
  refine ⟨by decide, by decide, _, rfl, ?_⟩
  rw [Document.render, String.toList_ofList]
  decide

end Rule

end ProxyKeeper
