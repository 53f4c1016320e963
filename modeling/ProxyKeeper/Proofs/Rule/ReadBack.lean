import ProxyKeeper.Proofs.Rule.Drawn

/-!
# Reading the configuration of a rule

The document of a valid rule hangs on its free texts and on nothing else, for all else is free of
backslashes. So nginx reads the text of the rule as the document exactly when it reads each free
text as what it is. A free text that is written without quotes and holds a live backslash breaks the
document; if the backslash is its last character, the word takes in the semicolon behind it and the
directive swallows the next one.

## Main Results

* `Rule.carries_document` — the document of a valid rule hangs on its free texts
* `Rule.read?_compile_iff` — the text of a valid rule is read as its document exactly when its free
  texts are faithful
* `not_read?_compile` — a valid rule whose text is read as something else
-/

namespace ProxyKeeper

open Nginx

namespace Rule

variable {rule : Rule} {options : RenderOptions}

/-- Paths hold no backslash. -/
theorem noBackslash_pathWords (valid : rule.validate = .ok ()) :
    ∀ word ∈ rule.pathWords, NoBackslash word := by
  rw [pathWords, List.forall_mem_cons, List.forall_mem_map]
  constructor
  · rw [effectivePath]
    split_ifs with root
    · decide
    · exact .of_isSafePath ((sourcePath_of_validate valid).resolve_left root)
  · intro check given
    exact .append (by decide)
      (.of_isSafePath (isSafePath_of_healthCheck valid (Option.mem_toList.1 given)))

/-- What is faithful does not hang on the words with paths. -/
theorem allFaithful_givenWords (valid : rule.validate = .ok ()) :
    AllFaithful rule.givenWords ↔ AllFaithful rule.freeTexts := by
  rw [givenWords]
  cases context : rule.context with
  | http =>
    have paths : AllFaithful rule.pathWords := fun word listed =>
      (noBackslash_pathWords valid word listed).isFaithful
    rw [AllFaithful, List.forall_mem_append]
    exact and_iff_right paths
  | stream => rw [freeTexts_of_stream context]

/-- The document of a valid rule hangs on its free texts. -/
theorem carries_document (valid : rule.validate = .ok ()) (names : HarmlessNames options)
    {document : Document} (made : rule.document options = .ok document) :
    Carries document rule.freeTexts where
  plain := (draws_document valid names made).plain
  faithful := by
    rw [← allFaithful_givenWords valid]
    exact (draws_document valid names made).arguments.forall_iff fun _ harmless =>
      (NoBackslash.of_isHarmless harmless).isFaithful

/-- A valid rule is compiled under a valid configuration, and nginx reads the text as the document
of the rule exactly when each free text needs quotes or holds no live backslash. -/
theorem read?_compile_iff (rule : Rule) (config : ManagerConfig)
    (validRule : rule.validate = .ok ()) (validConfig : config.validate = .ok ()) :
    ∃ document, rule.document config.renderOptions = .ok document ∧
      rule.compile config.renderOptions = .ok document.render ∧
      (Document.read? document.render = some document.effective ↔
        ∀ text ∈ rule.freeTexts, isFaithful text.toList = true) := by
  obtain ⟨document, made, compiled⟩ := exists_document_of_validate validRule config.renderOptions
  refine ⟨document, made, compiled, ?_⟩
  have names := harmlessNames_of_validate validConfig
  exact (carries_document validRule names made).read?_render_iff

/-- A rule with quotes, a backslash before a digit and a certificate path in its free texts. -/
theorem read?_compile_iff_mixed :
    let rule : Rule :=
      { id := "web", targetContainer := "web", targetPort := 80, sslEnabled := true,
        sslCertPath := some "/tls/a b.pem", sslKeyPath := some "/tls/key.pem",
        headers := .ofList [("X-Path", "a;\\ b"), ("X-Digit", "\\1")], created := .epoch }
    let config : ManagerConfig := {}
    rule.validate = .ok () ∧ config.validate = .ok () ∧
      ∃ document, rule.document config.renderOptions = .ok document ∧
        rule.compile config.renderOptions = .ok document.render ∧
        (Document.read? document.render = some document.effective ↔
          ∀ text ∈ rule.freeTexts, isFaithful text.toList = true) :=
  ⟨by decide, by decide, read?_compile_iff _ _ (by decide) (by decide)⟩

/-- A server at the default port that passes requests to one container, with more directives behind
that. -/
def serverWith (headers : List Node) : Document :=
  [.block "server" []
    [.directive "listen" ["80"], .directive "server_name" ["_"],
     .block "location" ["/"] (.directive "proxy_pass" ["http://web:80"] :: headers)]]

/-- A server where the first directive took in the semicolon and the second directive. -/
def swallowed : Document :=
  serverWith [.directive "proxy_set_header" ["X-Root", "C:\\;", "proxy_set_header", "X-User", "u"]]

/-- A header value that ends in a backslash is written as a plain word: the word takes in the
semicolon, and the directive swallows the next header. -/
theorem not_read?_compile :
    let rule : Rule :=
      { id := "web", targetContainer := "web", targetPort := 80,
        headers := .ofList [("X-Root", "C:\\"), ("X-User", "u")], created := .epoch }
    let config : ManagerConfig := {}
    rule.validate = .ok () ∧ config.validate = .ok () ∧
      ∃ document, rule.document config.renderOptions = .ok document ∧
        rule.compile config.renderOptions = .ok document.render ∧
        document.effective = serverWith
          [.directive "proxy_set_header" ["X-Root", "C:\\"],
           .directive "proxy_set_header" ["X-User", "u"]] ∧
        Document.read? document.render = some swallowed ∧ swallowed ≠ document.effective := by
  refine ⟨by decide, by decide, _, rfl, rfl, rfl, ?_, ?_⟩
  · -- to run the lexer is enough: the reader gives what the tokens stand for
    refine (Document.read?_eq_some_iff.2 ?_ : _ = some swallowed.effective)
    rw [Document.render, String.toList_ofList]
    decide +kernel
  · intro same
    exact absurd (congrArg argumentsOf same) (by decide)

end Rule

end ProxyKeeper
