import ProxyKeeper.Proofs.Nginx.ReadBack
import ProxyKeeper.Proofs.Rule.Harmless

/-!
# Free texts

Validation leaves some texts of a rule free but for line breaks: the values of headers, the answers
to other origins, the paths of certificate and key, and the parts of rewrite rules. The other texts
that the document of a valid rule holds are names, numbers and paths without a backslash, and
whatever has no backslash is read as what it is.

## Main Definitions

* `Rule.freeTexts` — the free texts that the document of a rule holds
* `NoBackslash` — texts that are no matter of concern
* `Carries` — nodes whose reading hangs on given texts

## Main Results

* `NoBackslash.isFaithful` — texts without a backslash are read as what they are
* `Carries.read?_render_iff` — a document is read back when the texts it hangs on are faithful
-/

namespace ProxyKeeper

open Nginx

/-! ## The free texts -/

/-- The texts of the answers to other origins, when they are enabled. -/
def AdvancedConfig.corsTexts (settings : AdvancedConfig) : List String :=
  match settings.cors.filter (·.enabled) with
  | none => []
  | some cors => [cors.allowOrigin, cors.allowMethods, cors.allowHeaders]

/-- The patterns and replacements of the rewrite rules. -/
def AdvancedConfig.rewriteTexts (settings : AdvancedConfig) : List String :=
  settings.rewriteRules.flatMap fun rewrite => [rewrite.pattern, rewrite.replacement]

/-- The paths of certificate and key, when TLS ends at the proxy. -/
def Rule.certificateTexts (rule : Rule) : List String :=
  if rule.isTls then rule.sslCertPath.toList ++ rule.sslKeyPath.toList else []

/-- The texts in the document of a rule that may be anything on one line. -/
def Rule.freeTexts (rule : Rule) : List String :=
  match rule.protocol with
  | .tcp => []
  | _ =>
    rule.certificateTexts ++
      (rule.headers.entries.map (·.2) ++ rule.responseHeaders.entries.map (·.2) ++
        rule.advanced.elim [] AdvancedConfig.corsTexts ++
        rule.advanced.elim [] AdvancedConfig.rewriteTexts)

theorem Rule.freeTexts_of_http {rule : Rule} (http : rule.context = .http) :
    rule.freeTexts = rule.certificateTexts ++
      (rule.headers.entries.map (·.2) ++ rule.responseHeaders.entries.map (·.2) ++
        rule.advanced.elim [] AdvancedConfig.corsTexts ++
        rule.advanced.elim [] AdvancedConfig.rewriteTexts) := by
  rw [context] at http
  rw [freeTexts]
  cases protocol : rule.protocol with
  | http => rfl
  | https => rfl
  | tcp => simp [protocol] at http

theorem Rule.freeTexts_of_stream {rule : Rule} (stream : rule.context = .stream) :
    rule.freeTexts = [] := by
  rw [context] at stream
  rw [freeTexts]
  cases protocol : rule.protocol with
  | http => simp [protocol] at stream
  | https => simp [protocol] at stream
  | tcp => rfl

/-! ## Texts without a backslash -/

/-- A text that holds no backslash. -/
def NoBackslash (s : String) : Prop :=
  '\\' ∉ s.toList

instance (s : String) : Decidable (NoBackslash s) :=
  inferInstanceAs (Decidable ('\\' ∉ s.toList))

namespace NoBackslash

theorem isFaithful {s : String} (h : NoBackslash s) : isFaithful s.toList = true := by
  rw [Nginx.isFaithful, isLiteral_of_notMem h, Bool.or_true]

theorem of_isHarmless {s : String} (h : IsHarmless s) : NoBackslash s :=
  h.notMem rfl

theorem append {s t : String} (hs : NoBackslash s) (ht : NoBackslash t) : NoBackslash (s ++ t) := by
  rw [NoBackslash, String.toList_append, List.mem_append, not_or]
  exact ⟨hs, ht⟩

/-- Paths of requests hold no character with a meaning of its own. -/
theorem of_isSafePath {s : String} (h : isSafePath s = true) : NoBackslash s := by
  rw [isSafePath, Bool.and_eq_true, Bool.not_eq_true', List.any_eq_false] at h
  intro backslash
  exact absurd (by decide) (h.2 _ backslash)

end NoBackslash

/-! ## Nodes and the texts they hang on -/

/-- Nodes with plain names and comments whose arguments are faithful as soon as given texts are,
and not before. -/
structure Carries (nodes : List Node) (texts : List String) : Prop where
  plain : arePlain nodes = true
  faithful : AllFaithful (argumentsOf nodes) ↔ AllFaithful texts

/-- What the text of a document is read as hangs on what the document hangs on. -/
theorem Carries.read?_render_iff {document : Document} {texts : List String}
    (h : Carries document texts) :
    Document.read? document.render = some document.effective ↔ AllFaithful texts := by
  rw [Document.read?_render_iff h.plain, h.faithful]

end ProxyKeeper
