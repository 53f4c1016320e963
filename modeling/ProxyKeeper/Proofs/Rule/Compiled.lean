import ProxyKeeper.Proofs.Controller.Failures
import ProxyKeeper.Proofs.Rule.Contexts

/-!
# Valid rules are compiled

A rule is checked before anything else is done with it, and a rule that passed has a document that
nginx has no reason to refuse for its form. So the failure to compile a rule is never seen: not by
those who bring rules into force, and not by those who only look at the document.

## Main Results

* `Rule.compiles_in_context` — documents of valid rules, and the failure that is never seen
-/

namespace ProxyKeeper

namespace Rule

/-- A valid rule has a document, whatever the options, and the document respects the contexts of
nginx. To bring rules into force never fails since a rule has no document, and to show the document
of a rule only fails for the settings, the rule or a file. -/
theorem compiles_in_context (rule : Rule) (options : RenderOptions)
    (valid : rule.validate = .ok ()) :
    (∃ document, rule.document options = .ok document ∧
      rule.compile options = .ok document.render ∧ rule.KeepsContexts document) ∧
    (∀ (controller : Controller) (asked : Rule) (result : Except OperationError Rule),
      (controller.apply asked).run.Ends .free () result () →
        ∀ id reason, result ≠ .error (.compile id reason)) ∧
    (∀ (controller : Controller) (rules : List Rule) (result : Except OperationError SyncReport),
      (controller.sync rules).run.Ends .free () result () →
        ∀ id reason, result ≠ .error (.compile id reason)) ∧
    ∀ (surroundings : Cli.Surroundings) (file : Path) (result : Except CommandError Cli.Report),
      (Cli.Command.runRender surroundings file).run.Ends .free () result () →
        ∀ message, result ≠ .error (.command message) := by
  obtain ⟨document, made, compiled⟩ := exists_document_of_validate valid options
  refine ⟨⟨document, made, compiled, keepsContexts_of_document valid made⟩, ?_, ?_, ?_⟩
  · rintro controller asked _ ends id reason rfl
    cases Program.Meets.of_ends (controller.raises_apply asked) ends
  · rintro controller rules _ ends id reason rfl
    cases Program.Meets.of_ends (controller.raises_sync rules) ends
  · rintro surroundings file _ ends message rfl
    exact Program.Meets.of_ends (Cli.meets_runRender surroundings file) ends

/-- A rule with TLS, several containers and a health check that sets one of its timeouts itself. -/
theorem compiles_in_context_checked :
    let rule : Rule :=
      { id := "web", domain := "example.org", protocol := .https, sslEnabled := true,
        sslCertPath := some "/tls/cert.pem", sslKeyPath := some "/tls/key.pem",
        targets := [⟨"a", 80, 1⟩, ⟨"b", 80, 2⟩], method := .ipHash,
        headers := .ofList [("X-Real-IP", "$remote_addr")],
        responseHeaders := .ofList [("X-Frame-Options", "DENY")], healthCheck := some {},
        advanced := some
          { proxyReadTimeout := some 60, cors := some { enabled := true },
            rateLimit := some { enabled := true, requestsPerSecond := 5 } },
        created := .epoch }
    let options : RenderOptions := {}
    rule.validate = .ok () ∧
      (∃ document, rule.document options = .ok document ∧
        rule.compile options = .ok document.render ∧ rule.KeepsContexts document) := by
  intro rule options
  have valid : rule.validate = .ok () := by decide
  exact ⟨valid, (compiles_in_context rule options valid).1⟩

end Rule

end ProxyKeeper
