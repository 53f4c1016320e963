import ProxyKeeper.Proofs.Nginx.Printed
import ProxyKeeper.Proofs.Rule.Lines
import ProxyKeeper.Proofs.Rule.ReadBack

/-!
# Rules with the same text

Whether a rule has changed is decided by its text, so the text has to tell all that has an effect
and nothing else. A text is read back as the document it was printed from, the document falls into
parts, and the parts tell the effective content: valid rules have the same text exactly when they
have the same effective content.

## Main Results

* `Rule.httpDocument_inj`, `Rule.streamDocument_inj` — documents tell the effective content
* `Rule.compile_inj` — so do texts
-/

namespace ProxyKeeper

open Nginx

namespace Rule

variable {rule other : Rule} {options : RenderOptions}

/-- The document of a valid HTTP rule tells its effective content. -/
theorem httpDocument_inj (valid : rule.validate = .ok ()) (validOther : other.validate = .ok ()) :
    rule.titleNode :: rule.httpNodes options = other.titleNode :: other.httpNodes options ↔
      rule.httpContent = other.httpContent := by
  rw [List.cons.injEq, titleNode_inj valid validOther, httpNodes_inj, server_inj, location_inj,
    httpPass_inj, httpContent, httpContent, HttpContent.mk.injEq]
  constructor
  · rintro ⟨⟨id, name⟩, zone, condition, group, tls, server, certificate, key, body, bufferSize,
      buffers, path, ⟨https, pass⟩, headers, responses, connect, send, read, cache, cors, limit,
      rewrites, health⟩
    -- declarations and references stand in different places and tell their content together
    obtain ⟨backend, method, _⟩ := (group_inj id).1 ⟨group, pass⟩
    exact ⟨id, name, tls, certificate, key, server, path, https, backend, method, headers,
      responses, connect, send, read, body, bufferSize, buffers, cache, cors,
      (limit_inj id).1 ⟨zone, limit⟩, rewrites, (check_inj id connect read).1 ⟨condition, health⟩⟩
  · rintro ⟨id, name, tls, certificate, key, server, path, https, backend, method, headers,
      responses, connect, send, read, body, bufferSize, buffers, cache, cors, limit, rewrites,
      check⟩
    have checked : rule.healthCheck.isSome = other.healthCheck.isSome := by
      simpa [httpCheck] using congrArg Option.isSome check
    obtain ⟨group, pass⟩ := (group_inj id).2 ⟨backend, method, checked⟩
    obtain ⟨zone, limit⟩ := (limit_inj id).2 limit
    obtain ⟨condition, health⟩ := (check_inj id connect read).2 check
    exact ⟨⟨id, name⟩, zone, condition, group, tls, server, certificate, key, body, bufferSize,
      buffers, path, ⟨https, pass⟩, headers, responses, connect, send, read, cache, cors, limit,
      rewrites, health⟩

/-- The document of a valid TCP rule tells its effective content. -/
theorem streamDocument_inj (valid : rule.validate = .ok ()) (validOther : other.validate = .ok ())
    {port port' : UInt16} (listens : rule.listenPort? = some port)
    (listensOther : other.listenPort? = some port') :
    rule.titleNode :: rule.streamNodes options port =
        other.titleNode :: other.streamNodes options port' ↔
      rule.streamContent = other.streamContent := by
  rw [List.cons.injEq, titleNode_inj valid validOther, streamNodes_inj, streamServer_inj,
    streamContent, streamContent, StreamContent.mk.injEq, listens, listensOther, Option.some.injEq]
  constructor
  · rintro ⟨⟨id, name⟩, group, host, port, pass, connect, read, check⟩
    obtain ⟨backend, method, _⟩ := (group_inj id).1 ⟨group, pass⟩
    exact ⟨id, name, host, port, backend, method, connect, read, check⟩
  · rintro ⟨id, name, host, port, backend, method, connect, read, check⟩
    have checked : rule.healthCheck.isSome = other.healthCheck.isSome := by
      simpa [streamCheck] using congrArg Option.isSome check
    obtain ⟨group, pass⟩ := (group_inj id).2 ⟨backend, method, checked⟩
    exact ⟨⟨id, name⟩, group, host, port, pass, connect, read, check⟩

/-- The documents of valid rules tell their effective content. -/
theorem document_inj (valid : rule.validate = .ok ()) (validOther : other.validate = .ok ())
    {document document' : Document} (made : rule.document options = .ok document)
    (madeOther : other.document options = .ok document') :
    document = document' ↔ rule.content = other.content := by
  rw [content, content]
  rcases eq_of_document valid made with ⟨context, rfl⟩ | ⟨context, port, listens, rfl⟩
  · rcases eq_of_document validOther madeOther with ⟨context', rfl⟩ | ⟨context', port', _, rfl⟩
    · rw [context, context', httpDocument_inj valid validOther, Content.http.injEq]
    · rw [context, context']
      exact iff_of_false (fun same => httpNodes_ne_streamNodes (List.cons.inj same).2) (by simp)
  · rcases eq_of_document validOther madeOther with
      ⟨context', rfl⟩ | ⟨context', port', listens', rfl⟩
    · rw [context, context']
      exact iff_of_false (fun same => httpNodes_ne_streamNodes (List.cons.inj same).2.symm)
        (by simp)
    · rw [context, context', streamDocument_inj valid validOther listens listens',
        Content.stream.injEq]

/-- Valid rules are compiled to the same text under a valid configuration exactly when they have
the same effective content. -/
theorem compile_inj {config : ManagerConfig} (validConfig : config.validate = .ok ())
    {rule other : Rule} (valid : rule.validate = .ok ()) (validOther : other.validate = .ok ()) :
    ∃ text text', rule.compile config.renderOptions = .ok text ∧
      other.compile config.renderOptions = .ok text' ∧
      (text = text' ↔ rule.content = other.content) := by
  have names := harmlessNames_of_validate validConfig
  obtain ⟨document, made, compiled⟩ := exists_document_of_validate valid config.renderOptions
  obtain ⟨document', made', compiled'⟩ :=
    exists_document_of_validate validOther config.renderOptions
  have legible := areLegible_of_arePlain _ (carries_document valid names made).plain
  have legible' := areLegible_of_arePlain _ (carries_document validOther names made').plain
  refine ⟨_, _, compiled, compiled', ?_⟩
  rw [Document.render_inj legible legible', document_inj valid validOther made made']

/-- Sections that are switched off, a method with nothing to balance and the time of creation do not
show in the text. -/
theorem compile_inj_ignored :
    let rule : Rule :=
      { id := "web", domain := "example.org", targetContainer := "web", targetPort := 80,
        created := .epoch }
    let other : Rule :=
      { rule with
        sourceHost := "web", sourcePath := "/", method := .leastConnections, sslCertPath := some "",
        enabled := false,
        advanced := some { cache := some ⟨false, 60⟩, rateLimit := some {} } }
    let config : ManagerConfig := {}
    config.validate = .ok () ∧ rule.validate = .ok () ∧ other.validate = .ok () ∧ rule ≠ other ∧
      rule.content = other.content ∧
      ∃ text text', rule.compile config.renderOptions = .ok text ∧
        other.compile config.renderOptions = .ok text' ∧
        (text = text' ↔ rule.content = other.content) := by
  intro rule other config
  have validConfig : config.validate = .ok () := by decide
  have valid : rule.validate = .ok () := by decide
  have validOther : other.validate = .ok () := by decide
  exact ⟨validConfig, valid, validOther, by decide, by decide,
    compile_inj validConfig valid validOther⟩

end Rule

end ProxyKeeper
