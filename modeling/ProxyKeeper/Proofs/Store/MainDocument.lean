import ProxyKeeper.Proofs.Nginx.Bare
import ProxyKeeper.Proofs.Nginx.ReadBack
import ProxyKeeper.Proofs.Rule.Valid
import ProxyKeeper.Proofs.Store.Template

/-!
# The document of the main configuration

The built-in template is the text of a document with placeholders in some of its words, and its
values stand there as they are, without quotes. When each of the words that come out is one that
nginx takes as it stands, nginx reads this document.

## Main Definitions

* `ManagerConfig.mainDocument` — what the built-in template says
* `TemplatePart.builtIn` — the built-in template in parts
* `ManagerConfig.HasBarePaths` — paths that nginx takes as they stand

## Main Results

* `ManagerConfig.fillTemplate_builtInTemplate` — the template with its values in their places
* `TemplatePart.filled_builtIn` — this is the text of the document without quotes
* `ManagerConfig.read?_fillTemplate` — with such paths, the document is what nginx reads
-/

namespace ProxyKeeper

open Nginx

/-! ## Texts without pairs of braces -/

/-- A text without two opening braces in a row, and without one in front. -/
structure IsCalm (cs : List Char) : Prop where
  apart : NoBracePair cs
  begins : ∀ c ∈ cs.head?, c ≠ '{'

instance (cs : List Char) : Decidable (IsCalm cs) :=
  decidable_of_iff (NoBracePair cs ∧ cs.head? ≠ some '{')
    ⟨fun h => ⟨h.1, fun _ first same => h.2 (same ▸ first)⟩,
      fun h => ⟨h.1, fun first => h.2 '{' first rfl⟩⟩

namespace IsCalm

variable {cs front back : List Char}

/-- No pair comes about in front of such a text. -/
theorem apart_append (apart : NoBracePair front) (calm : IsCalm back) :
    NoBracePair (front ++ back) := by
  refine List.isChain_append.2 ⟨apart, calm.apart, ?_⟩
  rintro c _ d first ⟨_, same⟩
  exact calm.begins d first same

theorem append (calm : IsCalm front) (calm' : IsCalm back) : IsCalm (front ++ back) where
  apart := apart_append calm.apart calm'
  begins c first := by
    cases front with
    | nil => exact calm'.begins c first
    | cons d front => exact calm.begins c first

theorem flatMap {α : Type} {as : List α} {f : α → List Char} (each : ∀ a ∈ as, IsCalm (f a)) :
    IsCalm (as.flatMap f) := by
  induction as with
  | nil => exact ⟨List.isChain_nil, fun c first => nomatch first⟩
  | cons a as ih =>
    obtain ⟨first, others⟩ := List.forall_mem_cons.1 each
    exact first.append (ih others)

/-- So are the beginnings of such a text. -/
theorem of_append (calm : IsCalm (front ++ back)) : IsCalm front where
  apart := calm.apart.left_of_append
  begins c first := by
    cases front with
    | nil => cases first
    | cons d front => exact calm.begins c first

/-- A word that goes on to its end holds no brace without a backslash in front. -/
theorem of_staysBare (h : staysBare cs = true) : IsCalm cs := by
  have ends {c : Char} (h : endsWord c = false) : c ≠ '{' := by
    rintro rfl
    exact absurd h (by decide)
  fun_induction staysBare cs with
  | case1 => exact ⟨List.isChain_nil, by simp⟩
  | case2 => cases h
  | case3 c cs ih =>
    rw [Bool.and_eq_true] at h
    obtain ⟨apart, begins⟩ := ih h.2
    refine ⟨List.isChain_cons_cons.2 ⟨?_, List.isChain_cons.2 ⟨?_, apart⟩⟩, ?_⟩
    · exact fun braces => absurd braces.1 (by decide)
    · exact fun d next braces => begins d next braces.2
    · intro d first
      obtain rfl := Option.some.inj first
      decide
  | case4 c cs h₁ h₂ ih =>
    rw [Bool.and_eq_true, Bool.not_eq_true'] at h
    obtain ⟨apart, begins⟩ := ih h.2
    refine ⟨List.isChain_cons.2 ⟨?_, apart⟩, ?_⟩
    · exact fun d next braces => begins d next braces.2
    · intro d first
      obtain rfl := Option.some.inj first
      exact ends h.1

end IsCalm

/-! ## Steady texts -/

/-- A text whose characters have no effect inside a word. -/
def IsSteady (s : String) : Prop :=
  ∀ c ∈ s.toList, isSteady c = true

instance (s : String) : Decidable (IsSteady s) :=
  decidable_of_iff (s.toList.all isSteady = true) List.all_eq_true

namespace IsSteady

variable {s t : String}

theorem append (hs : IsSteady s) (ht : IsSteady t) : IsSteady (s ++ t) := by
  intro c listed
  rw [String.toList_append, List.mem_append] at listed
  exact listed.elim (hs c) (ht c)

/-- Texts whose characters are all of a kind that no character with an effect is of. -/
theorem of_all {kind : Char → Bool}
    (others : [' ', '\t', '\r', '\n', ';', '{', '\\'].all (!kind ·) = true)
    (h : ∀ c ∈ s.toList, kind c = true) : IsSteady s := by
  intro c listed
  refine isSteady_iff.2 fun effect => ?_
  have other := List.all_eq_true.1 others c effect
  rw [h c listed] at other
  cases other

theorem number (n : Nat) : IsSteady (toString n) := by
  have digits : ∀ c ∈ (toString n).toList, c.isDigit = true := by
    intro c listed
    rw [Nat.toString_eq_ofList_toDigits, String.toList_ofList] at listed
    exact Nat.isDigit_of_mem_toDigits (by decide) (by decide) listed
  exact of_all (by decide) digits

theorem of_isIdentifier (h : isIdentifier s = true) : IsSteady s := by
  rw [isIdentifier, Bool.and_eq_true, List.all_eq_true] at h
  exact of_all (by decide) h.2

theorem isCalm (steady : IsSteady s) : IsCalm s.toList :=
  .of_staysBare (staysBare_of_steady steady)

/-- A word goes on with what is steady. -/
theorem isBareWord_append (steady : IsSteady s) (word : isBareWord s.toList = true)
    (more : IsSteady t) : isBareWord (s ++ t).toList = true := by
  have stays := staysBare_of_steady (steady.append more)
  rw [String.toList_append] at stays ⊢
  cases chars : s.toList with
  | nil =>
    rw [chars] at word
    cases word
  | cons c cs =>
    rw [chars, isBareWord, Bool.and_eq_true] at word
    rw [chars, List.cons_append] at stays
    rw [List.cons_append, isBareWord, word.1, stays]
    rfl

end IsSteady

/-! ## The document -/

namespace ManagerConfig

variable {config : ManagerConfig}

/-- The settings of the cache, behind its path. -/
def cacheSettings (config : ManagerConfig) : List String :=
  ["levels=1:2", setting "keys_zone" (config.cacheZone ++ ":10m"), "max_size=1g", "inactive=60m",
   "use_temp_path=off"]

/-- The settings of the shared rate limit. -/
def rateSettings (config : ManagerConfig) : List String :=
  ["$binary_remote_addr", setting "zone" (config.rateLimitZone ++ ":10m"),
   setting "rate" (toString config.rateLimitRps.toNat ++ "r/s")]

/-- What the built-in template says with the values of a configuration, where each path is read as
some words. -/
def mainDocumentOf (config : ManagerConfig) (cache http stream : List String) : Document :=
  [.comment ("Managed by dockgate. Rule files are included from " ++ config.activeDir.text ++ "."),
   .directive "worker_processes" ["auto"],
   .blank,
   .block "events" [] [.directive "worker_connections" ["1024"]],
   .blank,
   .block "http" []
     [.directive "default_type" ["application/octet-stream"],
      .directive "sendfile" ["on"],
      .directive "keepalive_timeout" ["65"],
      .blank,
      .directive "proxy_cache_path" (cache ++ config.cacheSettings),
      .directive "limit_req_zone" config.rateSettings,
      .blank,
      .directive "include" http],
   .blank,
   .block "stream" [] [.directive "include" stream]]

/-- What the built-in template is meant to say: each path is one word. -/
def mainDocument (config : ManagerConfig) : Document :=
  config.mainDocumentOf [config.cacheDir.text] [config.activeDir.text ++ "/*.conf"]
    [config.streamDir.text ++ "/*.conf"]

/-- Whether some words make up a text, with a space between each two. -/
def Makes (words : List String) (s : String) : Prop :=
  words.flatMap (' ' :: ·.toList) = ' ' :: s.toList

instance (words : List String) (s : String) : Decidable (Makes words s) :=
  inferInstanceAs (Decidable (_ = _))

theorem makes_singleton (s : String) : Makes [s] s := by
  rw [Makes, List.flatMap_singleton]

end ManagerConfig

namespace TemplatePart

/-- The lines of the built-in template in parts. -/
def builtInLines : List (List TemplatePart) :=
  [ofText "# Managed by dockgate. Rule files are included from " ++ hole .activeDir :: ofText ".",
   ofText "worker_processes auto;",
   [],
   ofText "events \x7b",
   ofText "    worker_connections 1024;",
   ofText "\x7d",
   [],
   ofText "http \x7b",
   ofText "    default_type application/octet-stream;",
   ofText "    sendfile on;",
   ofText "    keepalive_timeout 65;",
   [],
   ofText "    proxy_cache_path " ++ hole .cacheDir :: ofText " levels=1:2 " ++
     ofText "keys_zone=" ++ hole .cacheZone ::
     ofText ":10m max_size=1g inactive=60m use_temp_path=off;",
   ofText "    limit_req_zone $binary_remote_addr zone=" ++ hole .rateLimitZone ::
     ofText ":10m " ++ ofText "rate=" ++ hole .rateLimitRps :: ofText "r/s;",
   [],
   ofText "    include " ++ hole .activeDir :: ofText "/*.conf;",
   ofText "\x7d",
   [],
   ofText "stream \x7b",
   ofText "    include " ++ hole .streamDir :: ofText "/*.conf;",
   ofText "\x7d"]

/-- The built-in template in parts. -/
def builtIn : List TemplatePart :=
  builtInLines.flatMap (· ++ [char '\n'])

theorem cons_written (p : Placeholder) :
    '{' :: p.written = ("\x7b\x7b" ++ p.name ++ "\x7d\x7d").toList := by
  rw [Placeholder.written, String.toList_append, String.toList_append]
  rfl

/-- The lines of the template are these. -/
theorem written_builtInLines :
    builtInLines.map (·.flatMap written) = ProxyKeeper.builtInLines.map String.toList := by
  simp only [builtInLines, ProxyKeeper.builtInLines, List.map_cons, List.map_nil,
    List.flatMap_append, List.flatMap_cons, List.flatMap_nil, written_ofText, written,
    cons_written, ← String.toList_append, Placeholder.name, String.reduceAppend,
    String.toList_empty]

theorem builtInTemplate_eq : builtInTemplate = String.ofList (builtIn.flatMap written) := by
  have lines := congrArg (List.flatMap (· ++ ['\n'])) written_builtInLines
  rw [List.flatMap_map, List.flatMap_map] at lines
  have newline (s : String) : (s ++ "\n").toList = s.toList ++ ['\n'] := String.toList_append
  have parts : builtIn.flatMap written =
      builtInLines.flatMap fun parts => parts.flatMap written ++ ['\n'] := by
    simp only [builtIn, List.flatMap_assoc, List.flatMap_append]
    rfl
  rw [← String.toList_inj, String.toList_ofList, builtInTemplate, String.toList_join,
    List.flatMap_map, funext newline, parts, lines]

set_option maxRecDepth 20000 in
/-- With its values, the template is the text of the document without quotes. -/
theorem filled_builtIn (config : ManagerConfig) {cache http stream : List String}
    (inCache : ManagerConfig.Makes cache config.cacheDir.text)
    (inHttp : ManagerConfig.Makes http (config.activeDir.text ++ "/*.conf"))
    (inStream : ManagerConfig.Makes stream (config.streamDir.text ++ "/*.conf")) :
    builtIn.flatMap (filled config) =
      writeNodesWith String.toList 0 (config.mainDocumentOf cache http stream) := by
  rw [ManagerConfig.Makes] at inCache inHttp inStream
  simp [builtIn, builtInLines, filled_ofText, filled, Placeholder.value,
    ManagerConfig.mainDocumentOf, ManagerConfig.cacheSettings, ManagerConfig.rateSettings,
    setting, writeNodesWith, Node.writeWith, indent, List.replicate, inCache, inHttp, inStream]

/-- The lines of the template, with calm values, are calm. -/
theorem isCalm_builtIn {config : ManagerConfig}
    (calm : ∀ p : Placeholder, IsCalm (p.value config).toList) :
    IsCalm (builtIn.flatMap (filled config)) := by
  have lines : ∀ parts ∈ builtInLines, IsCalm (parts.flatMap (filled config)) := by
    simp only [builtInLines, List.forall_mem_cons, List.flatMap_append, List.flatMap_cons,
      List.flatMap_nil, List.append_assoc, filled_ofText, filled]
    and_intros
    all_goals try decide
    · exact .append (by decide) (.append (calm .activeDir) (by decide))
    · exact .append (by decide) (.append (calm .cacheDir)
        (.append (by decide) (.append (by decide) (.append (calm .cacheZone) (by decide)))))
    · exact .append (by decide) (.append (calm .rateLimitZone)
        (.append (by decide) (.append (by decide) (.append (calm .rateLimitRps) (by decide)))))
    · exact .append (by decide) (.append (calm .activeDir) (by decide))
    · exact .append (by decide) (.append (calm .streamDir) (by decide))
    · simp
  have newline : IsCalm ['\n'] := by decide
  rw [builtIn, List.flatMap_assoc]
  refine .flatMap fun parts listed => ?_
  rw [List.flatMap_append]
  exact (lines parts listed).append newline

end TemplatePart

namespace ManagerConfig

variable {config : ManagerConfig}

/-- The path of the directory of the rules for plain connections. -/
theorem streamDir_text (config : ManagerConfig) :
    config.streamDir.text = "stream" ∨ config.streamDir.text = config.activeDir.text ++ "/stream" ∨
      config.activeDir.text.toList.getLast? = some '/' ∧
        config.streamDir.text = config.activeDir.text ++ "stream" := by
  have relative : Path.isAbsolute ⟨"stream"⟩ = false := by decide
  rw [streamDir, Path.child, Path.join, relative, Bool.false_or]
  split_ifs with empty slash
  · exact .inl rfl
  · exact .inr (.inr ⟨slash, rfl⟩)
  · refine .inr (.inl ?_)
    rw [String.append_assoc]
    rfl

/-- Whether nginx takes the paths of a configuration as they stand in the main configuration, where
the active directory stands in a comment too. -/
structure HasBarePaths (config : ManagerConfig) : Prop where
  activeDir : isBareWord (config.activeDir.text ++ "/*.conf").toList = true
  cacheDir : isBareWord config.cacheDir.text.toList = true
  staysOnLine : '\n' ∉ config.activeDir.text.toList

instance (config : ManagerConfig) : Decidable config.HasBarePaths :=
  decidable_of_iff
    (isBareWord (config.activeDir.text ++ "/*.conf").toList = true ∧
      isBareWord config.cacheDir.text.toList = true ∧ '\n' ∉ config.activeDir.text.toList)
    ⟨fun h => ⟨h.1, h.2.1, h.2.2⟩, fun h => ⟨h.1, h.2, h.3⟩⟩

/-- The pattern of the rule files for plain connections is a word as well. -/
theorem HasBarePaths.streamDir (bare : config.HasBarePaths) :
    isBareWord (config.streamDir.text ++ "/*.conf").toList = true := by
  have front {active : List Char} (h : isBareWord (active ++ "/*.conf".toList) = true) :
      isBareWord (active ++ "/stream/*.conf".toList) = true := by
    have slash : "/*.conf".toList = '/' :: "*.conf".toList := by decide
    have slash' : "/stream/*.conf".toList = '/' :: "stream/*.conf".toList := by decide
    rw [slash, isBareWord_append (by decide) (by decide), Bool.and_eq_true] at h
    rw [slash', isBareWord_append (by decide) (by decide), h.1]
    decide
  have active := bare.activeDir
  rw [String.toList_append] at active
  rcases config.streamDir_text with same | same | ⟨slash, same⟩
  · rw [same]
    decide
  · rw [same, String.append_assoc, String.toList_append]
    exact front active
  · obtain ⟨before, chars⟩ := List.getLast?_eq_some_iff.1 slash
    have stream : (config.streamDir.text ++ "/*.conf").toList =
        before ++ "/stream/*.conf".toList := by
      rw [same, String.toList_append, String.toList_append, chars]
      simp
    have twice : isBareWord (before ++ '/' :: "/*.conf".toList) = true := by
      rwa [chars, List.append_assoc] at active
    rw [isBareWord_append (by decide) (by decide), Bool.and_eq_true] at twice
    rw [stream]
    refine front ?_
    have slash : "/*.conf".toList = '/' :: "*.conf".toList := by decide
    rw [slash, isBareWord_append (by decide) (by decide), twice.1]
    decide

/-- The values of placeholders that are names or numbers are calm. -/
theorem isCalm_value (valid : config.validate = .ok ())
    (active : IsCalm config.activeDir.text.toList) (stream : IsCalm config.streamDir.text.toList)
    (cache : IsCalm config.cacheDir.text.toList) :
    ∀ p : Placeholder, IsCalm (p.value config).toList
  | .activeDir => active
  | .streamDir => stream
  | .cacheDir => cache
  | .cacheZone => (IsSteady.of_isIdentifier (isIdentifier_cacheZone valid)).isCalm
  | .rateLimitZone => (IsSteady.of_isIdentifier (isIdentifier_rateLimitZone valid)).isCalm
  | .rateLimitRps => (IsSteady.number _).isCalm

/-- With calm values, the built-in template comes out as its parts with the values in their
places. -/
theorem fillTemplate_builtInTemplate (calm : ∀ p : Placeholder, IsCalm (p.value config).toList) :
    config.fillTemplate builtInTemplate =
      String.ofList (TemplatePart.builtIn.flatMap (TemplatePart.filled config)) := by
  rw [TemplatePart.builtInTemplate_eq]
  exact TemplatePart.fillTemplate_written (TemplatePart.isCalm_builtIn calm).apart

/-- The main configuration is read as what it says when each of its paths is made of words that
stand for themselves. -/
theorem read?_of_words (valid : config.validate = .ok ())
    (active : IsCalm config.activeDir.text.toList)
    (streamDir : IsCalm config.streamDir.text.toList)
    (cacheDir : IsCalm config.cacheDir.text.toList)
    (staysOnLine : '\n' ∉ config.activeDir.text.toList) {cache http stream : List String}
    (inCache : Makes cache config.cacheDir.text)
    (inHttp : Makes http (config.activeDir.text ++ "/*.conf"))
    (inStream : Makes stream (config.streamDir.text ++ "/*.conf"))
    (bare : ∀ word ∈ cache ++ http ++ stream, isBareWord word.toList = true) :
    Document.read? (config.fillTemplate builtInTemplate) =
      some (Document.effective (config.mainDocumentOf cache http stream)) := by
  have calm := isCalm_value valid active streamDir cacheDir
  have plain : arePlain (config.mainDocumentOf cache http stream) = true := by
    have title : '\n' ∉ ("Managed by dockgate. Rule files are included from " ++
        config.activeDir.text ++ ".").toList := by
      simp [staysOnLine]
    simp only [mainDocumentOf, arePlain, Node.isPlain, List.contains_eq_mem, title]
    decide
  have keys : isBareWord (setting "keys_zone" (config.cacheZone ++ ":10m")).toList = true :=
    IsSteady.isBareWord_append (by decide) (by decide)
      (.append (.of_isIdentifier (isIdentifier_cacheZone valid)) (by decide))
  have zone : isBareWord (setting "zone" (config.rateLimitZone ++ ":10m")).toList = true :=
    IsSteady.isBareWord_append (by decide) (by decide)
      (.append (.of_isIdentifier (isIdentifier_rateLimitZone valid)) (by decide))
  have rate : isBareWord (setting "rate" (toString config.rateLimitRps.toNat ++ "r/s")).toList =
      true :=
    IsSteady.isBareWord_append (by decide) (by decide) (.append (.number _) (by decide))
  have each : ∀ word ∈ argumentsOf (config.mainDocumentOf cache http stream),
      isBareWord word.toList = true := by
    simp only [List.forall_mem_append] at bare
    obtain ⟨⟨cacheBare, httpBare⟩, streamBare⟩ := bare
    simp only [mainDocumentOf, cacheSettings, rateSettings, argumentsOf, Node.arguments,
      List.forall_mem_append, List.forall_mem_cons, List.append_nil, List.nil_append,
      List.not_mem_nil, false_implies, implies_true, and_true]
    exact ⟨by decide, by decide,
      ⟨by decide, by decide, by decide,
        ⟨cacheBare, by decide, keys, by decide, by decide, by decide⟩,
        ⟨by decide, zone, rate⟩, httpBare⟩,
      streamBare⟩
  rw [fillTemplate_builtInTemplate calm,
    TemplatePart.filled_builtIn config inCache inHttp inStream]
  exact Document.read?_writeNodesWith plain fun word listed =>
    writes_of_isBareWord (each word listed)

/-- With such paths, the main configuration is read as what it is meant to say. -/
theorem read?_fillTemplate (valid : config.validate = .ok ()) (bare : config.HasBarePaths) :
    Document.read? (config.fillTemplate builtInTemplate) =
      some (Document.effective config.mainDocument) := by
  have calm {path : String} (h : isBareWord (path ++ "/*.conf").toList = true) :
      IsCalm path.toList := by
    rw [String.toList_append] at h
    exact IsCalm.of_append (.of_staysBare (staysBare_of_isBareWord h))
  refine read?_of_words valid (calm bare.activeDir) (calm bare.streamDir)
    (.of_staysBare (staysBare_of_isBareWord bare.cacheDir)) bare.staysOnLine (makes_singleton _)
    (makes_singleton _) (makes_singleton _) ?_
  simp only [List.forall_mem_append, List.forall_mem_singleton]
  exact ⟨⟨bare.cacheDir, bare.activeDir⟩, bare.streamDir⟩

end ManagerConfig

end ProxyKeeper
