import ProxyKeeper.Proofs.Rule.Valid
import ProxyKeeper.Proofs.Text.Splitting

/-!
# Harmless words

A few characters do more than stand for themselves: ends of lines and of texts break the line they
are in, and a backslash changes how the characters behind it are read. Names, numbers and sizes hold
none of them, and neither do the words that are put together from these, whatever the rule.

## Main Definitions

* `isDisruptive` — the characters in question
* `IsHarmless` — texts without them
* `Rule.HarmlessNames` — harmless names in settings

## Main Results

* `IsHarmless.of_isSafeName` and its like — the texts that validation restricts
* `Rule.harmless_singleAddress` and the facts around it — the words of a rule
-/

namespace ProxyKeeper

/-- The characters that break a line or change how the rest of it is read. -/
def isDisruptive (c : Char) : Bool :=
  isLineBreaker c || c == '\\'

/-- A text without disruptive characters. -/
def IsHarmless (s : String) : Prop :=
  s.toList.all (fun c => !isDisruptive c) = true

instance (s : String) : Decidable (IsHarmless s) :=
  inferInstanceAs (Decidable (_ = true))

theorem isDisruptive_iff {c : Char} :
    isDisruptive c = true ↔ c ∈ ['\n', '\r', '\x00', '\\'] := by
  simp [isDisruptive, isLineBreaker, or_assoc]

theorem isDisruptive_of_isLineBreaker {c : Char} (breaks : isLineBreaker c = true) :
    isDisruptive c = true := by
  rw [isDisruptive, breaks, Bool.true_or]

variable {s t : String}

theorem isOneLine_iff_unbroken :
    isOneLine s = true ↔ ∀ c ∈ s.toList, isLineBreaker c = false := by
  rw [isOneLine, Bool.not_eq_true', List.any_eq_false]
  simp only [Bool.not_eq_true]

theorem isOneLine_append : isOneLine (s ++ t) = true ↔ isOneLine s = true ∧ isOneLine t = true := by
  rw [isOneLine_iff_unbroken, String.toList_append, List.forall_mem_append,
    isOneLine_iff_unbroken, isOneLine_iff_unbroken]

namespace IsHarmless

theorem notMem (h : IsHarmless s) {c : Char} (disruptive : isDisruptive c = true) :
    c ∉ s.toList := by
  intro inside
  have harmless := List.all_eq_true.1 h c inside
  rw [disruptive] at harmless
  cases harmless

theorem isOneLine (h : IsHarmless s) : isOneLine s = true := by
  refine isOneLine_iff_unbroken.2 fun c inside => ?_
  rw [← Bool.not_eq_true]
  exact fun breaks => h.notMem (isDisruptive_of_isLineBreaker breaks) inside

theorem append (hs : IsHarmless s) (ht : IsHarmless t) : IsHarmless (s ++ t) := by
  rw [IsHarmless, String.toList_append, List.all_append, hs, ht]
  rfl

/-- Texts whose characters are all of a kind that no disruptive one is of. -/
theorem of_all (kind : Char → Bool)
    (apart : ['\n', '\r', '\x00', '\\'].all (fun c => !kind c) = true)
    (h : s.toList.all kind = true) : IsHarmless s := by
  refine List.all_eq_true.2 fun c inside => ?_
  rw [Bool.not_eq_true', ← Bool.not_eq_true, isDisruptive_iff]
  intro disruptive
  have other := List.all_eq_true.1 apart c disruptive
  rw [List.all_eq_true.1 h c inside] at other
  cases other

/-- Decimal numbers hold digits only. -/
theorem number (n : Nat) : IsHarmless (toString n) := by
  refine of_all Char.isDigit (by decide) (List.all_eq_true.2 fun c inside => ?_)
  rw [Nat.toString_eq_ofList_toDigits, String.toList_ofList] at inside
  exact Nat.isDigit_of_mem_toDigits (by decide) (by decide) inside

theorem of_isEmpty (h : s.isEmpty = true) : IsHarmless s := by
  rw [String.isEmpty_iff] at h
  subst h
  decide

theorem of_isRuleId (h : isRuleId s = true) : IsHarmless s := by
  rw [isRuleId, Bool.and_eq_true] at h
  exact of_all isIdCharacter (by decide) h.2

theorem of_isSafeName (h : isSafeName s = true) : IsHarmless s := by
  rw [isSafeName, Bool.and_eq_true] at h
  exact of_all isNameCharacter (by decide) h.2

theorem of_isHeaderName (h : isHeaderName s = true) : IsHarmless s := by
  rw [isHeaderName, Bool.and_eq_true] at h
  exact of_all isIdCharacter (by decide) h.2

theorem of_isIdentifier (h : isIdentifier s = true) : IsHarmless s := by
  rw [isIdentifier, Bool.and_eq_true] at h
  exact of_all isIdentifierCharacter (by decide) h.2

/-- A host name may have a star in front. -/
theorem of_isDomain (h : isDomain s = true) : IsHarmless s := by
  rw [isDomain] at h
  split at h
  next rest lead =>
    rw [Bool.and_eq_true] at h
    have stem : IsHarmless (String.ofList rest) :=
      of_all isNameCharacter (by decide) (by rw [String.toList_ofList]; exact h.2)
    have parted : s = "*." ++ String.ofList rest := by
      have star : "*.".toList = ['*', '.'] := rfl
      rw [← String.toList_inj, Text.eq_append_of_stripLead? lead, String.toList_append, star,
        String.toList_ofList]
    rw [parted]
    exact append (by decide) stem
  next => exact of_isSafeName h

/-- Sizes hold digits and a unit. -/
theorem of_isSize (h : isSize s = true) : IsHarmless s := by
  rw [isSize, Bool.and_eq_true] at h
  refine of_all (fun c => isUnit c || Text.isDigit c) (by decide)
    (List.all_eq_true.2 fun c inside => ?_)
  have parted := List.takeWhile_append_dropWhile (p := isUnit) (l := s.toList.reverse)
  rw [← List.mem_reverse, ← parted, List.mem_append] at inside
  rw [Bool.or_eq_true]
  exact inside.imp (List.all_eq_true.1 List.all_takeWhile c) (List.all_eq_true.1 h.2 c)

end IsHarmless

/-! ## Names and addresses -/

theorem harmless_seconds (n : UInt64) : IsHarmless (seconds n) :=
  .append (.number _) (by decide)

theorem harmless_address {container : String} (h : IsHarmless container) (port : UInt16) :
    IsHarmless (address container port) :=
  .append (.append h (by decide)) (.number _)

theorem harmless_setting {name value : String} (hn : IsHarmless name) (hv : IsHarmless value) :
    IsHarmless (setting name value) :=
  .append (.append hn (by decide)) hv

namespace Rule

variable {rule : Rule} {options : RenderOptions}

/-- The names that settings give to parts of the nginx configuration are harmless. -/
structure HarmlessNames (options : RenderOptions) : Prop where
  cacheZone : IsHarmless options.cacheZone
  rateLimitZone : IsHarmless options.rateLimitZone
  upstreamStem : IsHarmless options.upstreamStem

/-- Those of a valid configuration are identifiers. -/
theorem harmlessNames_of_validate {config : ManagerConfig} (valid : config.validate = .ok ()) :
    HarmlessNames config.renderOptions where
  cacheZone := .of_isIdentifier (ManagerConfig.isIdentifier_cacheZone valid)
  rateLimitZone := .of_isIdentifier (ManagerConfig.isIdentifier_rateLimitZone valid)
  upstreamStem := .of_isIdentifier (ManagerConfig.isIdentifier_upstreamStem valid)

theorem harmless_id (valid : rule.validate = .ok ()) : IsHarmless rule.id :=
  .of_isRuleId (isRuleId_of_validate valid)

theorem harmless_upstreamName (valid : rule.validate = .ok ()) (names : HarmlessNames options) :
    IsHarmless (rule.upstreamName options) :=
  .append (.append names.upstreamStem (by decide)) (harmless_id valid)

theorem harmless_ownZone (valid : rule.validate = .ok ()) : IsHarmless rule.ownZone :=
  .append (by decide) (harmless_id valid)

theorem harmless_matchName (valid : rule.validate = .ok ()) : IsHarmless rule.matchName :=
  .append (by decide) (harmless_id valid)

theorem harmless_sourceHost (valid : rule.validate = .ok ()) : IsHarmless rule.sourceHost :=
  (sourceHost_of_validate valid).elim .of_isEmpty .of_isSafeName

theorem harmless_singleAddress (valid : rule.validate = .ok ()) :
    IsHarmless rule.singleAddress :=
  harmless_address ((targetContainer_of_validate valid).elim .of_isEmpty .of_isSafeName) _

theorem harmless_serverName (valid : rule.validate = .ok ()) : IsHarmless rule.serverName := by
  rw [serverName]
  split_ifs
  · exact (domain_of_validate valid).elim .of_isEmpty .of_isDomain
  · exact harmless_sourceHost valid
  · decide

theorem harmless_httpPass (valid : rule.validate = .ok ()) (names : HarmlessNames options) :
    IsHarmless (rule.httpPass options) := by
  refine .append (.append ?_ (by decide)) ?_
  · split_ifs <;> decide
  · split_ifs
    · exact harmless_upstreamName valid names
    · exact harmless_singleAddress valid

theorem harmless_streamPass (valid : rule.validate = .ok ()) (names : HarmlessNames options) :
    IsHarmless (rule.streamPass options) := by
  rw [streamPass]
  split_ifs
  · exact harmless_upstreamName valid names
  · exact harmless_singleAddress valid

theorem harmless_streamListen (valid : rule.validate = .ok ()) (port : UInt16) :
    IsHarmless (rule.streamListen port) := by
  rw [streamListen]
  split_ifs
  · exact .number _
  · exact harmless_address (harmless_sourceHost valid) _

theorem harmless_rateLimitZone (valid : rule.validate = .ok ()) (names : HarmlessNames options)
    (limit : RateLimit) : IsHarmless (rule.rateLimitZone options limit) := by
  rw [rateLimitZone]
  split_ifs
  · exact names.rateLimitZone
  · exact harmless_ownZone valid

end Rule

end ProxyKeeper
