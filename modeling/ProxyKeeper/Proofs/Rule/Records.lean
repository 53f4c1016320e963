import ProxyKeeper.Proofs.Decode
import ProxyKeeper.Rule.Codec

/-!
# Rules and their records

A rule that was written as a record is read from it again, field for field, whatever else the
reader takes as a default. Every part of a rule has its own `decode_encode`, in the order in which
the parts are put together; the record of the rule itself exists from the epoch on.

## Main Results

* `Timestamp.exists_encode?`, `HeaderMap.decode_encode`: the parts that are not written as they are
* `Rule.decode_encode?`: decoding undoes encoding
-/

namespace ProxyKeeper

open Decode (Fields)

section Variants

variable (d : Dialect)

theorem Protocol.decode_encode (protocol : Protocol) :
    Decode.variant d names protocol.encode = .ok protocol := by
  cases protocol <;> exact Decode.variant_string rfl

theorem LoadBalancingMethod.decode_encode (method : LoadBalancingMethod) :
    Decode.variant d names method.encode = .ok method := by
  cases method <;> exact Decode.variant_string rfl

theorem RewriteFlag.decode_encode (flag : RewriteFlag) :
    Decode.variant d names flag.encode = .ok flag := by
  cases flag <;> exact Decode.variant_string rfl

end Variants

section Parts

variable (d : Dialect)

theorem LoadBalancingTarget.decode_encode (target : LoadBalancingTarget) :
    decode d target.encode = .ok target := by
  rw [decode, encode]
  refine Decode.fields_bind (by simp) fun given stated => ?_
  simp only [List.forall_mem_cons] at stated
  simp [stated, Fields.required, Fields.withDefault]

theorem HealthCheck.decode_encode (check : HealthCheck) : decode d check.encode = .ok check := by
  rw [decode, encode]
  refine Decode.fields_bind (by simp) fun given stated => ?_
  simp only [List.forall_mem_cons] at stated
  simp [stated, Fields.withDefault, Decode.list_map]

theorem ProxyBuffers.decode_encode (buffers : ProxyBuffers) :
    decode d buffers.encode = .ok buffers := by
  rw [decode, encode]
  refine Decode.fields_bind (by simp) fun given stated => ?_
  simp only [List.forall_mem_cons] at stated
  simp [stated, Fields.required]

theorem CacheConfig.decode_encode (cache : CacheConfig) : decode d cache.encode = .ok cache := by
  rw [decode, encode]
  refine Decode.fields_bind (by simp) fun given stated => ?_
  simp only [List.forall_mem_cons] at stated
  simp [stated, Fields.withDefault]

theorem CorsConfig.decode_encode (cors : CorsConfig) : decode d cors.encode = .ok cors := by
  rw [decode, encode]
  refine Decode.fields_bind (by simp) fun given stated => ?_
  simp only [List.forall_mem_cons] at stated
  simp [stated, Fields.withDefault]

theorem RateLimit.decode_encode (limit : RateLimit) : decode d limit.encode = .ok limit := by
  rw [decode, encode]
  refine Decode.fields_bind (by simp) fun given stated => ?_
  simp only [List.forall_mem_cons] at stated
  simp [stated, Fields.withDefault]

theorem RewriteRule.decode_encode (rewrite : RewriteRule) :
    decode d rewrite.encode = .ok rewrite := by
  rw [decode, encode]
  refine Decode.fields_bind (by simp) fun given stated => ?_
  simp only [List.forall_mem_cons] at stated
  simp [stated, Fields.required, Fields.withDefault, RewriteFlag.decode_encode]

theorem AdvancedConfig.decode_encode (settings : AdvancedConfig) :
    decode d settings.encode = .ok settings := by
  have time (n? : Option UInt64) :
      Decode.option Decode.uint64 (.ofOption (fun n : UInt64 => .ofNat n.toNat) n?) = .ok n? :=
    Decode.option_ofOption nofun Decode.uint64_ofNat n?
  have text (s? : Option String) :
      Decode.option Decode.string (.ofOption .string s?) = .ok s? :=
    Decode.option_ofOption nofun Decode.string_string s?
  have buffers := Decode.option_ofOption nofun (ProxyBuffers.decode_encode d)
    settings.proxyBuffers
  have cache := Decode.option_ofOption nofun (CacheConfig.decode_encode d) settings.cache
  have cors := Decode.option_ofOption nofun (CorsConfig.decode_encode d) settings.cors
  have limit := Decode.option_ofOption nofun (RateLimit.decode_encode d) settings.rateLimit
  have rewrites := Decode.list_map (RewriteRule.decode_encode d) settings.rewriteRules
  rw [decode, encode]
  refine Decode.fields_bind (by simp) fun given stated => ?_
  simp only [List.forall_mem_cons] at stated
  simp [stated, Fields.withDefault, time, text, buffers, cache, cors, limit, rewrites]

end Parts

namespace Timestamp

variable {t : Timestamp}

/-- The seconds are a number with a sign, written where it is none and read as one without. -/
theorem uint64_seconds (fromEpoch : t.isFromEpoch = true) :
    Decode.uint64 (.integer t.seconds.toInt) = .ok (.ofNat t.seconds.toInt.toNat) := by
  have nonneg : 0 ≤ t.seconds.toInt := Int64.le_iff_toInt_le.1 (of_decide_eq_true fromEpoch)
  have below := t.seconds.toInt_lt
  rw [Decode.uint64, ← Int.toNat_of_nonneg nonneg]
  show (Decode.natBelow _ (.ofNat _)).map _ = _
  rw [Decode.natBelow_ofNat]
  · rfl
  · show _ < 18446744073709551616
    omega

/-- From the epoch on a point in time has a record, and is read from it again. -/
theorem exists_encode? (fromEpoch : t.isFromEpoch = true) :
    ∃ value, t.encode? = some value ∧ ∀ d, decode d value = .ok t := by
  refine ⟨_, if_pos fromEpoch, fun d => ?_⟩
  have seconds : (UInt64.ofNat t.seconds.toInt.toNat).toNat = t.seconds.toInt.toNat := by
    have below := t.seconds.toInt_lt
    rw [UInt64.toNat_ofNat']
    omega
  rw [decode, Decode.closedFields_object (by simp)]
  refine Decode.fields_bind (by simp) fun given stated => ?_
  simp only [List.forall_mem_cons] at stated
  -- plain `simp` would bring `toInt.toNat` to another form
  simp only [stated, Fields.required, uint64_seconds fromEpoch, Decode.ok_bind,
    Decode.uint32_ofNat, seconds, ofParts?_toNat fromEpoch]

end Timestamp

namespace HeaderMap

variable {name value : String} {entries : List (String × String)}

/-- A header whose name is behind all others is put behind them. -/
theorem insertEntry_of_last (last : ∀ entry ∈ entries, entry.1 < name) :
    insertEntry name value entries = entries ++ [(name, value)] := by
  induction entries with
  | nil => rfl
  | cons entry entries ih =>
    obtain ⟨first, others⟩ := List.forall_mem_cons.1 last
    rw [insertEntry, if_neg (String.lt_asymm first), if_pos first, ih others, List.cons_append]

/-- Headers put one after another in ascending order stay in the order in which they come. -/
theorem entries_foldl (headers : HeaderMap) (rest : List (String × String))
    (ascending : (headers.entries ++ rest).Pairwise (fun a b => a.1 < b.1)) :
    (rest.foldl (fun headers (name, value) => headers.insert name value) headers).entries =
      headers.entries ++ rest := by
  induction rest generalizing headers with
  | nil => exact (List.append_nil _).symm
  | cons entry rest ih =>
    obtain ⟨name, value⟩ := entry
    have last : (headers.insert name value).entries = headers.entries ++ [(name, value)] := by
      refine insertEntry_of_last fun entry inside => ?_
      exact (List.pairwise_append.1 ascending).2.2 entry inside _ (List.mem_cons_self ..)
    rw [List.foldl_cons, ih, last, List.append_assoc]
    · rfl
    · rwa [last, List.append_assoc]

/-- A map is the one of its own entries. -/
theorem ofList_entries (headers : HeaderMap) : ofList headers.entries = headers := by
  have same : (ofList headers.entries).entries = headers.entries :=
    entries_foldl empty headers.entries headers.ascending
  cases made : ofList headers.entries
  rw [made] at same
  exact (HeaderMap.mk.injEq ..).mpr same

theorem decode_encode (headers : HeaderMap) : decode headers.encode = .ok headers := by
  rw [encode, decode, Decode.stringTable, Decode.stringMembers_map]
  exact congrArg Except.ok headers.ofList_entries

end HeaderMap

namespace Rule

/-- A rule that was created from the epoch on has a record, and any reader at any time reads the
rule from it, equal in every field. -/
theorem decode_encode? (rule : Rule) (fromEpoch : rule.created.isFromEpoch = true) :
    ∃ value, rule.encode? = some value ∧ ∀ d now, decode d now value = .ok rule := by
  obtain ⟨created, written, read⟩ := Timestamp.exists_encode? fromEpoch
  rw [encode?, written]
  refine ⟨_, rfl, fun d now => ?_⟩
  have path (s? : Option String) : Decode.option Decode.string (.ofOption .string s?) = .ok s? :=
    Decode.option_ofOption nofun Decode.string_string s?
  have targets := Decode.list_map (LoadBalancingTarget.decode_encode d) rule.targets
  have check := Decode.option_ofOption nofun (HealthCheck.decode_encode d) rule.healthCheck
  have advanced := Decode.option_ofOption (fun settings => by rw [AdvancedConfig.encode]; nofun)
    (AdvancedConfig.decode_encode d) rule.advanced
  rw [decode]
  refine Decode.fields_bind (by simp) fun given stated => ?_
  simp only [List.forall_mem_cons] at stated
  simp [stated, Fields.required, Fields.withDefault, path, targets, check, advanced, read,
    Protocol.decode_encode, LoadBalancingMethod.decode_encode, HeaderMap.decode_encode]

/-- A rule in which every setting is given, most of them other than usual. -/
def furnished : Rule where
  id := "Shop \"1\""
  name := "the shop,\nby night"
  sourceHost := "shop.example"
  targetPort := 65535
  targets := [⟨"east", 8080, 4294967295⟩, ⟨"", 0, 0⟩]
  method := .leastConnections
  protocol := .https
  sslEnabled := true
  sslCertPath := some ""
  headers := .ofList [("X-Shop", "1"), ("", "")]
  healthCheck := some ⟨"/up", 0, [204, 204], 18446744073709551615, 0⟩
  advanced := some
    { proxySendTimeout := some 0
      proxyBuffers := some ⟨0, "4k"⟩
      cache := some ⟨true, 60⟩
      cors := some ⟨true, "", "GET", "", true⟩
      rateLimit := some ⟨true, 5, 1, true, false⟩
      rewriteRules := [⟨"^/a", "/b", .permanent⟩] }
  enabled := false
  created := ⟨1700000000, 999999999, by decide⟩

theorem decode_encode?_furnished :
    furnished.created.isFromEpoch = true ∧
      ∃ value, furnished.encode? = some value ∧ ∀ d now, decode d now value = .ok furnished :=
  have fromEpoch : furnished.created.isFromEpoch = true := by decide
  ⟨fromEpoch, decode_encode? furnished fromEpoch⟩

end Rule

end ProxyKeeper
