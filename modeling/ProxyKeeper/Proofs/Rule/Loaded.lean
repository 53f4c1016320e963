import ProxyKeeper.Proofs.Program.Endings
import ProxyKeeper.Proofs.Store.Site
import ProxyKeeper.Rule.Loading

/-!
# Loaded rules

What the file of a rule has to be for the rule to be loaded. The time of loading shows in the rule
only as the time of its creation, which nothing that is written for the rule depends on.

## Main Definitions

* `Rule.IsLoaded` — what two calls of the file system answer when a rule is loaded

## Main Results

* `Rule.isLoaded_of_ends`, `Rule.IsLoaded.finds` — the runs in which a rule is loaded
* `Rule.IsLoaded.anytime` — the same file at another time
-/

namespace ProxyKeeper

/-! ## Runs that succeed -/

namespace Operation

open Program

variable {α σ : Type} {terms : Terms σ} {s t : σ} {faults : Bool} {site after : Site}

theorem ends_ofExcept_ok {result : Except OperationError α} {a : α} :
    (ofExcept result).run.Ends terms s (.ok a) t ↔ result = .ok a ∧ s = t :=
  ends_mk_ok

/-- A call of the file system is answered as the files on disk allow. -/
theorem ends_call_ok {ε : Type} {call : FileCall} {answer : call.Answer} :
    (ExceptT.lift (Program.request (.file call)) : ExceptT ε Program call.Answer).run.Ends
        (Site.terms faults) site (.ok answer) after ↔
      ∃ tree, site.tree.Answers faults call answer tree ∧ after = { site with tree } := by
  refine (ends_lift_ok.trans ends_ask : _ ↔ _).trans ?_
  constructor
  · rintro ⟨given, u, answered, last⟩
    obtain ⟨rfl, rfl⟩ := ends_done.1 last
    exact answered
  · intro answered
    exact ⟨answer, after, answered, .done _ _⟩

theorem ends_attempt_ok {call : FileCall} {answer : call.Answer} :
    (attempt call).run.Ends (Site.terms faults) site (.ok answer) after ↔
      ∃ tree, site.tree.Answers faults call answer tree ∧ after = { site with tree } :=
  ends_call_ok

/-- A call whose faults are failures was carried out when there is no failure. -/
theorem perform_of_ends {path : Path} {call : FileCall} {result : call.Result}
    (ends : (file path call).run.Ends (Site.terms faults) site (.ok result) after) :
    site.tree.perform call = (.ok result, after.tree) ∧ after.live = site.live := by
  obtain ⟨answer, u, called, rest⟩ := ends_bind_ok.1 ends
  obtain ⟨tree, answered, rfl⟩ := ends_attempt_ok.1 called
  cases answer with
  | error fault => exact absurd rest not_ends_throw_ok
  | ok given =>
    obtain ⟨rfl, rfl⟩ := ends_pure_ok.1 rest
    exact ⟨answered.ok, rfl⟩

end Operation

/-! ## The time of loading -/

/-- What comes after a thing that succeeds decides alone. -/
theorem exists_bind_ok {ε α β : Type} {x : Except ε α} {f g : α → Except ε β} {b : β}
    {P : β → Prop} (h : x >>= f = .ok b) (rest : ∀ a, f a = .ok b → ∃ c, g a = .ok c ∧ P c) :
    ∃ c, x >>= g = .ok c ∧ P c := by
  cases x with
  | error e => cases h
  | ok a => exact rest a h

/-- A field that can be read has a value with any default. -/
theorem exists_withDefault {α β : Type} {given : Decode.Fields} {name : String} {usual : α}
    {item : Json → Decode.Result α} {f : α → Decode.Result β} {b : β}
    (h : given.withDefault name usual item >>= f = .ok b) (other : α) :
    ∃ a a', f a = .ok b ∧ given.withDefault name other item = .ok a' := by
  rw [Decode.Fields.withDefault] at h ⊢
  cases stated : given name with
  | none =>
    rw [stated] at h
    exact ⟨usual, other, h, rfl⟩
  | some value =>
    rw [stated] at h
    cases read : item value with
    | error e =>
      simp only [read] at h
      cases h
    | ok a =>
      simp only [read] at h
      exact ⟨a, a, h, read⟩

namespace Rule

variable {readers : Readers} {now : Timestamp} {rule other : Rule} {tree : Tree} {path : Path}

/-- Whether two rules differ in the time of their creation at most. -/
def IsSameBut (rule other : Rule) : Prop :=
  ∃ created, other = { rule with created }

namespace IsSameBut

variable (same : rule.IsSameBut other)

include same

theorem id_eq : other.id = rule.id := by
  obtain ⟨created, rfl⟩ := same
  rfl

theorem context_eq : other.context = rule.context := by
  obtain ⟨created, rfl⟩ := same
  rfl

theorem validate_eq : other.validate = rule.validate := by
  obtain ⟨created, rfl⟩ := same
  rfl

theorem compile_eq (options : RenderOptions) : other.compile options = rule.compile options := by
  obtain ⟨created, rfl⟩ := same
  rfl

end IsSameBut

/-- A record gives the same rule at any time, but for the time of creation. -/
theorem decode_anytime {d : Dialect} {value : Json} (h : decode d now value = .ok rule)
    (now' : Timestamp) : ∃ other, decode d now' value = .ok other ∧ rule.IsSameBut other := by
  simp only [decode] at h ⊢
  -- the fields before the last one do not depend on the time
  repeat
    refine exists_bind_ok h ?_
    clear h
    intro _ h
  obtain ⟨created, created', made, told⟩ := exists_withDefault h now'
  rw [told]
  cases made
  exact ⟨_, rfl, created', rfl⟩

theorem read_anytime {format : Format} {text : String} (h : read readers format now text = .ok rule)
    (now' : Timestamp) :
    ∃ other, read readers format now' text = .ok other ∧ rule.IsSameBut other := by
  cases format with
  | json =>
    simp only [read] at h ⊢
    cases value : readers.json? text with
    | none =>
      rw [value] at h
      cases h
    | some value' =>
      rw [value] at h
      exact decode_anytime h now'
  | toml =>
    simp only [read] at h ⊢
    cases value : readers.toml? text with
    | none =>
      rw [value] at h
      cases h
    | some members =>
      rw [value] at h
      exact decode_anytime h now'

/-! ## Loading -/

/-- Whether a rule is loaded from a path, by what two calls of the file system answer. -/
structure IsLoaded (readers : Readers) (now : Timestamp) (path : Path) (tree : Tree) (rule : Rule) :
    Prop where
  status : ∃ status, tree.status path = .ok status ∧ ¬ maximalFileSize < status.size
  content : ∃ content text, tree.read path = .ok content ∧
    Text.Utf8.strict? content = some text ∧ read readers (formatOf path) now text = .ok rule
  valid : rule.validate = .ok ()

/-- There is one rule at most that is loaded. -/
theorem IsLoaded.unique (loaded : IsLoaded readers now path tree rule)
    (loaded' : IsLoaded readers now path tree other) : rule = other := by
  obtain ⟨content, text, held, decoded, told⟩ := loaded.content
  obtain ⟨content', text', held', decoded', told'⟩ := loaded'.content
  obtain rfl := Except.ok.inj (held.symm.trans held')
  obtain rfl := Option.some.inj (decoded.symm.trans decoded')
  exact Except.ok.inj (told.symm.trans told')

/-- The same file gives the same rule at any time, but for the time of creation. -/
theorem IsLoaded.anytime (loaded : IsLoaded readers now path tree rule) (now' : Timestamp)
    {tree' : Tree}
    (known : tree'.status path = tree.status path) (same : tree'.read path = tree.read path) :
    ∃ other, IsLoaded readers now' path tree' other ∧ rule.IsSameBut other := by
  obtain ⟨content, text, held, decoded, told⟩ := loaded.content
  obtain ⟨other, told', differs⟩ := read_anytime told now'
  refine ⟨other, ⟨?_, ⟨content, text, ?_, decoded, told'⟩, ?_⟩, differs⟩
  · rw [known]
    exact loaded.status
  · rw [same, held]
  · rw [differs.validate_eq]
    exact loaded.valid

section Ends

open Program

variable {faults : Bool} {site after : Site}

theorem answers_of_ends_loadCall {activity : String} {call : FileCall} {result : call.Result}
    (ends : (loadCall path activity call).run.Ends (Site.terms faults) site (.ok result) after) :
    site.tree.perform call = (.ok result, after.tree) := by
  obtain ⟨answer, u, called, rest⟩ := ends_bind_ok.1 ends
  obtain ⟨tree, answered, rfl⟩ := Operation.ends_attempt_ok.1 called
  cases answer with
  | error fault => exact absurd rest not_ends_throw_ok
  | ok given =>
    obtain ⟨rfl, rfl⟩ := ends_pure_ok.1 rest
    exact answered.ok

/-- A rule that was loaded was loaded from what was there. -/
theorem isLoaded_of_ends
    (ends : (load readers now path).run.Ends (Site.terms faults) site (.ok rule) after) :
    IsLoaded readers now path site.tree rule ∧ after.tree = site.tree := by
  rw [load] at ends
  obtain ⟨status, u, known, ends⟩ := ends_bind_ok.1 ends
  split at ends
  next large => exact absurd ends not_ends_throw_ok
  next fits =>
    obtain ⟨content, v, seen, ends⟩ := ends_bind_ok.1 ends
    split at ends
    next => exact absurd ends not_ends_throw_ok
    next text decoded =>
      dsimp only at ends
      split at ends
      next => exact absurd ends not_ends_throw_ok
      next own told =>
        obtain ⟨_, w, checked, ends⟩ := ends_bind_ok.1 ends
        obtain ⟨valid, rfl⟩ := Operation.ends_ofExcept_ok.1 checked
        obtain ⟨rfl, rfl⟩ := ends_pure_ok.1 ends
        -- neither call changes the tree
        obtain ⟨status', same⟩ := Prod.mk.inj (answers_of_ends_loadCall known)
        obtain ⟨content', same'⟩ := Prod.mk.inj (answers_of_ends_loadCall seen)
        rw [← same] at content' same'
        exact ⟨⟨⟨status, status', fits⟩, ⟨content, text, content', decoded, told⟩, valid⟩,
          same'.symm⟩

end Ends

/-- What is there is loaded. -/
theorem IsLoaded.finds {nginx : NginxModel} {world : World}
    (loaded : IsLoaded readers now path world.tree rule) :
    Program.Finds nginx world (load readers now path) rule := by
  obtain ⟨status, known, fits⟩ := loaded.status
  obtain ⟨content, text, held, decoded, told⟩ := loaded.content
  have call (call : FileCall) {activity : String} {result : call.Result}
      (looks : (world.tree.perform call).2 = world.tree)
      (given : (world.tree.perform call).1 = .ok result) :
      Program.Finds nginx world (loadCall path activity call) result :=
    (Program.finds_call looks given).bind (Program.finds_pure result)
  rw [load]
  refine (call (.status path) rfl known).bind ?_
  rw [if_neg fits]
  refine (call (.read path) rfl held).bind ?_
  rw [decoded]
  dsimp only
  rw [told]
  exact (Program.finds_mk loaded.valid).bind (Program.finds_pure rule)

end Rule

end ProxyKeeper
