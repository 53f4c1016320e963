import ProxyKeeper.Proofs.Store.Crash

/-!
# What the operations of the store do

Where every call is carried out, each operation of the store is told by what is in the places of
rule files: what it answers depends on them, and all it does is to change those of its id. An
operation that cannot do so fails with a fault of the file system.

## Main Definitions

* `Store.Bears` — a sound tree with something in its places
* `Store.ChangesOnly` — a sound tree that differs from an earlier one in the places of some ids

## Main Results

* `Store.isIo_of_readIn`, `Store.isIo_of_listIn` — why looking fails
* `Store.Bears.mem_listIn_iff` — what is listed
* `Store.Bears.meets_write`, `Store.Bears.meets_remove` — what is written and removed
* `Store.Sound.meets_write`, `Store.Sound.meets_remove` — the places of other ids meanwhile
-/

namespace ProxyKeeper

namespace Store

open Operation

variable {store : Store} {tree left : Tree} {id : String} {context : Context} {rack : Rack}
  {barred : Bool} {e : OperationError}

/-- A sound tree with something in its places. -/
structure Bears (store : Store) (rack : Rack) (barred : Bool) (tree : Tree) : Prop where
  sound : store.Sound tree
  held_eq : store.held tree = rack
  barred_eq : store.barred tree = barred

theorem Holds.bears (holds : store.Holds rack barred tree) : store.Bears rack barred tree :=
  ⟨.inl holds.settled, holds.held_eq, holds.barred_eq⟩

/-! ## Looking -/

/-- Reading a text fails with a fault of the file system. -/
theorem isIo_of_textOf {path : Path} {answer : Except IoFault ByteArray}
    (failed : textOf path answer = .error e) : e.IsIo := by
  unfold textOf at failed
  repeat' split at failed
  all_goals cases failed
  all_goals exact ⟨_, _, rfl⟩

theorem isIo_of_idsOf {directory : Path} {answer : Except IoFault (List String)}
    (failed : idsOf directory answer = .error e) : e.IsIo := by
  unfold idsOf at failed
  repeat' split at failed
  all_goals cases failed
  exact ⟨_, _, rfl⟩

/-- Reading the file of an id fails with a fault of the file system. -/
theorem isIo_of_readIn (valid : isRuleId id = true) (failed : store.readIn tree id = .error e) :
    e.IsIo := by
  rw [readIn_eq valid] at failed
  cases first : textOf (store.place id .http) (tree.read (store.place id .http)) with
  | error fault =>
    rw [first] at failed
    cases failed
    exact isIo_of_textOf first
  | ok text =>
    rw [first] at failed
    cases text with
    | some text => cases failed
    | none =>
      cases second : textOf (store.place id .stream) (tree.read (store.place id .stream)) with
      | error fault =>
        rw [second] at failed
        cases failed
        exact isIo_of_textOf second
      | ok text =>
        rw [second] at failed
        cases failed

/-- So does listing the ids. -/
theorem isIo_of_listIn (failed : store.listIn tree = .error e) : e.IsIo := by
  rw [listIn_eq] at failed
  cases first : idsOf (store.directory .http) (tree.list (store.directory .http)) with
  | error fault =>
    rw [first] at failed
    cases failed
    exact isIo_of_idsOf first
  | ok ids =>
    rw [first] at failed
    cases second : idsOf (store.directory .stream) (tree.list (store.directory .stream)) with
    | error fault =>
      rw [second] at failed
      cases failed
      exact isIo_of_idsOf second
    | ok ids =>
      rw [second] at failed
      cases failed

/-- Ids are listed when those of both contexts can be. -/
theorem exists_of_listIn {ids : List String} (listed : store.listIn tree = .ok ids) :
    ∃ http stream, idsOf (store.directory .http) (tree.list (store.directory .http)) = .ok http ∧
      idsOf (store.directory .stream) (tree.list (store.directory .stream)) = .ok stream ∧
      ids = ascendingNames (http ++ stream) := by
  rw [listIn_eq] at listed
  cases first : idsOf (store.directory .http) (tree.list (store.directory .http)) with
  | error fault => rw [first] at listed; cases listed
  | ok http =>
    cases second : idsOf (store.directory .stream) (tree.list (store.directory .stream)) with
    | error fault => rw [first, second] at listed; cases listed
    | ok stream =>
      rw [first, second] at listed
      cases listed
      exact ⟨http, stream, rfl, rfl, rfl⟩

/-- Ids are listed in strictly ascending order. -/
theorem pairwise_listIn {ids : List String} (listed : store.listIn tree = .ok ids) :
    ids.Pairwise (· < ·) := by
  obtain ⟨http, stream, _, _, rfl⟩ := exists_of_listIn listed
  exact pairwise_ascendingNames _

theorem eq_of_idsFrom {directory : Path} {shut : Bool} {ids listed : List String}
    (is : idsFrom directory shut ids = .ok listed) : listed = ids := by
  unfold idsFrom at is
  repeat' split at is
  all_goals cases is
  rfl

namespace Bears

/-- The ids that are listed are those with something in their places. -/
theorem mem_listIn_iff (bears : store.Bears rack barred tree) {ids : List String}
    (listed : store.listIn tree = .ok ids) : id ∈ ids ↔ ∃ context, rack id context ≠ none := by
  obtain ⟨http, stream, listedHttp, listedStream, rfl⟩ := exists_of_listIn listed
  obtain ⟨own, inHttp, isHttp⟩ := bears.sound.idsOf_eq .http
  obtain ⟨own', inStream, isStream⟩ := bears.sound.idsOf_eq .stream
  rw [bears.held_eq] at inHttp inStream
  rw [mem_ascendingNames, List.mem_append, eq_of_idsFrom (isHttp.symm.trans listedHttp),
    eq_of_idsFrom (isStream.symm.trans listedStream), inHttp, inStream]
  constructor
  · rintro (there | there)
    exacts [⟨_, there⟩, ⟨_, there⟩]
  · rintro ⟨_ | _, there⟩
    exacts [.inl there, .inr there]

/-! ## Writing and removing -/

/-- A rule file is written, and then it is the only one of its id. -/
theorem meets_write (bears : store.Bears rack barred tree) (valid : isRuleId id = true)
    (file : RuleFile) :
    (store.write id file).Meets Tree.exactly
      (fun _ left => store.readIn left id = .ok (some file) ∧
        store.Bears ((rack.put id file.context (some (.file file.text.toUTF8))).put id
          file.context.other none) barred left)
      (fun e _ => e.IsIo) tree := by
  have meets : (store.write id file).Meets (Tree.terms .never (store.Advances id file)) _ _ tree :=
    meets_write_tree bears.sound valid file
  refine (Program.Meets.of_answers meets ?_ fun request s answer s' answered => ?_).mono ?_
  · intro request s _
    cases request with
    | file call => exact fun _ _ _ _ => List.pairwise_of_forall fun _ _ => trivial
    | _ => trivial
  · cases request <;> exact answered
  · rintro (e | _) left promised
    · exact promised.1
    · obtain ⟨-, ⟨read, holds⟩ | ⟨_, _, broken⟩⟩ := promised
      · rw [bears.held_eq, bears.barred_eq] at holds
        exact ⟨read, holds.bears⟩
      · exact broken.elim

/-- A file is removed from its place, where there is one. -/
theorem meets_removeIfPresent (bears : store.Bears rack barred tree) (valid : isRuleId id = true)
    (context : Context) :
    (removeIfPresent (store.place id context)).Meets Tree.exactly
      (fun found left => found = (rack id context).isSome ∧
        store.Bears (rack.put id context none) barred left)
      (fun e _ => e.IsIo) tree := by
  rcases bears.sound with settled | bare
  · refine (meets_removeIfPresent_tree ⟨settled, bears.held_eq, bears.barred_eq⟩ valid trivial
      fun _ _ => trivial).mono ?_ fun _ _ failed => failed.1
    rintro found left ⟨-, ⟨was, holds, -⟩ | ⟨_, _, broken⟩⟩
    · exact ⟨was, holds.bears⟩
    · exact broken.elim
  · -- nothing is found where no directory is
    have vacant : rack id context = none := by rw [← bears.held_eq, bare.held_eq]
    refine meets_bind.2 (meets_request.2 ⟨fun _ _ _ _ => List.pairwise_of_forall fun _ _ => trivial,
      ?_⟩)
    rintro answer left ⟨passed, goes⟩
    have performed := goes.perform_eq
    cases answer with
    | ok _ =>
      obtain ⟨directory, _, leads, _⟩ := Tree.remove_child_ok
        (store.directory_ne_of_activeDir bare.given context) (isPlainName_fileName valid)
        (fun directory leads => by cases (bare.missing context).symm.trans leads)
        (Tree.changed_eq_ok_iff.1 performed)
      cases (bare.missing context).symm.trans leads
    | error fault =>
      obtain ⟨_, rfl⟩ := Tree.changed_eq_error_iff.1 performed
      dsimp only
      split
      · refine meets_pure.2 ⟨by rw [vacant]; rfl, ?_⟩
        rw [Rack.put_eq_self vacant]
        exact bears
      · exact ⟨_, _, rfl⟩

/-- The files of an id are removed. -/
theorem meets_remove (bears : store.Bears rack barred tree) (valid : isRuleId id = true) :
    (store.remove id).Meets Tree.exactly
      (fun found left => found = ((rack id .http).isSome || (rack id .stream).isSome) ∧
        store.Bears ((rack.put id .http none).put id .stream none) barred left)
      (fun e _ => e.IsIo) tree := by
  rw [remove, path_of_isRuleId store valid, path_of_isRuleId store valid]
  refine meets_bind.2 (meets_ok.2 ((bears.meets_removeIfPresent valid .http).bind ?_))
  rintro _ made ⟨rfl, bears⟩
  refine meets_bind.2 (meets_ok.2 ((bears.meets_removeIfPresent valid .stream).bind ?_))
  rintro _ left ⟨rfl, bears⟩
  refine meets_pure.2 ⟨?_, bears⟩
  rw [Rack.put_other (by simp)]

end Bears

/-! ## The places of other ids -/

/-- Whether a later tree is sound, and has the same as a tree in the places of all ids but some. -/
structure ChangesOnly (store : Store) (ids : List String) (tree left : Tree) : Prop where
  sound : store.Sound left
  barred_eq : store.barred left = store.barred tree
  held_eq : ∀ id, id ∉ ids → store.held left id = store.held tree id

namespace ChangesOnly

variable {made : Tree} {ids ids' : List String}

theorem refl (sound : store.Sound tree) : store.ChangesOnly ids tree tree :=
  ⟨sound, rfl, fun _ _ => rfl⟩

theorem trans (first : store.ChangesOnly ids tree made)
    (second : store.ChangesOnly ids' made left) : store.ChangesOnly (ids ++ ids') tree left := by
  refine ⟨second.sound, second.barred_eq.trans first.barred_eq, fun id other => ?_⟩
  obtain ⟨other, other'⟩ := not_or.1 (mt List.mem_append.2 other)
  exact (second.held_eq id other').trans (first.held_eq id other)

/-- What is shown of all other ids is the same. -/
theorem sameBut (changes : store.ChangesOnly ids tree left) (sound : store.Sound tree) :
    store.SameBut ids tree left :=
  sound.sameBut changes.sound changes.barred_eq changes.held_eq

end ChangesOnly

namespace Sound

/-- A rule file is written, and no other id is touched. -/
theorem meets_write (sound : store.Sound tree) (valid : isRuleId id = true) (file : RuleFile) :
    (store.write id file).Meets Tree.exactly
      (fun _ left => store.ChangesOnly [id] tree left ∧ store.readIn left id = .ok (some file))
      (fun e _ => e.IsIo) tree := by
  have bears : store.Bears (store.held tree) (store.barred tree) tree := ⟨sound, rfl, rfl⟩
  refine (bears.meets_write valid file).mono ?_ fun _ _ failed => failed
  rintro _ left ⟨read, bears⟩
  refine ⟨⟨bears.sound, bears.barred_eq, fun i other => ?_⟩, read⟩
  have other := List.ne_of_not_mem_cons other
  rw [bears.held_eq, Rack.put_of_ne other, Rack.put_of_ne other]

/-- The files of an id are removed, and no other id is touched. -/
theorem meets_remove (sound : store.Sound tree) (valid : isRuleId id = true) :
    (store.remove id).Meets Tree.exactly
      (fun _ left => store.ChangesOnly [id] tree left ∧
        ∀ context, store.held left id context = none)
      (fun e _ => e.IsIo) tree := by
  have bears : store.Bears (store.held tree) (store.barred tree) tree := ⟨sound, rfl, rfl⟩
  refine (bears.meets_remove valid).mono ?_ fun _ _ failed => failed
  rintro _ left ⟨_, bears⟩
  refine ⟨⟨bears.sound, bears.barred_eq, fun i other => ?_⟩, fun context => ?_⟩
  · have other := List.ne_of_not_mem_cons other
    rw [bears.held_eq, Rack.put_of_ne other, Rack.put_of_ne other]
  · rw [bears.held_eq]
    cases context with
    | http => rw [Rack.put_other (by decide), Rack.put_self]
    | stream => exact Rack.put_self

/-- The ids that are listed are those with something in their places. -/
theorem mem_listIn_iff (sound : store.Sound tree) {ids : List String}
    (listed : store.listIn tree = .ok ids) :
    id ∈ ids ↔ ∃ context, store.held tree id context ≠ none :=
  Bears.mem_listIn_iff ⟨sound, rfl, rfl⟩ listed

/-- What is listed is an id. -/
theorem isRuleId_of_listIn (sound : store.Sound tree) {ids : List String}
    (listed : store.listIn tree = .ok ids) (is : id ∈ ids) : isRuleId id = true := by
  obtain ⟨context, there⟩ := (sound.mem_listIn_iff listed).1 is
  cases valid : isRuleId id with
  | true => rfl
  | false => exact absurd (held_of_not_isRuleId store tree valid context) there

end Sound

end Store

end ProxyKeeper
