import ProxyKeeper.Controller.Basic
import ProxyKeeper.Proofs.Store.Effects

/-!
# Putting files back

What the controller does on a site when a change of files is checked, taken up, or undone. The
snapshots of a change cover it: whatever differs from the shelf before the change has a snapshot
that shows what was found there. So putting all snapshots back restores the shelf before the change,
unless one of them could not be put back, and then the operation says so.

A snapshot holds one file. Of an id that has files in both contexts it shows the first one only, and
putting it back removes the other.

## Main Definitions

* `Covers` — snapshots that show all that has changed
* `OperationError.Tells` — what an error tells of the rule files
* `Controller.Undoes` — how an operation that changes files fails

## Main Results

* `Site.meets_restoreEach` — putting snapshots back, one by one
* `Site.meets_rollBack`, `Site.meets_settle` — how a change that was written ends
* `Site.meets_exclusively` — what holds of a change holds of it with the lock held
-/

namespace ProxyKeeper

/-- Whether snapshots show what was found before of all that is different now. -/
structure Covers (snapshots : List Snapshot) (before shelf : Shelf) : Prop where
  valid : ∀ snapshot ∈ snapshots, isRuleId snapshot.1 = true
  shows : ∀ snapshot ∈ snapshots, Shelf.Shows (before snapshot.1) snapshot.2
  others : ∀ id, (∀ snapshot ∈ snapshots, snapshot.1 ≠ id) → shelf id = before id

namespace Covers

variable {snapshots : List Snapshot} {before shelf shelf' : Shelf}

theorem nil (shelf : Shelf) : Covers [] shelf shelf :=
  ⟨nofun, nofun, fun _ _ => rfl⟩

/-- One more id may change when a snapshot of it was taken. -/
theorem append (covers : Covers snapshots before shelf) {id : String} {file : Option RuleFile}
    (valid : isRuleId id = true) (shows : Shelf.Shows (before id) file)
    (same : ∀ i, i ≠ id → shelf' i = shelf i) :
    Covers (snapshots ++ [(id, file)]) before shelf' := by
  refine ⟨?_, ?_, ?_⟩
  · intro snapshot listed
    rcases List.mem_append.1 listed with listed | listed
    · exact covers.valid snapshot listed
    · rw [List.mem_singleton.1 listed]
      exact valid
  · intro snapshot listed
    rcases List.mem_append.1 listed with listed | listed
    · exact covers.shows snapshot listed
    · rw [List.mem_singleton.1 listed]
      exact shows
  · intro i absent
    have other : i ≠ id := Ne.symm (absent (id, file) (by simp))
    rw [same i other]
    exact covers.others i fun snapshot listed => absent snapshot (List.mem_append_left _ listed)

end Covers

/-- What an error tells of the rule files after a change that should have led to `requested`. -/
def OperationError.Tells (rollback faults : Bool) (requested : Shelf → Prop)
    (before after : Shelf) : OperationError → Prop
  | .applyFailed _ => if rollback then after = before else requested after
  | .rollbackFailed _ _ => faults = true
  | _ => after = before

theorem OperationError.IsIo.tells {error : OperationError} (io : error.IsIo)
    {rollback faults : Bool} {requested : Shelf → Prop} {shelf : Shelf} :
    error.Tells rollback faults requested shelf shelf := by
  obtain ⟨path, fault, rfl⟩ := io
  rfl

theorem OperationError.Tells.mono {error : OperationError} {rollback faults : Bool}
    {requested wider : Shelf → Prop} {before after : Shelf}
    (h : error.Tells rollback faults requested before after)
    (widens : ∀ shelf, requested shelf → wider shelf) :
    error.Tells rollback faults wider before after := by
  cases error with
  | applyFailed message =>
    change if rollback then after = before else wider after
    change if rollback then after = before else requested after at h
    split
    next undone => rwa [if_pos undone] at h
    next stays =>
      rw [if_neg stays] at h
      exact widens after h
  | _ => exact h

/-- How an operation that changes files fails: it ends with what its error tells, where what was
before counts as restored when the ids that it touched were put back as they were found. -/
def Controller.Undoes (controller : Controller) (faults : Bool) (live : Live)
    (within : List String → Prop) (requested : Shelf → Prop) (before : Shelf)
    (error : OperationError) (site : Site) : Prop :=
  ∃ touched after, within touched ∧ controller.store.At live after site ∧
    error.Tells controller.config.rollbackOnApplyFailure faults requested
      (before.asFound touched) after

namespace Controller.Undoes

variable {controller : Controller} {faults : Bool} {live : Live} {within : List String → Prop}
  {requested : Shelf → Prop} {before : Shelf} {error : OperationError} {site : Site}

/-- An operation that fails before it touches a file leaves all as it was. -/
theorem untouched (none : within []) (here : controller.store.At live before site)
    (tells : error.Tells controller.config.rollbackOnApplyFailure faults requested before before) :
    controller.Undoes faults live within requested before error site :=
  ⟨[], before, none, here, by rwa [Shelf.asFound_nil]⟩

/-- Where no id had two files, what was before is all there was. -/
theorem tells (undoes : controller.Undoes faults live within requested before error site)
    (single : before.IsSingle) :
    ∃ after, controller.store.At live after site ∧
      error.Tells controller.config.rollbackOnApplyFailure faults requested before after := by
  obtain ⟨touched, after, _, there, tells⟩ := undoes
  rw [single.asFound_eq] at tells
  exact ⟨after, there, tells⟩

end Controller.Undoes

namespace Site

open Operation

variable {α : Type} {controller : Controller} {site : Site} {faults : Bool} {live : Live}
  {before shelf : Shelf} {snapshots : List Snapshot} {within : List String → Prop}

/-! ## What leaves the files alone -/

theorem meets_count {event : Event} {tally : Option Tally} :
    (Program.request (.count event tally)).Meets (terms faults) (fun _ s => s = site) site :=
  ⟨trivial, fun _ _ answered => answered⟩

theorem meets_publish {phase : Phase} {fails : OperationError → Site → Prop} :
    (Controller.publish phase).Meets (terms faults) (fun _ s => s = site) fails site :=
  meets_request.2 ⟨trivial, fun _ _ answered => answered⟩

/-- Looking changes nothing, whether or not it fails. -/
theorem meets_of_asks_looks {p : Program α} (h : p.Asks Store.Looks) :
    p.Meets (terms faults) (fun _ s => s = site) site := by
  refine h.meets (fun _ _ => trivial) ?_
  intro r answer s' looks answered
  cases r with
  | file call =>
    have unchanging : call.changes = false := by
      simpa [Store.Looks, Request.isLook] using looks
    obtain ⟨tree, answered, rfl⟩ := answered
    cases answered with
    | performs _ => rw [Tree.perform_of_not_changes _ unchanging]
    | fails _ _ left => rw [left.eq_of_not_changes unchanging]
  | _ => exact absurd looks Bool.noConfusion

/-- A check changes nothing. -/
theorem meets_gate : controller.gate.Meets (terms faults) (fun _ s => s = site) site := by
  refine Program.meets_bind.2 ⟨trivial, ?_⟩
  rintro (reply : Nginx.Reply) s' answered
  have same : s' = site := by
    rw [answered, replied, if_neg]
    rintro ⟨reload, _⟩
    cases reload
  rw [same]
  refine meets_count.bind ?_
  rintro _ s rfl
  split
  · rfl
  · refine meets_count.bind ?_
    rintro _ s rfl
    rfl

/-- A reload that succeeds puts the files in force; one that fails changes nothing. -/
theorem meets_reload :
    controller.reload.Meets (terms faults)
      (fun _ s => s = { site with live := ⟨site.tree, site.live.reloads + 1⟩ })
      (fun e s => (∃ message, e = .applyFailed message) ∧ s = site) site := by
  refine meets_bind.2 (meets_request.2 ⟨trivial, ?_⟩)
  rintro (reply : Nginx.Reply) s' answered
  have answered : s' = site.replied controller.config.reloadCall reply := answered
  dsimp only
  split
  next success =>
    rw [answered, replied, if_pos ⟨rfl, success⟩]
    rfl
  next failure =>
    have same : s' = site := by
      rw [answered, replied, if_neg]
      rintro ⟨_, success⟩
      exact failure success
    refine meets_bind.2 (meets_request.2 ⟨trivial, ?_⟩)
    rintro _ s rfl
    exact ⟨⟨_, rfl⟩, same⟩

theorem meets_record {kind : OperationKind} {ok : Bool} :
    (controller.record kind ok).Meets (terms faults) (fun _ s => s = site) site := by
  refine meets_count.bind ?_
  rintro _ s rfl
  refine (meets_of_asks_looks controller.store.asks_list).bind ?_
  rintro outcome s rfl
  cases outcome with
  | ok ids => exact meets_count
  | error e => rfl

/-- To let go of the lock changes no file and no result. -/
theorem meets_release {returns : α → Site → Prop} {fails : OperationError → Site → Prop}
    (result : Except OperationError α)
    (promised : match result with
      | .ok a => returns a site
      | .error e => fails e site) :
    (request .release >>= fun _ => Operation.ofExcept result).Meets (terms faults) returns fails
      site := by
  refine meets_bind.2 (meets_request.2 ⟨trivial, ?_⟩)
  rintro _ s rfl
  cases result with
  | ok a => exact promised
  | error e => exact promised

/-- The lock, the phases and the counts change no file. -/
theorem meets_exclusively {kind : OperationKind} {isIdle : α → Bool} {change : Operation α}
    {returns : α → Site → Prop} {fails : OperationError → Site → Prop}
    (h : change.Meets (terms faults) returns fails site) :
    (controller.exclusively kind isIdle change).Meets (terms faults) returns fails site := by
  refine meets_bind.2 (meets_request.2 ⟨trivial, ?_⟩)
  rintro _ s rfl
  refine meets_publish.bind ?_
  rintro _ s rfl
  refine meets_bind.2 (meets_outcome.2 (h.mono ?_ ?_))
  · intro a s promised
    refine meets_publish.bind ?_
    rintro _ s rfl
    dsimp only
    split
    · refine meets_bind.2 (meets_lift.2 (meets_record.mono ?_))
      rintro _ s rfl
      exact meets_release (.ok a) promised
    · exact meets_release (.ok a) promised
  · intro e s promised
    refine meets_publish.bind ?_
    rintro _ s rfl
    refine meets_bind.2 (meets_lift.2 (meets_record.mono ?_))
    rintro _ s rfl
    exact meets_release (.error e) promised

/-! ## Putting back -/

/-- Snapshots are put back one by one; when there is no failure, all of them are. -/
theorem meets_restoreEach (here : controller.store.At live shelf site)
    (valid : ∀ snapshot ∈ snapshots, isRuleId snapshot.1 = true)
    (shows : ∀ snapshot ∈ snapshots, Shelf.Shows (before snapshot.1) snapshot.2) :
    (controller.restoreEach snapshots).Meets (terms faults)
      (fun failures s => (faults = false → failures = []) ∧
        ∃ after, controller.store.At live after s ∧
          (∀ id, (∀ snapshot ∈ snapshots, snapshot.1 ≠ id) → after id = shelf id) ∧
          (failures = [] → ∀ snapshot ∈ snapshots, ∃ file,
            Shelf.Shows (before snapshot.1) file ∧ after snapshot.1 = Shelf.row file)) site := by
  -- the shelf on the way is whatever the earlier snapshots have made of it
  induction snapshots generalizing site shelf with
  | nil => exact ⟨fun _ => rfl, shelf, here, fun _ _ => rfl, nofun⟩
  | cons snapshot snapshots ih =>
    obtain ⟨id, file⟩ := snapshot
    obtain ⟨validId, validRest⟩ := List.forall_mem_cons.1 valid
    obtain ⟨showsId, showsRest⟩ := List.forall_mem_cons.1 shows
    refine Program.Meets.bind (Store.meets_restore here validId file) ?_
    intro outcome s ended
    cases outcome with
    | ok _ =>
      have ended : controller.store.At live (shelf.set id file) s := ended
      refine (ih ended validRest showsRest).bind ?_
      rintro failures s ⟨none, after, there, others, restored⟩
      refine ⟨none, after, there, ?_, ?_⟩
      · intro i absent
        obtain ⟨ne, absent⟩ := List.forall_mem_cons.1 absent
        rw [others i absent, Shelf.set_of_ne (Ne.symm ne)]
      · intro clean
        refine List.forall_mem_cons.2 ⟨?_, restored clean⟩
        by_cases again : ∃ snapshot ∈ snapshots, snapshot.1 = id
        · -- the id has another snapshot, which was put back later
          obtain ⟨other, listed, rfl⟩ := again
          exact restored clean other listed
        · refine ⟨file, showsId, ?_⟩
          rw [others id fun other listed same => again ⟨other, listed, same⟩, Shelf.set_self]
    | error e =>
      obtain ⟨_, faulty, spoilt, same, there⟩ := ended
      refine (ih there validRest showsRest).bind ?_
      rintro failures s ⟨_, after, there, others, _⟩
      refine ⟨fun sound => ?_, after, there, ?_, nofun⟩
      · rw [faulty] at sound
        cases sound
      · intro i absent
        obtain ⟨ne, absent⟩ := List.forall_mem_cons.1 absent
        rw [others i absent, same i (Ne.symm ne)]

/-- Putting back what snapshots cover restores the shelf before the change, or tells that it does
not. -/
theorem meets_rollBack (here : controller.store.At live shelf site)
    (covers : Covers snapshots before shelf) (taken : within (snapshots.map Prod.fst))
    {error : OperationError} {requested : Shelf → Prop}
    (undone : ∀ restored, error.Tells controller.config.rollbackOnApplyFailure faults requested
      restored restored)
    {returns : Unit → Site → Prop} :
    (controller.rollBack snapshots error).Meets (terms faults) returns
      (controller.Undoes faults live within requested before) site := by
  refine meets_publish.bind ?_
  rintro _ s rfl
  refine meets_bind.2 (meets_bind.2 (meets_request.2 ⟨trivial, ?_⟩))
  rintro _ s rfl
  have valid : ∀ snapshot ∈ snapshots.reverse, isRuleId snapshot.1 = true :=
    fun snapshot listed => covers.valid snapshot (List.mem_reverse.1 listed)
  have shows : ∀ snapshot ∈ snapshots.reverse, Shelf.Shows (before snapshot.1) snapshot.2 :=
    fun snapshot listed => covers.shows snapshot (List.mem_reverse.1 listed)
  refine meets_bind.2 (meets_lift.2 ((meets_restoreEach here valid shows).mono ?_))
  rintro failures s ⟨sound, after, there, others, restored⟩
  split
  next clean =>
    have same : after = before.asFound (snapshots.map Prod.fst) := by
      funext id
      rw [Shelf.asFound]
      -- an id with a snapshot was put back, and one without never changed
      split
      next touched =>
        obtain ⟨snapshot, listed, rfl⟩ := List.mem_map.1 touched
        obtain ⟨file, shows, put⟩ :=
          restored (List.isEmpty_iff.1 clean) snapshot (List.mem_reverse.2 listed)
        rw [put, shows.row_eq]
      next untouched =>
        have absent : ∀ snapshot ∈ snapshots, snapshot.1 ≠ id :=
          fun snapshot listed same => untouched (List.mem_map.2 ⟨snapshot, listed, same⟩)
        rw [others id fun snapshot listed => absent snapshot (List.mem_reverse.1 listed)]
        exact covers.others id absent
    exact ⟨_, after, taken, there, same ▸ undone after⟩
  next failed =>
    refine ⟨_, after, taken, there, ?_⟩
    show faults = true
    cases faulty : faults with
    | true => rfl
    | false =>
      rw [sound faulty] at failed
      exact absurd rfl failed

/-- A change that was written is in force in the end, or is undone, or stays without being in
force when that is configured. -/
theorem meets_settle (here : controller.store.At live shelf site)
    (covers : Covers snapshots before shelf) (taken : within (snapshots.map Prod.fst))
    {requested : Shelf → Prop} (wanted : requested shelf) :
    (controller.settle snapshots).Meets (terms faults)
      (fun _ s => controller.store.At ⟨s.tree, live.reloads + 1⟩ shelf s)
      (controller.Undoes faults live within requested before) site := by
  refine meets_publish.bind ?_
  rintro _ s rfl
  refine meets_bind.2 (meets_lift.2 (meets_gate.mono ?_))
  rintro outcome s rfl
  cases ok : outcome.ok with
  | false =>
    rw [Bool.not_false, if_pos rfl]
    refine meets_rollBack here covers taken fun restored => ?_
    rfl
  | true =>
    rw [Bool.not_true, if_neg Bool.false_ne_true]
    refine meets_publish.bind ?_
    rintro _ s rfl
    refine meets_bind.2 (meets_outcome.2 (meets_reload.mono ?_ ?_))
    · rintro _ s rfl
      refine ⟨?_, here.tidy, here.shelf_eq⟩
      rw [here.live_eq]
    · rintro e s ⟨⟨message, rfl⟩, rfl⟩
      dsimp only
      split
      next rollback =>
        refine meets_rollBack here covers taken fun restored => ?_
        show if controller.config.rollbackOnApplyFailure then restored = restored else _
        rw [if_pos rollback]
      next stays =>
        refine ⟨_, shelf, taken, here, ?_⟩
        show if controller.config.rollbackOnApplyFailure then shelf = _ else requested shelf
        rwa [if_neg stays]

end Site

end ProxyKeeper
