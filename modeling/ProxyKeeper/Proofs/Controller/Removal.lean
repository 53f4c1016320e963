import ProxyKeeper.Proofs.Controller.RollBack

/-!
# Removals

What the controller does on a site when it is to remove the files of an id, by itself or since a
rule is not enabled. A removal is not undone: when nginx refuses what is left, the files stay away,
and when only the first of two files can be removed, it stays away, too.

## Main Definitions

* `Controller.Removed` — how a removal succeeds
* `Controller.RemovalFails` — how a removal fails

## Main Results

* `Site.removes` — what a removal does
* `Site.removes_disabled` — what it does to apply a rule that is not enabled
-/

namespace ProxyKeeper

/-- Whether nginx refuses the files, or does not take them up. -/
def OperationError.isRefusal : OperationError → Bool
  | .testFailed _ => true
  | .applyFailed _ => true
  | _ => false

/-- Removing what is not there changes nothing. -/
theorem Shelf.set_none_eq_self {shelf : Shelf} {id : String}
    (missing : ∀ context, shelf id context = none) : shelf.set id none = shelf := by
  have row : shelf id = Shelf.row none := by
    funext context
    exact missing context
  rw [set, ← row, Function.update_eq_self]

namespace Controller

/-- How a removal succeeds: there was nothing to remove, or the files are gone and that is in
force. -/
def Removed (controller : Controller) (live : Live) (before : Shelf) (id : String)
    (site : Site) : Prop :=
  before = before.set id none ∧ controller.store.At live before site ∨
    controller.store.At ⟨site.tree, live.reloads + 1⟩ (before.set id none) site

/-- How a removal fails: the id is no id, or the files could not be removed and the first of them
may be gone, or nginx refuses what is left without them. -/
inductive RemovalFails (controller : Controller) (faults : Bool) (live : Live) (before : Shelf)
    (id : String) (error : OperationError) (site : Site) : Prop where
  | invalid (noId : isRuleId id = false) (told : ∃ field reason, error = .validation id field reason)
    (there : controller.store.At live before site)
  | io (io : error.IsIo) (faulty : faults = true)
    (there : controller.store.At live before site ∨
      controller.store.At live (before.put id .http none) site)
  | refused (refusal : error.isRefusal = true)
    (there : controller.store.At live (before.set id none) site)

end Controller

namespace Site

open Operation

variable {controller : Controller} {site : Site} {faults : Bool} {live : Live} {before : Shelf}

/-- A removal comes into force, or finds nothing to remove; when nginx refuses it, the files are
removed all the same. -/
theorem removes (here : controller.store.At live before site) (id : String) :
    (controller.remove id).Meets (terms faults)
      (fun _ s => controller.Removed live before id s)
      (controller.RemovalFails faults live before id) site := by
  refine meets_exclusively (meets_bind.2 ?_)
  by_cases valid : isRuleId id = true
  · refine (Store.removes_inOrder here valid).mono ?_ ?_
    · rintro found s ⟨told, removed⟩
      cases found with
      | false =>
        have missing : ∀ context, before id context = none := by
          have none := Bool.or_eq_false_iff.1 told.symm
          intro context
          cases context with
          | http => simpa using none.1
          | stream => simpa using none.2
        have same := Shelf.set_none_eq_self missing
        rw [same] at removed
        exact .inl ⟨same.symm, removed⟩
      | true =>
        refine meets_publish.bind ?_
        rintro _ s rfl
        refine meets_bind.2 (meets_lift.2 (meets_gate.mono ?_))
        rintro outcome s rfl
        cases ok : outcome.ok with
        | false =>
          -- the files are not put back
          rw [Bool.not_false, if_pos rfl]
          exact meets_throw.2 (.refused rfl removed)
        | true =>
          rw [Bool.not_true, if_neg Bool.false_ne_true]
          refine meets_publish.bind ?_
          rintro _ s rfl
          refine meets_bind.2 (meets_reload.mono ?_ ?_)
          · rintro _ s rfl
            refine .inr ⟨?_, removed.tidy, removed.shelf_eq⟩
            rw [removed.live_eq]
          · rintro e s ⟨⟨message, rfl⟩, rfl⟩
            exact .refused rfl removed
    · rintro e s ⟨io, faulty, left⟩
      exact .io io faulty left
  · have refused : controller.store.path id .http =
        .error (.validation id "id" "not a valid file name component") := by
      rw [Store.path, if_neg valid]
    rw [Store.remove, refused]
    exact meets_bind.2 (meets_error.2 (.invalid (by simpa using valid) ⟨_, _, rfl⟩ here))

/-- To apply a valid rule that is not enabled is to remove it. -/
theorem removes_disabled (here : controller.store.At live before site) {rule : Rule}
    (disabled : rule.enabled = false) :
    (controller.apply rule).Meets (terms faults)
      (fun _ s => rule.validate = .ok () ∧ controller.Removed live before rule.id s)
      (fun e s => (rule.validate = .error e ∧ controller.store.At live before s) ∨
        rule.validate = .ok () ∧ controller.RemovalFails faults live before rule.id e s) site := by
  rw [Controller.apply, disabled, Bool.not_false, if_pos rfl]
  refine meets_bind.2 ?_
  cases rule.validate with
  | error e => exact meets_error.2 (.inl ⟨rfl, here⟩)
  | ok _ =>
    refine meets_ok.2 (((removes here rule.id).mono (fun _ _ removed => removed)
      fun _ _ fails => .inr ⟨rfl, fails⟩).bind ?_)
    intro _ _ removed
    exact ⟨rfl, removed⟩

end Site

end ProxyKeeper
