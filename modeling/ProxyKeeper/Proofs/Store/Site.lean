import ProxyKeeper.Proofs.Files.Entries
import ProxyKeeper.Proofs.Store.Requests

/-!
# Sites

The world around one operation at a time: the files on disk, and the files nginx took up when it
last reloaded. Calls of the file system are carried out as they are on a tree. Where faults are
possible, any call may also fail in any way but by finding nothing, and then it may have done part
of its work, though none that touches a rule file. nginx replies as it likes and changes no file.

## Main Definitions

* `Tree.Spares` — trees with the same rule files, directories and links
* `Tree.Leaves`, `Tree.Answers` — what a failed call leaves, and how a call may be answered
* `Tree.IsFresh` — names that nothing bears
* `Site`, `Site.terms` — the states of such a world, and the terms it keeps to
* `Site.act?` — one such world, which carries out what it is asked

## Main Results

* `Tree.Answers.ok`, `Tree.Answers.notFound`, `Tree.Answers.fault` — answers by their kind
* `Site.ends_act?` — runs in the world that carries out what it is asked
-/

namespace ProxyKeeper

namespace Tree

variable {tree tree' : Tree} {call : FileCall} {faults : Bool}

/-! ## Answers to calls -/

/-- Whether a tree differs from another one in files that are no rule files at most. -/
structure Spares (tree tree' : Tree) : Prop where
  keeps : Keeps tree tree'
  back : Keeps tree' tree
  closed : tree.IsClosed → tree'.IsClosed
  rules : ∀ directory id, isRuleId id = true →
    tree'.entry? (directory ++ [Store.fileName id]) = tree.entry? (directory ++ [Store.fileName id])

theorem Spares.refl (tree : Tree) : Spares tree tree :=
  ⟨.refl tree, .refl tree, id, fun _ _ _ => rfl⟩

/-- What a call that fails may leave: one that only looks leaves the tree as it was, any other one
may have changed files that are no rule files, and may have made the directories it was to make. -/
inductive Leaves (tree : Tree) : FileCall → Tree → Prop where
  | nothing (call : FileCall) : Leaves tree call tree
  | spares {call : FileCall} {tree' : Tree} (changes : call.changes = true)
    (spared : Spares tree tree') : Leaves tree call tree'
  | directories {path : Path} {tree' : Tree}
    (spared : Spares (tree.createDirectories path).2 tree') :
    Leaves tree (.createDirectories path) tree'

/-- How a call may be answered. Without faults a call that fails has found nothing. -/
inductive Answers (faults : Bool) (tree : Tree) (call : FileCall) : call.Answer → Tree → Prop where
  | performs (known : faults = true ∨
      ∀ fault, (tree.perform call).1 = .error fault → fault = .notFound) :
    Answers faults tree call (tree.perform call).1 (tree.perform call).2
  | fails {fault : IoFault} {tree' : Tree} (faulty : faults = true) (other : fault ≠ .notFound)
    (left : tree.Leaves call tree') : Answers faults tree call (.error fault) tree'

theorem leaves_perform {fault : IoFault} (failed : (tree.perform call).1 = .error fault) :
    tree.Leaves call (tree.perform call).2 := by
  have changed {result : Except IoFault Tree} (failed : (tree.changed result).1 = .error fault) :
      (tree.changed result).2 = tree := by
    cases result with
    | ok _ => cases failed
    | error _ => rfl
  cases call with
  | createDirectories path => exact .directories (.refl _)
  | write path content =>
    have same : (tree.perform (.write path content)).2 = tree := changed failed
    rw [same]
    exact .nothing _
  | rename source target =>
    have same : (tree.perform (.rename source target)).2 = tree := changed failed
    rw [same]
    exact .nothing _
  | remove path =>
    have same : (tree.perform (.remove path)).2 = tree := changed failed
    rw [same]
    exact .nothing _
  | read path => exact .nothing _
  | list path => exact .nothing _
  | status path => exact .nothing _
  | canonical path => exact .nothing _

/-- A call that only looks leaves the tree as it was. -/
theorem Leaves.eq_of_not_changes (left : tree.Leaves call tree') (looks : call.changes = false) :
    tree' = tree := by
  cases left with
  | nothing => rfl
  | spares changes => rw [looks] at changes; cases changes
  | directories => cases looks

namespace Answers

/-- A call that succeeds was carried out. -/
theorem ok {result : call.Result} (h : tree.Answers faults call (.ok result) tree') :
    tree.perform call = (.ok result, tree') := by
  -- the answer is an index of `Answers`, so it has to be a variable
  generalize same : (Except.ok result : call.Answer) = answer at h
  cases h with
  | performs known => rfl
  | fails => cases same

/-- What is said not to be there is not there. -/
theorem notFound (h : tree.Answers faults call (.error .notFound) tree') :
    tree.perform call = (.error .notFound, tree') := by
  generalize same : (Except.error .notFound : call.Answer) = answer at h
  cases h with
  | performs known => rfl
  | fails _ other _ =>
    cases same
    exact absurd rfl other

/-- A call that fails leaves little. -/
theorem fault {fault : IoFault} (h : tree.Answers faults call (.error fault) tree') :
    tree.Leaves call tree' := by
  generalize same : (Except.error fault : call.Answer) = answer at h
  cases h with
  | performs known => exact leaves_perform same.symm
  | fails _ _ left => exact left

/-- Only where faults are possible does a call fail in another way than by finding nothing. -/
theorem faulty {fault : IoFault} (h : tree.Answers faults call (.error fault) tree')
    (other : fault ≠ .notFound) : faults = true := by
  generalize same : (Except.error fault : call.Answer) = answer at h
  cases h with
  | performs known => exact known.resolve_right fun only => other (only fault same.symm)
  | fails faulty _ _ => exact faulty

end Answers

/-- Whether a name for a file is one that nothing bears. -/
structure IsFresh (tree : Tree) (fresh : String) : Prop where
  noSlash : '/' ∉ fresh.toList
  unused : ∀ directory name, tree.entry? (directory ++ [Store.temporaryName name fresh]) = none

end Tree

/-! ## Sites -/

/-- What nginx works with: the files there were when it last reloaded, and how often it did. -/
structure Live where
  tree : Tree
  reloads : Nat := 0

/-- The files on disk and those nginx works with. -/
structure Site where
  tree : Tree
  live : Live

namespace Site

/-- The site after a call of nginx: a reload that succeeds takes up the files there are. -/
def replied (call : Nginx.Call) (reply : Nginx.Reply) (site : Site) : Site :=
  if call.action = .reload ∧ reply.isSuccess = true then
    { site with live := ⟨site.tree, site.live.reloads + 1⟩ }
  else site

/-- The terms that a site keeps to. Everything may be asked. -/
def terms (faults : Bool) : Terms Site where
  allows _ _ := True
  answers
    | .file call, site, answer, site' =>
      ∃ tree, site.tree.Answers faults call answer tree ∧ site' = { site with tree }
    | .nginx call, site, reply, site' => site' = site.replied call reply
    | .freshName, site, fresh, site' => site.tree.IsFresh fresh ∧ site' = site
    | .acquire, site, _, site' => site' = site
    | .release, site, _, site' => site' = site
    | .publish _, site, _, site' => site' = site
    | .count _ _, site, _, site' => site' = site

end Site

/-! ## A site that carries out what it is asked -/

namespace Tree

/-- The names of files are longer than what makes them fresh, so a long one does. -/
theorem isFresh_of_length {tree : Tree} {fresh : String} (noSlash : '/' ∉ fresh.toList)
    (long : ∀ held ∈ tree.entries, ∀ name ∈ held.1, name.length ≤ fresh.length) :
    tree.IsFresh fresh := by
  refine ⟨noSlash, ?_⟩
  intro directory name
  cases there : tree.entry? (directory ++ [Store.temporaryName name fresh]) with
  | none => rfl
  | some entry =>
    -- then the name would be among those that are no longer
    have short := long _ (mem_entries there) (Store.temporaryName name fresh) (by simp)
    have longer : (Store.temporaryName name fresh).length =
        1 + name.length + 1 + fresh.length + 4 := by
      simp only [Store.temporaryName, String.length_append]
      rfl
    omega

/-- A length that none of some names exceeds. -/
def lengthBound (names : List String) : Nat :=
  names.foldr (fun name bound => max name.length bound) 0

theorem length_le_lengthBound {names : List String} {name : String} (h : name ∈ names) :
    name.length ≤ lengthBound names := by
  induction names with
  | nil => cases h
  | cons first rest ih =>
    show name.length ≤ max first.length (lengthBound rest)
    rcases List.mem_cons.1 h with rfl | h
    · exact Nat.le_max_left ..
    · exact Nat.le_trans (ih h) (Nat.le_max_right ..)

/-- A name as long as any there is. -/
def spareName (tree : Tree) : String :=
  String.ofList (List.replicate (lengthBound (tree.entries.flatMap Prod.fst)) 'x')

theorem isFresh_spareName (tree : Tree) : tree.IsFresh tree.spareName := by
  refine isFresh_of_length ?_ ?_
  · rw [spareName, String.toList_ofList]
    intro listed
    exact absurd (List.eq_of_mem_replicate listed) (by decide)
  · intro held listed name inside
    rw [spareName, String.length_ofList, List.length_replicate]
    exact length_le_lengthBound (List.mem_flatMap.2 ⟨held, listed, inside⟩)

end Tree

namespace Site

/-- Carries out a request, unless a call of the file system fails in another way than by finding
nothing. nginx gives the replies laid down, and then succeeds. -/
def act? : (request : Request) → List Nginx.Reply × Site →
    Option (request.Answer × (List Nginx.Reply × Site))
  | .file call, (replies, site) =>
    match (site.tree.perform call).1 with
    | .ok result => some (.ok result, replies, { site with tree := (site.tree.perform call).2 })
    | .error fault =>
      if fault = .notFound then
        some (.error fault, replies, { site with tree := (site.tree.perform call).2 })
      else none
  | .nginx call, (replies, site) =>
    let reply := replies.headD (.finished { success := true })
    some (reply, replies.tail, site.replied call reply)
  | .freshName, (replies, site) => some (site.tree.spareName, replies, site)
  | .acquire, world => some ((), world)
  | .release, world => some ((), world)
  | .publish _, world => some ((), world)
  | .count _ _, world => some ((), world)

theorem answers_act? {faults : Bool} {request : Request} {world world' : List Nginx.Reply × Site}
    {given : request.Answer} (h : act? request world = some (given, world')) :
    (terms faults).answers request world.2 given world'.2 := by
  obtain ⟨replies, site⟩ := world
  cases request with
  | file call =>
    rw [act?] at h
    have known (only : ∀ fault, (site.tree.perform call).1 = .error fault → fault = .notFound) :
        site.tree.Answers faults call (site.tree.perform call).1 (site.tree.perform call).2 :=
      .performs (.inr only)
    split at h
    next result done =>
      cases h
      refine ⟨_, ?_, rfl⟩
      rw [done] at known
      exact known nofun
    next fault failed =>
      split at h
      next nothing =>
        cases h
        refine ⟨_, ?_, rfl⟩
        rw [failed] at known
        refine known ?_
        rintro _ ⟨⟩
        exact nothing
      next => cases h
  | nginx call => cases h; rfl
  | freshName => cases h; exact ⟨site.tree.isFresh_spareName, rfl⟩
  | acquire => cases h; rfl
  | release => cases h; rfl
  | publish phase => cases h; rfl
  | count event => cases h; rfl

/-- What a program does where every call is carried out is among what it may do. -/
theorem ends_act? {α : Type} {p : Program α} {replies left : List Nginx.Reply} {site site' : Site}
    {a : α} (h : p.follow? act? (replies, site) = some (a, left, site')) (faults : Bool) :
    p.Ends (terms faults) site a site' :=
  Program.ends_of_follow? Prod.snd (fun _ _ _ _ => answers_act?) h

end Site

end ProxyKeeper
