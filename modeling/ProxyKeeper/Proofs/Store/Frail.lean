import ProxyKeeper.Proofs.Store.Firm

/-!
# What the store does where calls fail

The operations of the store on a firm tree, where any call of the file system may fail and leave its
work half done. Each does to the places of its id what it is for, or fails, and then at most the
places of that id are other ones than before. That no operation disturbs another id rests neither on
the order of its steps nor on their success: every single call keeps the tree firm and changes one
place at most.

## Main Definitions

* `Tree.Suffers` — how a call is answered where calls may fail
* `Tree.frail` — the terms of such a world, with `Tree.act` for one that carries out every call
* `Rack.set` — the places with one file for an id, or with none
* `Store.Stocked` — a firm tree with something in its places
* `Store.StockedBut` — the same, but for the places of one id
* `Store.HoldsOnly` — an id has what was read for it, and nothing else

## Main Results

* `Store.Stocked.meets_removeIfPresent`, `Store.Stocked.meets_writeWhole` — single files
* `Store.Stocked.meets_restore` — what was read for an id is put back, or no other id is disturbed
* `Store.Firm.restores` — the same of a run
-/

namespace ProxyKeeper

variable {α : Type} {tree left : Tree}

/-! ## A world in which calls fail -/

namespace Tree

/-- How a call is answered where calls may fail: it is carried out, or it fails in another way than
by finding nothing and may be half done. -/
inductive Suffers (tree : Tree) (call : FileCall) : call.Answer → Tree → Prop where
  | performs : Suffers tree call (tree.perform call).1 (tree.perform call).2
  | fails {fault : IoFault} {left : Tree} (other : fault ≠ .notFound)
    (stopped : tree.Halfway call left) : Suffers tree call (.error fault) left

/-- How trees go on where calls may fail. Everything may be asked, and nginx changes no file. -/
def frail : Terms Tree where
  allows _ _ := True
  answers
    | .file call, tree, answer, left => tree.Suffers call answer left
    | .freshName, tree, fresh, left => tree.IsFresh fresh ∧ left = tree
    | .nginx _, tree, _, left => left = tree
    | .acquire, tree, _, left => left = tree
    | .release, tree, _, left => left = tree
    | .publish _, tree, _, left => left = tree
    | .count _ _, tree, _, left => left = tree

/-- Carries out a request. nginx always succeeds. -/
def act : (request : Request) → Tree → request.Answer × Tree
  | .file call, tree => tree.perform call
  | .freshName, tree => (tree.spareName, tree)
  | .nginx _, tree => (.finished { success := true }, tree)
  | .acquire, tree => ((), tree)
  | .release, tree => ((), tree)
  | .publish _, tree => ((), tree)
  | .count _ _, tree => ((), tree)

/-- What a program does where every call is carried out is among what it may do. -/
theorem ends_act (p : Program α) (tree : Tree) :
    p.Ends frail tree (p.run act tree).1 (p.run act tree).2 := by
  induction p generalizing tree with
  | done a => exact .done a tree
  | ask request next ih =>
    have answered : frail.answers request tree (act request tree).1 (act request tree).2 := by
      cases request with
      | file call => exact .performs
      | freshName => exact ⟨tree.isFresh_spareName, rfl⟩
      | _ => rfl
    exact .ask answered (ih _ _)

end Tree

namespace Operation

variable {fails : OperationError → Tree → Prop}

/-- A call is carried out, or fails and is half done. -/
theorem meets_attempt_frail {call : FileCall} {returns : call.Answer → Tree → Prop}
    (performed : ∀ answer left, tree.perform call = (answer, left) → returns answer left)
    (stopped : ∀ fault left, fault ≠ .notFound → tree.Halfway call left →
      returns (.error fault) left) :
    (attempt call).Meets Tree.frail returns fails tree := by
  refine meets_request.2 ⟨trivial, ?_⟩
  rintro answer left (_ | ⟨other, half⟩)
  · exact performed _ _ rfl
  · exact stopped _ _ other half

/-- A call whose faults are failures. -/
theorem meets_file_frail {path : Path} {call : FileCall} {returns : call.Result → Tree → Prop}
    (succeeds : ∀ result left, tree.perform call = (.ok result, left) → returns result left)
    (failed : ∀ fault left, tree.perform call = (.error fault, left) →
      fails (.io path.text fault) left)
    (stopped : ∀ fault left, tree.Halfway call left → fails (.io path.text fault) left) :
    (file path call).Meets Tree.frail returns fails tree := by
  refine meets_bind.2 (meets_attempt_frail ?_ fun fault left _ half => stopped fault left half)
  intro answer left performed
  cases answer with
  | ok result => exact succeeds result left performed
  | error fault => exact failed fault left performed

end Operation

/-! ## Places of an id -/

namespace Rack

variable {rack : Rack} {id : String}

/-- The places with one file for an id and no other one of that id, or with none. -/
def set (rack : Rack) (id : String) (file : Option RuleFile) : Rack :=
  Function.update rack id fun context => (Shelf.row file context).map .file

theorem set_self (rack : Rack) (id : String) (file : Option RuleFile) (context : Context) :
    rack.set id file id context = (Shelf.row file context).map .file := by
  rw [set, Function.update_self]

theorem set_of_ne {i : String} (other : i ≠ id) (rack : Rack) (file : Option RuleFile) :
    rack.set id file i = rack i := by
  rw [set, Function.update_of_ne other]

/-- To write the file of an id is to put it in its context and to remove the other. -/
theorem put_put_other (rack : Rack) (id : String) (file : RuleFile) :
    (rack.put id file.context (some (.file file.text.toUTF8))).put id file.context.other none =
      rack.set id (some file) := by
  funext i c
  by_cases same : i = id
  · subst same
    obtain ⟨context, text⟩ := file
    cases context <;> cases c <;> simp [put, set, Shelf.row, Context.other, Function.update]
  · simp [put, set, same]

theorem put_none_none (rack : Rack) (id : String) :
    (rack.put id .http none).put id .stream none = rack.set id none := by
  funext i c
  by_cases same : i = id
  · subst same
    cases c <;> simp [put, set, Shelf.row, Function.update]
  · simp [put, set, same]

end Rack

namespace Store

open Operation

variable {store : Store} {rack : Rack} {id : String} {context : Context}

/-- A firm tree with something in its places. -/
structure Stocked (store : Store) (rack : Rack) (tree : Tree) : Prop where
  firm : store.Firm tree
  held_eq : store.held tree = rack

/-- A firm tree with something in its places, but for those of one id. -/
structure StockedBut (store : Store) (rack : Rack) (id : String) (tree : Tree) : Prop where
  firm : store.Firm tree
  others : ∀ i, i ≠ id → store.held tree i = rack i

/-- Whether an id has exactly what was read for it: its file, and nothing in the other context, or
nothing at all. -/
def HoldsOnly (store : Store) (tree : Tree) (id : String) (file : Option RuleFile) : Prop :=
  ∀ context, store.held tree id context = (Shelf.row file context).map .file

/-- Whether a file is ready beside the places, under another name. -/
structure Poised (store : Store) (rack : Rack) (context : Context) (directory : Location)
    (above : Path) (temporary : String) (content : ByteArray) (tree : Tree) : Prop where
  stocked : store.Stocked rack tree
  leads : tree.directory? (store.directory context) = some directory
  givenAbove : above.text ≠ ""
  leadsAbove : tree.directory? above = some directory
  plain : Path.IsPlainName temporary
  other : ∀ i, isRuleId i = true → temporary ≠ fileName i
  there : tree.entry? (directory ++ [temporary]) = some (.file content)

namespace Poised

variable {directory : Location} {above : Path} {temporary : String} {content : ByteArray}
  (poised : store.Poised rack context directory above temporary content tree)

include poised

theorem swaps :
    store.Swaps tree (tree.erase (directory ++ [temporary])) directory temporary none := by
  refine .erase poised.leads fun old is passage => ?_
  rw [poised.there] at is
  cases is
  cases passage

/-- Without the file that is ready, the places hold the same. -/
theorem erased : store.Stocked rack (tree.erase (directory ++ [temporary])) :=
  ⟨poised.stocked.firm.of_swaps poised.swaps,
    (poised.swaps.held_eq_of_beside poised.stocked.firm poised.other).trans poised.stocked.held_eq⟩

/-- A file that is moved is in its place. -/
theorem moved (valid : isRuleId id = true)
    (is : tree.rename (above.child temporary) (store.place id context) = .ok left) :
    store.Stocked (rack.put id context (some (.file content))) left := by
  obtain ⟨notDirectory, rfl⟩ := Tree.rename_child_ok poised.givenAbove poised.plain
    poised.leadsAbove (poised.stocked.firm.directory_ne context) (isPlainName_fileName valid)
    poised.leads poised.there is
  have leads := (poised.swaps.directory?_eq poised.stocked.firm context).trans poised.leads
  have swaps : store.Swaps (tree.erase (directory ++ [temporary]))
      ((tree.erase (directory ++ [temporary])).put (directory ++ [fileName id]) (.file content))
      directory (fileName id) (some (.file content)) := by
    refine .put_file leads (fun old there _ => ⟨?_, id, valid, rfl⟩) content
    rintro rfl
    rw [poised.swaps.entries] at there
    split at there
    next => cases there
    next => exact notDirectory there
  exact ⟨poised.erased.firm.of_swaps swaps,
    poised.erased.held_eq ▸ swaps.held_eq poised.erased.firm valid rfl leads⟩

/-- A file that could not be moved is removed, if it can be, and the failure is told. -/
theorem meets_clean (error : OperationError) {returns : Unit → Tree → Prop} :
    (attempt (.remove (above.child temporary)) >>= fun _ => throw error : Operation Unit).Meets
      Tree.frail returns (fun _ left => store.Stocked rack left) tree := by
  refine meets_bind.2 (meets_attempt_frail (fun answer left performed => ?_)
    fun fault left _ half => ?_)
  · cases answer with
    | ok result =>
      obtain ⟨_, _, leads, _, _, rfl⟩ := Tree.remove_child_erases poised.givenAbove poised.plain
        (Tree.changed_eq_ok_iff.1 performed)
      obtain rfl := Option.some.inj (poised.leadsAbove.symm.trans leads)
      exact poised.erased
    | error fault =>
      obtain ⟨_, rfl⟩ := Tree.changed_eq_error_iff.1 performed
      exact poised.stocked
  · cases half
    exact poised.stocked

end Poised

namespace Stocked

variable (stocked : store.Stocked rack tree)

include stocked

theorem but (id : String) : store.StockedBut rack id tree :=
  ⟨stocked.firm, fun i _ => by rw [stocked.held_eq]⟩

/-- A file that was written under another name is ready. -/
theorem exists_poised {above : Path} {temporary : String} (given : above.text ≠ "")
    (plain : Path.IsPlainName temporary) (other : ∀ i, isRuleId i = true → temporary ≠ fileName i)
    (same : tree.directory? above = tree.directory? (store.directory context))
    (unused : ∀ directory, tree.entry? (directory ++ [temporary]) = none) {content : ByteArray}
    (written : tree.write (above.child temporary) content = .ok left) :
    ∃ directory, store.Poised rack context directory above temporary content left := by
  have noLink : tree.NoLinkIn above temporary := by
    intro directory _ target
    rw [unused]
    exact nofun
  obtain ⟨directory, leadsAbove, free, rfl⟩ := Tree.write_child_ok given plain noLink written
  have leads := same.symm.trans leadsAbove
  have swaps : store.Swaps tree (tree.put (directory ++ [temporary]) (.file content)) directory
      temporary (some (.file content)) :=
    .put_file leads (fun old is _ => by rw [unused] at is; cases is) content
  refine ⟨directory, ⟨stocked.firm.of_swaps swaps, ?_⟩,
    (swaps.directory?_eq stocked.firm context).trans leads, given, ?_, plain, other, ?_⟩
  · rw [swaps.held_eq_of_beside stocked.firm other, stocked.held_eq]
  · rw [Tree.directory?_put_file free, leadsAbove]
  · rw [Tree.entry?_put _ (by simp), if_pos rfl]

/-! ## Single files -/

section Valid

variable (valid : isRuleId id = true)

include valid

/-- A file is removed where there is one, or a link. -/
theorem meets_removeIfPresent (context : Context) :
    (removeIfPresent (store.place id context)).Meets Tree.frail
      (fun _ left => store.Stocked (rack.put id context none) left)
      (fun _ left => store.Stocked rack left) tree := by
  have given := stocked.firm.directory_ne context
  have plain := isPlainName_fileName valid
  refine meets_bind.2 (meets_attempt_frail (fun answer left performed => ?_) ?_)
  · cases answer with
    | ok result =>
      obtain ⟨directory, old, leads, there, notDirectory, rfl⟩ :=
        Tree.remove_child_erases given plain (Tree.changed_eq_ok_iff.1 performed)
      have swaps : store.Swaps tree (tree.erase (directory ++ [fileName id])) directory
          (fileName id) none := by
        refine .erase leads fun e is _ => ⟨?_, id, valid, rfl⟩
        obtain rfl := Option.some.inj (there.symm.trans is)
        exact notDirectory
      exact ⟨stocked.firm.of_swaps swaps,
        stocked.held_eq ▸ swaps.held_eq stocked.firm valid rfl leads⟩
    | error fault =>
      obtain ⟨failed, rfl⟩ := Tree.changed_eq_error_iff.1 performed
      dsimp only
      split
      next missing =>
        -- nothing is there, so nothing changes
        subst missing
        have nothing : rack id context = none := by
          rw [← stocked.held_eq]
          cases leads : tree.directory? (store.directory context) with
          | none => exact held_of_missing leads id
          | some directory =>
            rw [held_of_isRuleId store tree valid, leads, Option.bind_some]
            exact Tree.entry?_of_remove_notFound leads given plain failed
        show store.Stocked (rack.put id context none) tree
        rwa [Rack.put_eq_self nothing]
      next => exact stocked
  · intro fault left other half
    cases half
    dsimp only
    rw [if_neg other]
    exact stocked

/-- A file is written whole or not at all. -/
theorem meets_writeWhole (context : Context) (text : String) :
    (writeWhole (store.place id context) text).Meets Tree.frail
      (fun _ left => store.Stocked (rack.put id context (some (.file text.toUTF8))) left)
      (fun _ left => store.Stocked rack left) tree := by
  have plain := isPlainName_fileName valid
  obtain ⟨above, dots, parent, givenAbove, absolute, names, silent⟩ :=
    Path.parent?_child (stocked.firm.directory_ne context) plain
  have same := Tree.directory?_of_dots tree absolute names silent
  rw [writeWhole, place, parent, Path.fileName?_child (stocked.firm.directory_ne context) plain]
  simp only [Option.getD_some]
  refine meets_bind.2 (meets_request.2 ⟨trivial, ?_⟩)
  rintro (fresh : String) s ⟨isFresh, unchanged⟩
  obtain rfl : tree = s := unchanged.symm
  have plainTemporary := isPlainName_temporaryName plain.noSlash isFresh.noSlash
  have beside {content : ByteArray} {left : Tree}
      (written : tree.write (above.child (temporaryName (fileName id) fresh)) content = .ok left) :=
    stocked.exists_poised givenAbove plainTemporary (fun _ => temporaryName_ne_fileName _ _) same
      (isFresh.unused · (fileName id)) written
  refine meets_bind.2 (meets_file_frail (fun _ left performed => ?_) ?_ ?_)
  · obtain ⟨directory, poised⟩ := beside (Tree.changed_eq_ok_iff.1 performed)
    refine meets_bind.2 (meets_attempt_frail (fun answer left performed => ?_) ?_)
    · cases answer with
      | ok result => exact poised.moved valid (Tree.changed_eq_ok_iff.1 performed)
      | error fault =>
        obtain ⟨_, rfl⟩ := Tree.changed_eq_error_iff.1 performed
        exact poised.meets_clean _
    · intro fault left _ half
      cases half
      exact poised.meets_clean _
  · intro fault left performed
    obtain ⟨_, rfl⟩ := Tree.changed_eq_error_iff.1 performed
    exact stocked
  · intro fault left half
    cases half with
    | nothing => exact stocked
    | part written =>
      obtain ⟨_, poised⟩ := beside written
      exact poised.stocked

end Valid

/-! ## The files of an id -/

/-- Making the directory of a context changes no place. -/
theorem makes (half : tree.Halfway (.createDirectories (store.directory context)) left) :
    store.Stocked rack left := by
  obtain ⟨active, opens⟩ := stocked.firm.exists_opens half
  exact ⟨stocked.firm.of_opens opens, (opens.held_eq stocked.firm).trans stocked.held_eq⟩

end Stocked

/-- Of the places, those of one id at most are other ones than before. -/
theorem StockedBut.of_put {entry : Option Entry}
    (stocked : store.Stocked (rack.put id context entry) tree) : store.StockedBut rack id tree :=
  ⟨stocked.firm, fun i other => by rw [stocked.held_eq, Rack.put_of_ne other]⟩

namespace Stocked

variable (stocked : store.Stocked rack tree) (id : String)

include stocked

/-- The file of an id is written, and it is the only one, or the places of other ids are as before.
An id that is not valid is refused. -/
theorem meets_write (file : RuleFile) :
    (store.write id file).Meets Tree.frail
      (fun _ left => store.Stocked (rack.set id (some file)) left)
      (fun _ left => store.StockedBut rack id left) tree := by
  cases valid : isRuleId id with
  | false =>
    rw [write, path, valid]
    exact stocked.but id
  | true =>
    rw [write, path_of_isRuleId store valid, path_of_isRuleId store valid]
    have made : store.Stocked rack (tree.createDirectories (store.directory file.context)).2 :=
      stocked.makes
        (.directories (tree.grows_createDirectories _) (.refl _) (·.createDirectories _))
    refine meets_bind.2 (meets_ok.2 (meets_bind.2 (meets_file_frail ?_ ?_ ?_)))
    · intro _ left performed
      obtain rfl := congrArg Prod.snd performed
      refine meets_bind.2 ((made.meets_writeWhole valid file.context file.text).mono ?_ ?_)
      · intro _ left written
        refine meets_bind.2 (meets_ok.2 (meets_bind.2
          ((written.meets_removeIfPresent valid file.context.other).mono ?_ ?_)))
        · intro _ left removed
          rw [Rack.put_put_other] at removed
          exact removed
        · exact fun _ left failed => .of_put failed
      · exact fun _ left failed => failed.but id
    · intro fault left performed
      obtain rfl := congrArg Prod.snd performed
      exact made.but id
    · exact fun fault left half => (stocked.makes half).but id

/-- The files of an id are removed, or the places of other ids are as before. An id that is not
valid is refused. -/
theorem meets_remove :
    (store.remove id).Meets Tree.frail
      (fun _ left => store.Stocked (rack.set id none) left)
      (fun _ left => store.StockedBut rack id left) tree := by
  cases valid : isRuleId id with
  | false =>
    rw [remove, path, valid]
    exact stocked.but id
  | true =>
    rw [remove, path_of_isRuleId store valid, path_of_isRuleId store valid]
    refine meets_bind.2 (meets_ok.2 (meets_bind.2
      ((stocked.meets_removeIfPresent valid .http).mono ?_ ?_)))
    · intro _ left http
      refine meets_bind.2 (meets_ok.2 (meets_bind.2
        ((http.meets_removeIfPresent valid .stream).mono ?_ ?_)))
      · intro _ left stream
        rw [Rack.put_none_none] at stream
        exact stream
      · exact fun _ left failed => .of_put failed
    · exact fun _ left failed => failed.but id

/-- What was read for an id is put back, or the places of other ids are as before. An id that is not
valid is refused. -/
theorem meets_restore (file : Option RuleFile) :
    (store.restore id file).Meets Tree.frail
      (fun _ left => store.Stocked (rack.set id file) left)
      (fun _ left => store.StockedBut rack id left) tree := by
  cases file with
  | some file => exact stocked.meets_write id file
  | none => exact (stocked.meets_remove id).bind fun _ _ removed => removed

end Stocked

/-- To put back what was read for an id disturbs no other id, whether it succeeds or not, and leaves
the id with exactly that when it succeeds. -/
theorem Firm.restores (firm : store.Firm tree) {file : Option RuleFile}
    {outcome : Except OperationError Unit}
    (tried : (store.restore id file).run.Ends Tree.frail tree outcome left) :
    store.StockedBut (store.held tree) id left ∧
      (outcome = .ok () → store.HoldsOnly left id file) := by
  have stocked : store.Stocked (store.held tree) tree := ⟨firm, rfl⟩
  have promised := Program.Meets.of_ends (stocked.meets_restore id file) tried
  cases outcome with
  | error error => exact ⟨promised, nofun⟩
  | ok _ =>
    have restored : store.Stocked ((store.held tree).set id file) left := promised
    refine ⟨⟨restored.firm, fun i other => ?_⟩, fun _ context => ?_⟩
    · rw [restored.held_eq, Rack.set_of_ne other]
    · rw [restored.held_eq, Rack.set_self]

end Store

end ProxyKeeper
