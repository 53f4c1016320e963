import ProxyKeeper.Proofs.Store.Held
import ProxyKeeper.Proofs.Store.Written

/-!
# What calls do to the places of rule files

A settled tree stays settled under every call that the store makes, and its places change only where
a rule file is moved to its place or removed. A file that is beside its place is in nobody's way.
The directories that are made hold nothing, and whoever looks at the tree while they are made sees
no difference.

## Main Definitions

* `Store.Holds` — a settled tree with something in its places

## Main Results

* `Store.Holds.put_beside`, `Store.Holds.erase_beside` — files beside the places
* `Store.Holds.put_file`, `Store.Holds.erase_file` — files in the places
* `Store.Sound.makes`, `Store.Sound.sameBut_of_halfway` — directories
-/

namespace ProxyKeeper

namespace Store

variable {store : Store} {tree tree' : Tree} {id : String} {context : Context} {rack : Rack}
  {barred : Bool}

/-- A settled tree with something in its places. -/
structure Holds (store : Store) (rack : Rack) (barred : Bool) (tree : Tree) : Prop where
  settled : store.Settled tree
  held_eq : store.held tree = rack
  barred_eq : store.barred tree = barred

namespace Holds

/-! ## Files -/

section Change

variable {directory : Location} {name : String} {entry : Option Entry}

/-- Where one entry changes, and no way does, the places that lead to it change. -/
theorem of_change (holds : store.Holds rack barred tree) (tidy : store.Tidy tree')
    (stays : ∀ path, tree'.directory? path = tree.directory? path) (notStream : name ≠ "stream")
    (entries : ∀ location, tree'.entry? location =
      if location = directory ++ [name] then entry else tree.entry? location) :
    store.Settled tree' ∧ store.barred tree' = barred ∧
      ∀ i c, store.held tree' i c =
        if isRuleId i = true ∧ tree.directory? (store.directory c) = some directory ∧
          fileName i = name then entry else rack i c := by
  have apart (above : Location) :
      tree'.entry? (above ++ ["stream"]) = tree.entry? (above ++ ["stream"]) := by
    rw [entries, if_neg]
    rw [List.append_singleton_inj]
    exact fun same => notStream same.2.symm
  refine ⟨⟨tidy, ?_⟩, ?_, fun i c => ?_⟩
  · intro d target leads there
    rw [stays] at leads ⊢
    rw [apart] at there
    exact holds.settled.firm d target leads there
  · rw [← holds.barred_eq, Store.barred, Store.barred, stays]
    cases tree.directory? (store.directory .http) with
    | none => rfl
    | some d =>
      dsimp only
      rw [apart]
  · rw [← holds.held_eq]
    cases valid : isRuleId i with
    | false =>
      rw [held_of_not_isRuleId store tree' valid, held_of_not_isRuleId store tree valid,
        if_neg (by simp)]
    | true =>
      rw [held_of_isRuleId store tree' valid, held_of_isRuleId store tree valid, stays]
      cases tree.directory? (store.directory c) with
      | none => simp
      | some d =>
        simp only [Option.bind_some, entries, List.append_singleton_inj, true_and,
          Option.some.injEq]

variable (free : ∀ old, tree.entry? (directory ++ [name]) = some old → old.isPassage = false)

include free

/-- A file that is no rule file is in nobody's way. -/
theorem put_beside (holds : store.Holds rack barred tree) (notStream : name ≠ "stream")
    (other : ∀ i, isRuleId i = true → name ≠ fileName i)
    (there : tree.entry? directory = some .directory) (content : ByteArray) :
    store.Holds rack barred (tree.put (directory ++ [name]) (.file content)) := by
  obtain ⟨settled, barred, held⟩ := holds.of_change
    (holds.settled.put_file free there content) (Tree.directory?_put_file free content) notStream
    (Tree.entry?_put tree (by simp) (.file content))
  refine ⟨settled, funext fun i => funext fun c => ?_, barred⟩
  rw [held, if_neg fun same => other i same.1 same.2.2.symm]

theorem erase_beside (holds : store.Holds rack barred tree) (notStream : name ≠ "stream")
    (other : ∀ i, isRuleId i = true → name ≠ fileName i) :
    store.Holds rack barred (tree.erase (directory ++ [name])) := by
  obtain ⟨settled, barred, held⟩ := holds.of_change
    (holds.settled.erase_file free) (Tree.directory?_erase_file free) notStream
    (Tree.entry?_erase tree (by simp))
  refine ⟨settled, funext fun i => funext fun c => ?_, barred⟩
  rw [held, if_neg fun same => other i same.1 same.2.2.symm]

end Change

/-- The places that lead to the file of an id in a context are one. -/
theorem if_place (holds : store.Holds rack barred tree) (valid : isRuleId id = true)
    {directory : Location} {entry : Option Entry}
    (leads : tree.directory? (store.directory context) = some directory) (i : String)
    (c : Context) :
    (if isRuleId i = true ∧ tree.directory? (store.directory c) = some directory ∧
        fileName i = fileName id then entry else rack i c) =
      rack.put id context entry i c := by
  rw [Rack.put_apply]
  refine if_congr ⟨?_, ?_⟩ rfl rfl
  · rintro ⟨_, leads', same⟩
    exact ⟨fileName_injective same, holds.settled.context_eq leads leads'⟩
  · rintro ⟨rfl, rfl⟩
    exact ⟨valid, leads, rfl⟩

section Place

variable {directory : Location} (valid : isRuleId id = true)
  (leads : tree.directory? (store.directory context) = some directory)
  (free : ∀ old, tree.entry? (directory ++ [fileName id]) = some old → old.isPassage = false)

include valid leads free

/-- A file that comes to the place of a rule file is there. -/
theorem put_file (holds : store.Holds rack barred tree) (content : ByteArray) :
    store.Holds (rack.put id context (some (.file content))) barred
      (tree.put (directory ++ [fileName id]) (.file content)) := by
  obtain ⟨settled, barred, held⟩ := holds.of_change
    (holds.settled.put_file free (Tree.entry?_of_directory? leads) content)
    (Tree.directory?_put_file free content) (fileName_ne_stream id)
    (Tree.entry?_put tree (List.append_ne_nil_of_right_ne_nil _ (by simp)) (.file content))
  refine ⟨settled, funext fun i => funext fun c => ?_, barred⟩
  rw [held, holds.if_place valid leads]

theorem erase_file (holds : store.Holds rack barred tree) :
    store.Holds (rack.put id context none) barred (tree.erase (directory ++ [fileName id])) := by
  obtain ⟨settled, barred, held⟩ := holds.of_change
    (holds.settled.erase_file free) (Tree.directory?_erase_file free) (fileName_ne_stream id)
    (Tree.entry?_erase tree (List.append_ne_nil_of_right_ne_nil _ (by simp)))
  refine ⟨settled, funext fun i => funext fun c => ?_, barred⟩
  rw [held, holds.if_place valid leads]

end Place

end Holds

/-! ## Directories -/

namespace Settled

/-- The directory for plain connections is made where nothing is: nothing is in it. -/
theorem put_stream (settled : store.Settled tree) {directory : Location}
    (leads : tree.directory? (store.directory .http) = some directory)
    (vacant : tree.entry? (directory ++ ["stream"]) = none) :
    store.Holds (store.held tree) (store.barred tree)
      (tree.put (directory ++ ["stream"]) .directory) := by
  obtain ⟨tidy, _, stream⟩ := settled.toTidy.put_stream leads vacant
  have keeps : Tree.Keeps tree (tree.put (directory ++ ["stream"]) .directory) :=
    Tree.keeps_put (by simp) _ (by simp [vacant])
  have leads' := keeps.directory? leads
  have there : Tree.entry? (tree.put (directory ++ ["stream"]) .directory)
      (directory ++ ["stream"]) = some .directory := by
    rw [Tree.entry?_put tree (by simp), if_pos rfl]
  have nowhere : tree.directory? (store.directory .stream) = none :=
    Tree.directory?_child_of_free leads settled.given isPlainName_stream (by simp [vacant])
  refine ⟨⟨tidy, ?_⟩, ?_, ?_⟩
  · intro d target leadsTo link
    obtain rfl := Option.some.inj (leads'.symm.trans leadsTo)
    cases there.symm.trans link
  · funext i c
    cases valid : isRuleId i with
    | false => rw [held_of_not_isRuleId _ _ valid, held_of_not_isRuleId _ _ valid]
    | true =>
      rw [held_of_isRuleId _ _ valid, held_of_isRuleId _ _ valid]
      cases c with
      | http =>
        rw [leads', leads, Option.bind_some, Option.bind_some, Tree.entry?_put tree (by simp),
          if_neg]
        rw [List.append_singleton_inj]
        exact fun same => fileName_ne_stream i same.2
      | stream =>
        rw [stream, nowhere, Option.bind_some, Option.bind_none, Tree.entry?_put tree (by simp),
          if_neg (by simp)]
        -- what is in no directory is not there, so the new directory is empty
        exact settled.closed.entry?_eq_none (by simp [vacant]) _
  · rw [barred_eq_of_directory? leads', barred_eq_of_directory? leads, there, vacant]

/-- Making the directory of a context changes no place. -/
theorem makes (settled : store.Settled tree) (context : Context) :
    store.Holds (store.held tree) (store.barred tree)
        (tree.createDirectories (store.directory context)).2 ∧
      ((tree.createDirectories (store.directory context)).1 = .ok () →
        ∃ directory, (tree.createDirectories (store.directory context)).2.directory?
          (store.directory context) = some directory) := by
  obtain ⟨directory, leads⟩ := settled.active
  have same : store.Holds (store.held tree) (store.barred tree) tree := ⟨settled, rfl, rfl⟩
  cases context with
  | http =>
    have unchanged : (tree.createDirectories (store.directory .http)).2 = tree :=
      (Tree.createDirectories_directory settled.given leads).2
    rw [unchanged]
    exact ⟨same, fun _ => ⟨directory, leads⟩⟩
  | stream =>
    refine ⟨?_, (settled.createDirectories .stream).2.2.2⟩
    obtain ⟨_, ⟨unchanged, _⟩ | ⟨vacant, made⟩⟩ :=
      Tree.createDirectories_child settled.given isPlainName_stream leads
    · have unchanged : (tree.createDirectories (store.directory .stream)).2 = tree := unchanged
      rw [unchanged]
      exact same
    · have made : (tree.createDirectories (store.directory .stream)).2 =
        tree.put (directory ++ ["stream"]) .directory := made
      rw [made]
      exact settled.put_stream leads vacant

end Settled

/-- Where the same ids are listed before and after directories are made, they are in between. -/
theorem alikeBut_between {directory : Path} {made : Tree} (first : tree.Grows made)
    (rest : made.Grows tree') (closed : tree.IsClosed) (closed' : made.IsClosed)
    (begins : tree.Begins directory)
    (alike : AlikeBut [] (idsOf directory (tree.list directory))
      (idsOf directory (tree'.list directory))) :
    AlikeBut [] (idsOf directory (tree.list directory)) (idsOf directory (made.list directory)) := by
  have subset {names names' : List String} (more : names ⊆ names') {id : String}
      (listed : id ∈ names.filterMap ruleId?) : id ∈ names'.filterMap ruleId? := by
    obtain ⟨name, inside, is⟩ := List.mem_filterMap.1 listed
    exact List.mem_filterMap.2 ⟨name, more inside, is⟩
  rcases first.list closed begins with nothing | ⟨fault, failed, failed'⟩ |
    ⟨names, names', listed, listed', more⟩
  · -- nothing was found at first, and no id at last
    rw [nothing] at alike ⊢
    rcases rest.list closed' (first.begins begins) with nothing' | ⟨fault, failed, failed'⟩ |
      ⟨names, names', listed, listed', more⟩
    · rw [nothing']
      exact fun _ _ => Iff.rfl
    · rw [failed'] at alike
      rw [failed]
      exact alike
    · rw [listed'] at alike
      rw [listed]
      refine fun id other => ⟨fun inside => (alike id other).1 (subset more inside), nofun⟩
  · rw [failed, failed', idsOf]
    split
    · exact fun _ _ => Iff.rfl
    · rfl
  · rcases rest.list closed' (first.begins begins) with nothing' | ⟨fault, failed, _⟩ |
      ⟨names₂, names₃, listed₂, listed₃, more'⟩
    · cases listed'.symm.trans nothing'
    · cases listed'.symm.trans failed
    · obtain rfl := Except.ok.inj (listed'.symm.trans listed₂)
      rw [listed, listed₃] at alike
      rw [listed, listed']
      exact fun id other =>
        ⟨fun inside => (alike id other).1 (subset more' inside), subset more⟩

namespace Sound

/-- The active directory is given. -/
theorem given (sound : store.Sound tree) : store.config.activeDir.text ≠ "" := by
  rcases sound with settled | bare
  · exact settled.given
  · exact bare.given

theorem closed (sound : store.Sound tree) : tree.IsClosed := by
  rcases sound with settled | bare
  · exact settled.closed
  · exact bare.closed

/-- Making the directory of a context changes no place. -/
theorem makes (sound : store.Sound tree) (context : Context) :
    (store.Holds (store.held tree) (store.barred tree)
        (tree.createDirectories (store.directory context)).2) ∧
      ((tree.createDirectories (store.directory context)).1 = .ok () →
        ∃ directory, (tree.createDirectories (store.directory context)).2.directory?
          (store.directory context) = some directory) := by
  rcases sound with settled | bare
  · exact settled.makes context
  · obtain ⟨_, settled, held, barred, leads⟩ := bare.made context
    refine ⟨⟨settled, ?_, ?_⟩, fun _ => leads⟩
    · rw [held, bare.held_eq]
    · rw [barred, bare.barred_eq]

/-- The paths of the store have somewhere to begin. -/
theorem begins (sound : store.Sound tree) (context : Context) :
    tree.Begins (store.directory context) := by
  rcases sound with settled | bare
  · obtain ⟨directory, leads⟩ := settled.active
    obtain ⟨links, way⟩ := Tree.directory?_eq_some_iff.1 leads
    have start : tree.entry? (Tree.origin (store.directory .http) tree.workingDirectory) ≠ none := by
      rw [way.entry?_start]
      exact Option.some_ne_none _
    cases context with
    | http => exact start
    | stream =>
      have absolute : (store.directory .stream).isAbsolute = (store.directory .http).isAbsolute :=
        Path.isAbsolute_child settled.given isPlainName_stream
      rw [Tree.Begins, Tree.origin, absolute]
      exact start
  · exact bare.begins _

theorem begins_place (sound : store.Sound tree) (valid : isRuleId id = true) (context : Context) :
    tree.Begins (store.place id context) := by
  have absolute : (store.place id context).isAbsolute = (store.directory context).isAbsolute :=
    Path.isAbsolute_child (store.directory_ne_of_activeDir sound.given context)
      (isPlainName_fileName valid)
  rw [Tree.Begins, Tree.origin, absolute]
  exact sound.begins context

/-- While directories are made that hold nothing, no difference is seen. -/
theorem sameBut_of_halfway (sound : store.Sound tree) {made : Tree}
    (halfway : tree.Halfway (.createDirectories (store.directory context)) made) :
    store.SameBut [] tree made := by
  cases halfway with
  | nothing => exact .refl store [] tree
  | directories first rest closed =>
    obtain ⟨holds, _⟩ := sound.makes context
    have sound' : store.Sound (tree.createDirectories (store.directory context)).2 :=
      .inl holds.settled
    have closed' := closed sound.closed
    refine sameBut_of_lists (fun id valid _ c => ?_) fun c => ?_
    · refine Tree.read_between first rest sound.closed closed' (sound.begins_place valid c) ?_
      rw [sound.read_eq valid, sound'.read_eq valid, shut_congr holds.barred_eq, holds.held_eq]
    · exact alikeBut_between first rest sound.closed closed' (sound.begins c)
        (sound.alikeBut sound' holds.barred_eq (fun _ _ => by rw [holds.held_eq]) c)

end Sound

end Store

end ProxyKeeper
