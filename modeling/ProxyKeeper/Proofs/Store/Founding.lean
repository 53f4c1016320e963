import ProxyKeeper.Proofs.Files.Contents
import ProxyKeeper.Proofs.Store.FileNames
import ProxyKeeper.Proofs.Store.Requests
import ProxyKeeper.World

/-!
# What founding a store changes

The first steps of a store make its directories and write the main configuration. They touch no file
but the one beside the main configuration that it is written to, and the main configuration itself.
The former is no rule file by its name. So the rule files stay as they are, unless the path of the
main configuration is that of one of them.

## Main Definitions

* `Store.beside` — where a file is written before it is moved to its path
* `Store.Founds` — what founding a store asks for

## Main Results

* `Text.noSlash_freshName` — names that are given out are pieces of paths
* `Store.content?_of_founds` — rule files stay as they are
-/

namespace ProxyKeeper

/-! ## Names that are given out -/

namespace Text

theorem hexDigit_ne_slash {n : Nat} (small : n < 16) : hexDigit n ≠ '/' := by
  have all : ∀ m : Fin 16, hexDigit m ≠ '/' := by decide
  exact all ⟨n, small⟩

theorem noSlash_hexDigits (width n : Nat) : '/' ∉ hexDigits width n := by
  induction width generalizing n with
  | zero => exact List.not_mem_nil
  | succ width ih =>
    rw [hexDigits, List.mem_append, List.mem_singleton, not_or]
    exact ⟨ih _, Ne.symm (hexDigit_ne_slash (Nat.mod_lt _ (by decide)))⟩

/-- Names that are given out hold no slash. -/
theorem noSlash_freshName (count : Nat) : '/' ∉ (World.freshName count).toList := by
  rw [World.freshName, Uuid.write, String.toList_ofList, Uuid.groups]
  simp [List.intercalate_cons_cons, noSlash_hexDigits]

end Text

namespace Store

variable {store : Store} {tree : Tree} {id : String}

/-- Where a file is written before it is moved to its path. -/
def beside (path : Path) (fresh : String) : Path :=
  (path.parent?.getD ⟨"."⟩).child (temporaryName (path.fileName?.getD "") fresh)

/-- Whether a path is one beside the main configuration, under a name that was given out. -/
def IsBesideMain (store : Store) (path : Path) : Prop :=
  ∃ count, path = beside store.config.mainConfig (World.freshName count)

/-- What founding a store asks for: directories, a file beside the main configuration, and to move
that file to its place. -/
def Founds (store : Store) : Request → Prop
  | .file (.createDirectories _) => True
  | .file (.write path _) => store.IsBesideMain path
  | .file (.rename source target) => store.IsBesideMain source ∧ target = store.config.mainConfig
  | .file (.remove path) => store.IsBesideMain path
  | .file _ => True
  | .freshName => True
  | _ => False

theorem founds_of_isLook (store : Store) {r : Request} (h : r.isLook = true) : store.Founds r := by
  cases r with
  | file call =>
    cases call with
    | createDirectories path => trivial
    | write path content => cases h
    | rename source target => cases h
    | remove path => cases h
    | _ => trivial
  | freshName => trivial
  | _ => cases h

/-- No symbolic link bears a name under which the main configuration may be written. -/
def LeavesRoom (store : Store) (tree : Tree) : Prop :=
  ∀ count, tree.NoLinkNamed
    (temporaryName (store.config.mainConfig.fileName?.getD "") (World.freshName count))

theorem noSlash_fileName?_getD (path : Path) : '/' ∉ (path.fileName?.getD "").toList := by
  cases named : path.fileName? with
  | none => simp
  | some name => exact Path.noSlash_of_fileName? named

/-- A file beside the main configuration has a name of its own. -/
theorem IsBesideMain.exists_name {path : Path} (h : store.IsBesideMain path) :
    ∃ name, Path.IsPlainName name ∧ (∀ id, isRuleId id = true → name ≠ fileName id) ∧
      (∀ tree, store.LeavesRoom tree → tree.NoLinkNamed name) ∧
      (∃ front, path.names = front ++ [name]) ∧ ∃ front, Tree.steps path = front ++ [name] := by
  obtain ⟨count, rfl⟩ := h
  have plain := isPlainName_temporaryName (noSlash_fileName?_getD store.config.mainConfig)
    (Text.noSlash_freshName count)
  exact ⟨_, plain, fun id valid => temporaryName_ne_fileName _ _ valid,
    fun tree room => room count, Path.exists_names_child _ plain, Path.exists_steps_child _ plain⟩

/-- Founding a store leaves the rule files as they are, but for one whose place is that of the main
configuration. -/
theorem content?_of_founds {call : FileCall} (founds : store.Founds (.file call))
    (valid : isRuleId id = true) (room : store.LeavesRoom tree) {directory : Location}
    (apart : ∀ place, tree.place .busy store.config.mainConfig = .ok place →
      place.location ≠ directory ++ [fileName id]) :
    (tree.perform call).2.content? (directory ++ [fileName id]) =
      tree.content? (directory ++ [fileName id]) := by
  have other {name : String} (ne : name ≠ fileName id) (above : Location) :
      directory ++ [fileName id] ≠ above ++ [name] := by
    intro same
    exact ne (List.append_singleton_inj.1 same).2.symm
  have changed {result : Except IoFault Tree}
      (h : ∀ tree', result = .ok tree' → tree'.content? (directory ++ [fileName id]) =
        tree.content? (directory ++ [fileName id])) :
      (tree.changed result).2.content? (directory ++ [fileName id]) =
        tree.content? (directory ++ [fileName id]) := by
    cases result with
    | error fault => rfl
    | ok tree' => exact h tree' rfl
  cases call with
  | createDirectories path => exact tree.content?_createDirectories path _
  | write path content =>
    obtain ⟨name, plain, ne, noLink, _, _, steps⟩ := IsBesideMain.exists_name founds
    refine changed fun tree' written => ?_
    obtain ⟨above, rfl⟩ := Tree.write_named steps plain (noLink tree room) written
    exact Tree.content?_put_of_ne (by simp) (other (ne id valid) above) _
  | rename source target =>
    obtain ⟨beside, rfl⟩ := founds
    obtain ⟨name, _, ne, _, ⟨_, names⟩, _⟩ := beside.exists_name
    refine changed fun tree' moved => ?_
    obtain ⟨above, place, entry, found, rfl⟩ := Tree.rename_named names moved
    rw [Tree.content?_put_of_ne (by simp [Tree.Place.location]) (Ne.symm (apart place found))]
    exact Tree.content?_erase_of_ne (by simp) (other (ne id valid) above)
  | remove path =>
    obtain ⟨name, _, ne, _, ⟨_, names⟩, _⟩ := IsBesideMain.exists_name founds
    refine changed fun tree' removed => ?_
    obtain ⟨above, rfl⟩ := Tree.remove_named names removed
    exact Tree.content?_erase_of_ne (by simp) (other (ne id valid) above)
  | _ => rfl

end Store

end ProxyKeeper
