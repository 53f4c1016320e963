import ProxyKeeper.Proofs.Program.Terms
import ProxyKeeper.Store.Basic

/-!
# What the store asks for

The operations of the store ask for calls of the file system and for fresh names, and for nothing
else: they neither touch the lock nor call nginx. Those that only look ask for no call that changes
files.

## Main Definitions

* `FileCall.changes` — the calls that change files, and `FileCall.lists` the one that lists them
* `Request.isStorage`, `Request.isLook` — what the operations ask for

## Main Results

* `Tree.perform_of_not_changes` — the other calls leave the tree as it is
* `Store.asks_write_of`, `Store.asks_remove_of`, `Store.asks_read_of` — requests of a kind
* `Store.asks_write`, `Store.asks_remove`, `Store.asks_restore`, `Store.asks_bootstrap`
* `Store.asks_read`, `Store.asks_list` — these only look
-/

namespace ProxyKeeper

/-- Whether a call may change files or directories. -/
def FileCall.changes : FileCall → Bool
  | .createDirectories _ => true
  | .write _ _ => true
  | .rename _ _ => true
  | .remove _ => true
  | .read _ => false
  | .list _ => false
  | .status _ => false
  | .canonical _ => false

/-- Whether a call enumerates a directory. -/
def FileCall.lists : FileCall → Bool
  | .list _ => true
  | _ => false

/-- A call that only looks leaves the tree as it is. -/
theorem Tree.perform_of_not_changes (tree : Tree) {call : FileCall}
    (looks : call.changes = false) : (tree.perform call).2 = tree := by
  cases call <;> first | rfl | simp [FileCall.changes] at looks

namespace Request

/-- Calls of the file system, and fresh names for files. -/
def isStorage : Request → Bool
  | .file _ => true
  | .freshName => true
  | _ => false

/-- Calls of the file system that change nothing. -/
def isLook : Request → Bool
  | .file call => !call.changes
  | _ => false

theorem isStorage_of_isLook {r : Request} (h : r.isLook = true) : r.isStorage = true := by
  cases r <;> simp [isLook, isStorage] at h ⊢

end Request

namespace Operation

variable {α β : Type} {kind : Request → Prop}

theorem asks_bind {operation : Operation α} {f : α → Operation β}
    (first : operation.run.Asks kind) (second : ∀ a, (f a).run.Asks kind) :
    (operation >>= f).run.Asks kind :=
  first.bind_except second

theorem asks_ofExcept (result : Except OperationError α) :
    (ofExcept result).run.Asks kind :=
  trivial

theorem asks_attempt {call : FileCall} (asked : kind (.file call)) :
    (attempt call).run.Asks kind :=
  ⟨asked, fun _ => trivial⟩

theorem asks_file (path : Path) {call : FileCall} (asked : kind (.file call)) :
    (file path call).run.Asks kind := by
  rw [file]
  refine asks_bind (asks_attempt asked) fun answer => ?_
  cases answer with
  | ok result => trivial
  | error fault => trivial

end Operation

namespace Store

open Operation

/-- Requests that only look. -/
def Looks (r : Request) : Prop :=
  r.isLook = true

/-- Requests for files and names. -/
def Stores (r : Request) : Prop :=
  r.isStorage = true

/-! ### Requests of a kind

No operation lists a directory but `list`, so what the others ask for is of every kind that has the
other calls. -/

section Kinds

variable {kind : Request → Prop}

theorem asks_readIfPresent_of (reads : ∀ path, kind (.file (.read path))) (path : Path) :
    (readIfPresent path).run.Asks kind := by
  rw [readIfPresent]
  refine asks_bind (asks_attempt (reads path)) fun answer => ?_
  cases answer with
  | ok content => dsimp only; split <;> trivial
  | error fault => dsimp only; split <;> trivial

theorem asks_read_of (store : Store) (reads : ∀ path, kind (.file (.read path))) (id : String) :
    (store.read id).run.Asks kind := by
  have asks_readFrom (contexts : List Context) : (store.readFrom id contexts).run.Asks kind := by
    induction contexts with
    | nil => trivial
    | cons context contexts ih =>
      rw [readFrom]
      refine asks_bind (asks_ofExcept _) fun path => ?_
      refine asks_bind (asks_readIfPresent_of reads _) fun text => ?_
      cases text with
      | some text => trivial
      | none => exact ih
  exact asks_readFrom _

variable (calls : ∀ call : FileCall, call.lists = false → kind (.file call))

include calls

theorem asks_removeIfPresent_of (path : Path) : (removeIfPresent path).run.Asks kind := by
  rw [removeIfPresent]
  refine asks_bind (asks_attempt (calls _ rfl)) fun answer => ?_
  cases answer with
  | ok result => trivial
  | error fault => dsimp only; split <;> trivial

theorem asks_remove_of (store : Store) (id : String) : (store.remove id).run.Asks kind := by
  rw [remove]
  refine asks_bind (asks_ofExcept _) fun http => ?_
  refine asks_bind (asks_removeIfPresent_of calls _) fun inHttp => ?_
  refine asks_bind (asks_ofExcept _) fun stream => ?_
  exact asks_bind (asks_removeIfPresent_of calls _) fun inStream => trivial

variable (fresh : kind .freshName)

include fresh

theorem asks_writeWhole_of (path : Path) (text : String) :
    (writeWhole path text).run.Asks kind := by
  rw [writeWhole]
  refine asks_bind ⟨fresh, fun _ => trivial⟩ fun name => ?_
  refine asks_bind (asks_file _ (calls _ rfl)) fun _ => ?_
  refine asks_bind (asks_attempt (calls _ rfl)) fun answer => ?_
  cases answer with
  | ok result => trivial
  | error fault => exact asks_bind (asks_attempt (calls _ rfl)) fun _ => trivial

theorem asks_write_of (store : Store) (id : String) (file : RuleFile) :
    (store.write id file).run.Asks kind := by
  rw [write]
  refine asks_bind (asks_ofExcept _) fun path => ?_
  refine asks_bind (asks_file _ (calls _ rfl)) fun _ => ?_
  refine asks_bind (asks_writeWhole_of calls fresh _ _) fun _ => ?_
  refine asks_bind (asks_ofExcept _) fun other => ?_
  exact asks_bind (asks_removeIfPresent_of calls _) fun _ => trivial

theorem asks_restore_of (store : Store) (id : String) (file : Option RuleFile) :
    (store.restore id file).run.Asks kind := by
  cases file with
  | some file => exact store.asks_write_of calls fresh id file
  | none => exact asks_bind (store.asks_remove_of calls id) fun _ => trivial

end Kinds

/-! ### Requests of the store -/

theorem stores_file (call : FileCall) : Stores (.file call) :=
  rfl

theorem stores_freshName : Stores .freshName :=
  rfl

theorem asks_writeWhole (path : Path) (text : String) : (writeWhole path text).run.Asks Stores :=
  asks_writeWhole_of (fun call _ => stores_file call) stores_freshName path text

theorem asks_readIfPresent (path : Path) : (readIfPresent path).run.Asks Looks :=
  asks_readIfPresent_of (fun _ => rfl) path

variable (store : Store)

theorem asks_write (id : String) (file : RuleFile) : (store.write id file).run.Asks Stores :=
  store.asks_write_of (fun call _ => stores_file call) stores_freshName id file

theorem asks_read (id : String) : (store.read id).run.Asks Looks :=
  store.asks_read_of (fun _ => rfl) id

theorem asks_remove (id : String) : (store.remove id).run.Asks Stores :=
  store.asks_remove_of (fun call _ => stores_file call) id

theorem asks_restore (id : String) (file : Option RuleFile) :
    (store.restore id file).run.Asks Stores :=
  store.asks_restore_of (fun call _ => stores_file call) stores_freshName id file

theorem asks_listDirectory (directory : Path) : (listDirectory directory).run.Asks Looks := by
  rw [listDirectory]
  refine asks_bind (asks_attempt rfl) fun answer => ?_
  cases answer with
  | ok names => trivial
  | error fault => dsimp only; split <;> trivial

theorem asks_list : store.list.run.Asks Looks :=
  asks_bind (asks_listDirectory _) fun _ => asks_bind (asks_listDirectory _) fun _ => trivial

theorem asks_isPresent (path : Path) : (isPresent path).run.Asks Looks := by
  rw [isPresent]
  refine asks_bind (asks_attempt rfl) fun answer => ?_
  cases answer with
  | ok status => trivial
  | error fault => dsimp only; split <;> trivial

theorem asks_bootstrap : store.bootstrap.run.Asks Stores := by
  have look {α : Type} {operation : Operation α} (h : operation.run.Asks Looks) :
      operation.run.Asks Stores := h.mono fun _ => Request.isStorage_of_isLook
  rw [bootstrap]
  refine asks_bind (asks_file _ rfl) fun _ => ?_
  refine asks_bind (asks_file _ rfl) fun _ => ?_
  refine asks_bind (look (asks_isPresent _)) fun present => ?_
  cases present with
  | true => trivial
  | false =>
    refine asks_bind (look (asks_bind (asks_readIfPresent _) fun _ => trivial)) fun template => ?_
    cases store.config.mainConfig.parent? with
    | some parent =>
      refine asks_bind (asks_file _ rfl) fun _ => ?_
      exact asks_bind (asks_writeWhole _ _) fun _ => trivial
    | none => exact asks_bind (asks_writeWhole _ _) fun _ => trivial

end Store

end ProxyKeeper
