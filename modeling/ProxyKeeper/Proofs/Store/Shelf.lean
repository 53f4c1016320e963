import Mathlib.Logic.Function.Basic
import ProxyKeeper.Proofs.Files.Calls
import ProxyKeeper.Proofs.Store.FileNames
import ProxyKeeper.Proofs.Store.Site

/-!
# Shelves

The rule files of a tree as a map from ids and contexts to contents. A tree is tidy when its active
directory is there, the directories of the contexts are not one and the same, and no link stands
for a rule file. In a tidy tree the calls that the store makes do to the map what they are meant
to, and nothing when they fail.

## Main Definitions

* `Shelf` — the maps, with `Shelf.put` for one file and `Shelf.set` for all files of an id
* `Shelf.IsSingle` — no id has a file in both contexts
* `Shelf.Shows` — what is found of the files of an id
* `Shelf.inStepWith` — what an id has after it was brought in step with a file
* `Shelf.asFound` — a shelf as it was, as far as that was found of the ids that were touched
* `Shelf.outOfStep` — the ids for which another file is found than what is called for
* `Shelf.MaySync` — the ids that are touched on the way there
* `Store.shelf` — the rule files of a tree
* `Store.Tidy` — the trees that the store can work with

## Main Results

* `Store.Tidy.reads`, `Store.Tidy.removes`, `Store.Tidy.lists` — calls on rule files
* `Store.Tidy.makes`, `Store.Tidy.writes`, `Store.Tidy.moves` — the steps by which one is written
-/

namespace ProxyKeeper

/-- The rule files there are: the content of the file that an id has in a context. -/
abbrev Shelf := String → Context → Option ByteArray

namespace Shelf

variable {shelf : Shelf} {id : String}

/-- The shelf with another file, or none, for an id in a context. -/
def put (shelf : Shelf) (id : String) (context : Context) (content : Option ByteArray) : Shelf :=
  Function.update shelf id (Function.update (shelf id) context content)

/-- What an id has by a rule file, or by none. -/
def row : Option RuleFile → Context → Option ByteArray
  | none, _ => none
  | some file, context => if context = file.context then some file.text.toUTF8 else none

/-- What a row holds is the text of its file, in the context of the file. -/
theorem exists_of_row {file : Option RuleFile} {context : Context} {content : ByteArray}
    (h : row file context = some content) :
    ∃ own, file = some own ∧ own.context = context ∧ content = own.text.toUTF8 := by
  cases file with
  | none => cases h
  | some own =>
    rw [row] at h
    split at h
    next same => exact ⟨own, rfl, same.symm, (Option.some.inj h).symm⟩
    next => cases h

/-- Whether a rule file, or none, is what is found first for an id: a file for plain connections is
looked for only when there is no other one. -/
structure Shows (held : Context → Option ByteArray) (file : Option RuleFile) : Prop where
  http : held .http = row file .http
  stream : held .http = none → held .stream = row file .stream

/-- A row with one file at most is shown whole. -/
theorem Shows.eq_row {file : Option RuleFile} {held : Context → Option ByteArray}
    (shows : Shows held file) (single : held .http = none ∨ held .stream = none) :
    held = row file := by
  funext context
  cases context with
  | http => exact shows.http
  | stream =>
    rcases single with vacant | vacant
    · exact shows.stream vacant
    · cases file with
      | none => exact vacant
      | some file =>
        obtain ⟨_ | _, text⟩ := file
        · exact vacant
        · -- a file for plain connections is shown when there is no other one
          exact shows.stream shows.http

/-- A row with something in it is the row of one file only. -/
theorem eq_of_row {file other : Option RuleFile} {context : Context} {content : ByteArray}
    (own : row file context = some content) (same : row other context = some content) :
    file = other := by
  obtain ⟨⟨_, _⟩, rfl, rfl, text⟩ := exists_of_row own
  obtain ⟨⟨_, _⟩, rfl, rfl, text'⟩ := exists_of_row same
  cases String.toByteArray_inj.1 (text.symm.trans text')
  rfl

/-- What is found first for an id is one thing. -/
theorem Shows.unique {held : Context → Option ByteArray} {file other : Option RuleFile}
    (shows : Shows held file) (shown : Shows held other) : file = other := by
  cases http : held .http with
  | some content => exact eq_of_row (shows.http ▸ http) (shown.http ▸ http)
  | none =>
    cases stream : held .stream with
    | some content => exact eq_of_row (shows.stream http ▸ stream) (shown.stream http ▸ stream)
    | none =>
      have vacant {file : Option RuleFile} (shows : Shows held file) : file = none := by
        cases file with
        | none => rfl
        | some file =>
          have found : held file.context = some file.text.toUTF8 := by
            rw [shows.eq_row (.inl http), row, if_pos rfl]
          cases context : file.context <;> rw [context] at found
          · cases http.symm.trans found
          · cases stream.symm.trans found
      rw [vacant shows, vacant shown]

instance {held : Context → Option ByteArray} {file : Option RuleFile} :
    Decidable (Shows held file) :=
  decidable_of_iff (held .http = row file .http ∧
      (held .http = none → held .stream = row file .stream))
    ⟨fun h => ⟨h.1, h.2⟩, fun h => ⟨h.http, h.stream⟩⟩

/-- What an id has after it was brought in step with a file: it is left alone when that file is what
is found of it, and else it has that file and no other. -/
def inStepWith (held : Context → Option ByteArray) (file : RuleFile) :
    Context → Option ByteArray :=
  if Shows held (some file) then held else row (some file)

/-- Where there was one file at most, the file is all there is. -/
theorem inStepWith_eq_row {held : Context → Option ByteArray} {file : RuleFile}
    (single : held .http = none ∨ held .stream = none) :
    inStepWith held file = row (some file) := by
  rw [inStepWith]
  split
  next shows => exact shows.eq_row single
  next => rfl

/-- The shelf with one file for an id and no other one of that id, or with none. -/
def set (shelf : Shelf) (id : String) (file : Option RuleFile) : Shelf :=
  Function.update shelf id (row file)

/-- Whether no id has a file in both contexts. -/
def IsSingle (shelf : Shelf) : Prop :=
  ∀ id, shelf id .http = none ∨ shelf id .stream = none

/-- What is found first for an id, and nothing behind it: a file for plain connections only where
there is no other one. -/
def firstOf (held : Context → Option ByteArray) : Context → Option ByteArray
  | .http => held .http
  | .stream => if held .http = none then held .stream else none

/-- The file that is found first is what is found first. -/
theorem Shows.row_eq {held : Context → Option ByteArray} {file : Option RuleFile}
    (shows : Shows held file) : row file = firstOf held := by
  funext context
  cases context with
  | http => exact shows.http.symm
  | stream =>
    rw [firstOf]
    split
    next vacant => exact (shows.stream vacant).symm
    next found =>
      rw [shows.http] at found
      obtain ⟨content, own⟩ := Option.ne_none_iff_exists'.1 found
      obtain ⟨file, rfl, context, _⟩ := exists_of_row own
      rw [row, context]
      rfl

/-- Where there was one file at most, what is found first is all there is. -/
theorem firstOf_of_single {held : Context → Option ByteArray}
    (single : held .http = none ∨ held .stream = none) : firstOf held = held := by
  funext context
  cases context with
  | http => rfl
  | stream =>
    rw [firstOf]
    split
    next => rfl
    next found => exact (single.resolve_left found).symm

/-- What a shelf is after some ids were put back as they were found: all others are as they were,
and of these it has the files that were found first. -/
def asFound (shelf : Shelf) (touched : List String) : Shelf := fun id =>
  if id ∈ touched then firstOf (shelf id) else shelf id

@[simp] theorem asFound_nil (shelf : Shelf) : shelf.asFound [] = shelf := by
  funext id
  exact if_neg List.not_mem_nil

/-- Where no id had two files, all is as it was. -/
theorem IsSingle.asFound_eq (single : shelf.IsSingle) (touched : List String) :
    shelf.asFound touched = shelf := by
  funext id
  rw [asFound]
  split
  next => exact firstOf_of_single (single id)
  next => rfl

/-- The first file of each id is put back. -/
theorem asFound_http (shelf : Shelf) (touched : List String) (id : String) :
    shelf.asFound touched id .http = shelf id .http := by
  rw [asFound]
  split <;> rfl

/-- What files call for, by id. -/
def calledFor (files : List (String × RuleFile)) : List (String × Option RuleFile) :=
  files.map fun named => (named.1, some named.2)

theorem map_fst_calledFor (files : List (String × RuleFile)) :
    (calledFor files).map Prod.fst = files.map Prod.fst := by
  rw [calledFor, List.map_map]
  rfl

/-- The ids for which another file is found first than what is called for, in their order. -/
def outOfStep (shelf : Shelf) (called : List (String × Option RuleFile)) : List String :=
  (called.filter fun named => ¬ Shows (shelf named.1) named.2).map Prod.fst

theorem outOfStep_cons_of_shows {called : List (String × Option RuleFile)}
    {file : Option RuleFile} (shows : Shows (shelf id) file) :
    shelf.outOfStep ((id, file) :: called) = shelf.outOfStep called := by
  rw [outOfStep, List.filter_cons_of_neg (by simpa using shows), outOfStep]

theorem outOfStep_cons_of_not_shows {called : List (String × Option RuleFile)}
    {file : Option RuleFile} (differs : ¬ Shows (shelf id) file) :
    shelf.outOfStep ((id, file) :: called) = id :: shelf.outOfStep called := by
  rw [outOfStep, List.filter_cons_of_pos (by simpa using differs), List.map_cons, outOfStep]

/-- The ids that are touched, one after another, on the way to what is called for: those for which
another file is found, and then ids for which nothing is called for. It may end at any of them. -/
def MaySync (shelf : Shelf) (called : List (String × Option RuleFile)) (touched : List String) :
    Prop :=
  ∃ surplus : List String, (∀ id ∈ surplus, id ∉ called.map Prod.fst) ∧
    touched <+: shelf.outOfStep called ++ surplus

theorem MaySync.nil (shelf : Shelf) (called : List (String × Option RuleFile)) :
    shelf.MaySync called [] :=
  ⟨[], by simp, List.nil_prefix⟩

theorem put_apply (shelf : Shelf) (id : String) (context : Context) (content : Option ByteArray)
    (i : String) (c : Context) :
    shelf.put id context content i c = if i = id ∧ c = context then content else shelf i c := by
  by_cases hi : i = id
  · subst hi
    by_cases hc : c = context
    · subst hc
      simp [put]
    · simp [put, hc]
  · simp [put, hi]

/-- Putting what is there changes nothing. -/
theorem put_eq_self {context : Context} {content : Option ByteArray}
    (h : shelf id context = content) : shelf.put id context content = shelf := by
  rw [put, ← h, Function.update_eq_self, Function.update_eq_self]

theorem put_of_ne {i : String} (h : i ≠ id) (shelf : Shelf) (context : Context)
    (content : Option ByteArray) : shelf.put id context content i = shelf i := by
  rw [put, Function.update_of_ne h]

/-- Writing the one file of an id is putting it in its context and removing the other. -/
theorem put_put_other (shelf : Shelf) (id : String) (file : RuleFile) :
    (shelf.put id file.context (some file.text.toUTF8)).put id file.context.other none =
      shelf.set id (some file) := by
  funext i c
  by_cases hi : i = id
  · subst hi
    obtain ⟨context, text⟩ := file
    cases context <;> cases c <;> simp [put, set, row, Context.other, Function.update]
  · simp [put, set, hi]

theorem put_none_none (shelf : Shelf) (id : String) :
    (shelf.put id .http none).put id .stream none = shelf.set id none := by
  funext i c
  by_cases hi : i = id
  · subst hi
    cases c <;> simp [put, set, row, Function.update]
  · simp [put, set, hi]

theorem set_self (shelf : Shelf) (id : String) (file : Option RuleFile) :
    shelf.set id file id = row file := by
  rw [set, Function.update_self]

theorem set_of_ne {i : String} (h : i ≠ id) (shelf : Shelf) (file : Option RuleFile) :
    shelf.set id file i = shelf i := by
  rw [set, Function.update_of_ne h]

/-- What is left alone outside of some ids, after the files of one more id were set, is left alone
outside of all of them. -/
theorem eq_outside_cons {after : Shelf} {ids : List String} {file : Option RuleFile}
    (same : ∀ i, i ∉ ids → after i = shelf.set id file i) :
    ∀ i, i ∉ id :: ids → after i = shelf i := by
  intro i outside
  obtain ⟨ne, outside⟩ := List.ne_and_not_mem_of_not_mem_cons outside
  rw [same i outside, set_of_ne ne]

/-- What an id has after it was set is single. -/
theorem IsSingle.set (single : shelf.IsSingle) (id : String) (file : Option RuleFile) :
    (shelf.set id file).IsSingle := by
  intro i
  by_cases h : i = id
  · subst h
    rw [set_self]
    cases file with
    | none => exact .inl rfl
    | some file =>
      obtain ⟨context, text⟩ := file
      cases context
      · exact .inr rfl
      · exact .inl rfl
  · rw [set_of_ne h]
    exact single i

end Shelf

namespace Store

variable {store : Store} {tree tree' : Tree} {id : String} {context : Context} {faults : Bool}

/-- The rule files of a tree. -/
def shelf (store : Store) (tree : Tree) : Shelf := fun id context =>
  if isRuleId id then tree.fileIn? (store.directory context) (fileName id) else none

/-- Whether the store can work with a tree: its active directory is there, a file or directory is in
a directory, the two contexts have directories of their own, and rule files are no links. -/
structure Tidy (store : Store) (tree : Tree) : Prop where
  given : store.config.activeDir.text ≠ ""
  closed : tree.IsClosed
  active : ∃ directory, tree.directory? (store.directory .http) = some directory
  apart : tree.directory? (store.directory .http) ≠ tree.directory? (store.directory .stream)
  noLink : ∀ context id, isRuleId id = true →
    tree.NoLinkIn (store.directory context) (fileName id)

theorem isPlainName_stream : Path.IsPlainName "stream" :=
  ⟨by decide, by decide, by decide, by decide⟩

/-- Where the active directory is given, the directories of both contexts are. -/
theorem directory_ne_of_activeDir (store : Store) (given : store.config.activeDir.text ≠ "")
    (context : Context) : (store.directory context).text ≠ "" := by
  cases context with
  | http => exact given
  | stream => exact Tree.child_text_ne given isPlainName_stream

theorem shelf_of_isRuleId (store : Store) (tree : Tree) (valid : isRuleId id = true)
    (context : Context) :
    store.shelf tree id context = tree.fileIn? (store.directory context) (fileName id) := by
  rw [shelf, if_pos valid]

/-- Nothing is on the shelf when no file is in the directories of the contexts. -/
theorem shelf_eq_none (empty : ∀ context directory,
    tree.directory? (store.directory context) = some directory →
      ∀ name content, (directory ++ [name], Entry.file content) ∉ tree.entries) :
    store.shelf tree id context = none := by
  unfold shelf
  split
  next =>
    cases leads : tree.directory? (store.directory context) with
    | none => rw [Tree.fileIn?, leads]
    | some directory =>
      rw [Tree.fileIn?_of_directory? leads]
      split
      next content there =>
        exact absurd (Tree.mem_entries there)
          (empty context directory leads (fileName id) content)
      next => rfl
  next => rfl

/-- No id has two files where there is no directory for the second. -/
theorem isSingle_of_directory? (missing : tree.directory? (store.directory .stream) = none) :
    (store.shelf tree).IsSingle := by
  intro id
  right
  unfold shelf
  split
  next => rw [Tree.fileIn?, missing]
  next => rfl

namespace Tidy

/-- Whether a tree is tidy can be seen from its entries, when none is a link. -/
theorem of_entries (given : store.config.activeDir.text ≠ "")
    (closed : ∀ held ∈ tree.entries, tree.entry? held.1.dropLast = some .directory)
    (plain : ∀ held ∈ tree.entries, ∀ target, held.2 ≠ .link target)
    (active : ∃ directory, tree.directory? (store.directory .http) = some directory)
    (apart : tree.directory? (store.directory .http) ≠ tree.directory? (store.directory .stream)) :
    store.Tidy tree :=
  ⟨given, Tree.isClosed_of_entries closed, active, apart,
    fun _ _ _ directory _ target => Tree.ne_link_of_entries plain directory _ target⟩

/-- A tree is tidy when only files and directories are in the active directory and in its directory
for plain connections. -/
theorem of_plain (given : store.config.activeDir.text ≠ "") (closed : tree.IsClosed)
    {directory : Location} (leads : tree.directory? (store.directory .http) = some directory)
    (plain : ∀ name target, tree.entry? (directory ++ [name]) ≠ some (.link target))
    (plainBelow : ∀ name target,
      tree.entry? (directory ++ ["stream"] ++ [name]) ≠ some (.link target)) :
    store.Tidy tree := by
  -- the directory for plain connections is where its name says, or nowhere
  have stream : tree.directory? (store.directory .stream) = some (directory ++ ["stream"]) ∨
      tree.directory? (store.directory .stream) = none := by
    cases there : tree.entry? (directory ++ ["stream"]) with
    | none =>
      exact .inr (Tree.directory?_child_of_free leads given isPlainName_stream (by simp [there]))
    | some entry =>
      cases entry with
      | directory =>
        exact .inl (Tree.directory?_child leads given isPlainName_stream (by decide) there)
      | file content =>
        refine .inr (Tree.directory?_child_of_free leads given isPlainName_stream ?_)
        rintro old is
        cases there.symm.trans is
        rfl
      | link target => exact absurd there (plain "stream" target)
  refine ⟨given, closed, ⟨directory, leads⟩, ?_, ?_⟩
  · rw [leads]
    rcases stream with below | nowhere
    · rw [below]
      simp
    · rw [nowhere]
      exact Option.some_ne_none _
  · intro context id _ d leadsTo target
    cases context with
    | http =>
      obtain rfl := Option.some.inj (leads.symm.trans leadsTo)
      exact plain (fileName id) target
    | stream =>
      rcases stream with below | nowhere
      · obtain rfl := Option.some.inj (below.symm.trans leadsTo)
        exact plainBelow (fileName id) target
      · rw [nowhere] at leadsTo
        cases leadsTo

/-- The directories of both contexts are given. -/
theorem directory_ne (tidy : store.Tidy tree) (context : Context) :
    (store.directory context).text ≠ "" :=
  store.directory_ne_of_activeDir tidy.given context

/-- A directory is that of one context only. -/
theorem context_eq (tidy : store.Tidy tree) {other : Context} {directory : Location}
    (leads : tree.directory? (store.directory context) = some directory)
    (leads' : tree.directory? (store.directory other) = some directory) : other = context := by
  have apart := tidy.apart
  cases context <;> cases other
  · rfl
  · rw [leads, leads'] at apart
    exact absurd rfl apart
  · rw [leads, leads'] at apart
    exact absurd rfl apart
  · rfl

/-! ## Changes of a file -/

section Change

variable {directory : Location} {name : String} (tidy : store.Tidy tree)
  (there : tree.entry? directory = some .directory)
  (free : ∀ old, tree.entry? (directory ++ [name]) = some old → old.isPassage = false)

include tidy free

theorem put_file (there : tree.entry? directory = some .directory) (content : ByteArray) :
    store.Tidy (tree.put (directory ++ [name]) (.file content)) := by
  refine ⟨tidy.given, ?_, ?_, ?_, ?_⟩
  · exact tidy.closed.put _ there fun taken => Bool.noConfusion (free _ taken)
  · rw [Tree.directory?_put_file free]
    exact tidy.active
  · rw [Tree.directory?_put_file free, Tree.directory?_put_file free]
    exact tidy.apart
  · intro context id valid
    exact (tidy.noLink context id valid).put_file free content

theorem erase_file : store.Tidy (tree.erase (directory ++ [name])) := by
  refine ⟨tidy.given, ?_, ?_, ?_, ?_⟩
  · exact tidy.closed.erase (by simp) fun taken => Bool.noConfusion (free _ taken)
  · rw [Tree.directory?_erase_file free]
    exact tidy.active
  · rw [Tree.directory?_erase_file free, Tree.directory?_erase_file free]
    exact tidy.apart
  · intro context id valid
    exact (tidy.noLink context id valid).erase_file free

end Change

/-! ## The shelf after a change -/

section Shelf

variable {directory : Location} {name : String} {content : Option ByteArray}

/-- A file that is no rule file is not on the shelf. -/
theorem shelf_eq_of_change (other : ∀ id, isRuleId id = true → name ≠ fileName id)
    (change : ∀ path n, tree'.fileIn? path n =
      if tree.directory? path = some directory ∧ n = name then content else tree.fileIn? path n) :
    store.shelf tree' = store.shelf tree := by
  funext id context
  unfold shelf
  split
  next valid =>
    rw [change, if_neg]
    rintro ⟨_, same⟩
    exact other id valid same.symm
  next => rfl

/-- A rule file that is changed where its context leads is changed on the shelf. -/
theorem shelf_put_of_change (tidy : store.Tidy tree) (valid : isRuleId id = true)
    (leads : tree.directory? (store.directory context) = some directory)
    (change : ∀ path n, tree'.fileIn? path n =
      if tree.directory? path = some directory ∧ n = fileName id then content
      else tree.fileIn? path n) :
    store.shelf tree' = (store.shelf tree).put id context content := by
  funext i c
  rw [Shelf.put_apply]
  by_cases same : i = id ∧ c = context
  · obtain ⟨rfl, rfl⟩ := same
    rw [shelf_of_isRuleId _ _ valid, change, if_pos ⟨leads, rfl⟩, if_pos ⟨rfl, rfl⟩]
  · rw [if_neg same]
    unfold shelf
    split
    next =>
      rw [change, if_neg]
      rintro ⟨leads', name⟩
      exact same ⟨fileName_injective name, tidy.context_eq leads leads'⟩
    next => rfl

end Shelf

/-! ## Trees with the same rule files -/

section Spares

variable (tidy : store.Tidy tree) (spared : Tree.Spares tree tree')

include tidy spared

theorem of_spares : store.Tidy tree' := by
  have same := Tree.directory?_congr spared.keeps spared.back
  refine ⟨tidy.given, spared.closed tidy.closed, ?_, ?_, ?_⟩
  · rw [same]
    exact tidy.active
  · rw [same, same]
    exact tidy.apart
  · intro context id valid directory leads target
    rw [same] at leads
    rw [spared.rules directory id valid]
    exact tidy.noLink context id valid directory leads target

omit tidy

theorem shelf_of_spares : store.shelf tree' = store.shelf tree := by
  funext id context
  unfold shelf
  split
  next valid =>
    rw [Tree.fileIn?, Tree.fileIn?, Tree.directory?_congr spared.keeps spared.back]
    cases tree.directory? (store.directory context) with
    | none => rfl
    | some directory =>
      dsimp only
      rw [spared.rules directory id valid]
  next => rfl

end Spares

/-- A call that fails leaves a tidy tree with the same rule files, unless it makes directories. -/
theorem of_leaves (tidy : store.Tidy tree) {call : FileCall} (left : tree.Leaves call tree')
    (files : ∀ path, call ≠ .createDirectories path) :
    tree.Spares tree' ∧ store.Tidy tree' ∧ store.shelf tree' = store.shelf tree := by
  cases left with
  | nothing => exact ⟨.refl tree, tidy, rfl⟩
  | spares _ spared => exact ⟨spared, tidy.of_spares spared, shelf_of_spares spared⟩
  | @directories path => exact absurd rfl (files path)

/-! ## Calls on rule files -/

/-- Reading a rule file tells what is on the shelf. -/
theorem reads (tidy : store.Tidy tree) (valid : isRuleId id = true)
    {answer : Except IoFault ByteArray} :
    tree.Answers faults (.read ((store.directory context).child (fileName id))) answer tree' →
      tree' = tree ∧ match answer with
        | .ok content => store.shelf tree id context = some content
        | .error fault => fault = .notFound → store.shelf tree id context = none := by
  intro h
  have noLink := tidy.noLink context id valid
  cases answer with
  | ok content =>
    obtain ⟨read, same⟩ := Prod.mk.inj h.ok
    refine ⟨same.symm, ?_⟩
    show store.shelf tree id context = some content
    rw [shelf_of_isRuleId _ _ valid]
    exact Tree.read_child_ok (tidy.directory_ne context) (isPlainName_fileName valid) noLink read
  | error fault =>
    obtain rfl := h.fault.eq_of_not_changes rfl
    refine ⟨rfl, ?_⟩
    rintro rfl
    obtain ⟨read, _⟩ := Prod.mk.inj h.notFound
    rw [shelf_of_isRuleId _ _ valid]
    exact Tree.fileIn?_of_read_notFound (tidy.directory_ne context) (isPlainName_fileName valid)
      noLink read

/-- Removing a rule file takes it from the shelf, or leaves the shelf alone. -/
theorem removes (tidy : store.Tidy tree) (valid : isRuleId id = true)
    {answer : Except IoFault Unit} :
    tree.Answers faults (.remove ((store.directory context).child (fileName id))) answer tree' →
      store.Tidy tree' ∧ match answer with
        | .ok _ => store.shelf tree id context ≠ none ∧
          store.shelf tree' = (store.shelf tree).put id context none
        | .error fault => store.shelf tree' = store.shelf tree ∧
          (fault = .notFound → store.shelf tree id context = none) ∧
          (fault ≠ .notFound → faults = true) := by
  intro h
  have given := tidy.directory_ne context
  have plain := isPlainName_fileName valid
  cases answer with
  | ok result =>
    have removed := Tree.changed_eq_ok_iff.1 h.ok
    obtain ⟨directory, content, leads, there, rfl⟩ :=
      Tree.remove_child_ok given plain (tidy.noLink context id valid) removed
    have free : ∀ old, tree.entry? (directory ++ [fileName id]) = some old →
        old.isPassage = false := by
      intro old is
      rw [there] at is
      cases is
      rfl
    refine ⟨tidy.erase_file free, ?_, ?_⟩
    · rw [shelf_of_isRuleId _ _ valid, Tree.fileIn?_of_directory? leads, there]
      exact Option.some_ne_none _
    · exact shelf_put_of_change tidy valid leads (Tree.fileIn?_erase_file free)
  | error fault =>
    obtain ⟨_, tidy', left⟩ := tidy.of_leaves h.fault nofun
    refine ⟨tidy', left, ?_, h.faulty⟩
    rintro rfl
    rw [shelf_of_isRuleId _ _ valid]
    exact Tree.fileIn?_of_remove_notFound given plain (Tree.changed_eq_error_iff.1 h.notFound).1

/-- A list of a directory holds the files of all ids on the shelf. -/
theorem lists (tidy : store.Tidy tree) {answer : Except IoFault (List String)} :
    tree.Answers faults (.list (store.directory context)) answer tree' →
      tree' = tree ∧ match answer with
        | .ok names => ∀ id, store.shelf tree id context ≠ none → fileName id ∈ names
        | .error fault => fault = .notFound → ∀ id, store.shelf tree id context = none := by
  intro h
  cases answer with
  | ok names =>
    obtain ⟨list, same⟩ := Prod.mk.inj h.ok
    refine ⟨same.symm, ?_⟩
    intro id held
    obtain ⟨directory, leads, rfl⟩ := Tree.list_ok list
    unfold shelf at held
    split at held
    next valid =>
      rw [Tree.fileIn?_of_directory? leads] at held
      split at held
      next content there => exact Tree.mem_names_of_entry? there
      next => exact absurd rfl held
    next => exact absurd rfl held
  | error fault =>
    obtain rfl := h.fault.eq_of_not_changes rfl
    refine ⟨rfl, ?_⟩
    rintro rfl id
    obtain ⟨list, _⟩ := Prod.mk.inj h.notFound
    have nowhere := Tree.directory?_of_list_notFound (tidy.directory_ne context) list
    unfold shelf
    split
    next => rw [Tree.fileIn?, nowhere]
    next => rfl

/-! ## Steps by which a rule file is written -/

/-- The directory of the other context is made where nothing is: nothing is in it. -/
theorem put_stream (tidy : store.Tidy tree) {directory : Location}
    (leads : tree.directory? (store.directory .http) = some directory)
    (vacant : tree.entry? (directory ++ ["stream"]) = none) :
    let tree' := tree.put (directory ++ ["stream"]) .directory
    store.Tidy tree' ∧ store.shelf tree' = store.shelf tree ∧
      tree'.directory? (store.directory .stream) = some (directory ++ ["stream"]) := by
  intro tree'
  have keeps : Tree.Keeps tree tree' := Tree.keeps_put (by simp) _ (by simp [vacant])
  have leads' : tree'.directory? (store.directory .http) = some directory :=
    keeps.directory? leads
  have there : tree'.entry? (directory ++ ["stream"]) = some .directory := by
    rw [Tree.entry?_put tree (by simp), if_pos rfl]
  have stream : tree'.directory? (store.directory .stream) = some (directory ++ ["stream"]) :=
    Tree.directory?_child leads' tidy.given isPlainName_stream (by decide) there
  have nowhere : tree.directory? (store.directory .stream) = none :=
    Tree.directory?_child_of_free leads tidy.given isPlainName_stream (by simp [vacant])
  have http (id : String) :
      tree'.entry? (directory ++ [fileName id]) = tree.entry? (directory ++ [fileName id]) := by
    rw [Tree.entry?_put tree (by simp), if_neg]
    rw [List.append_singleton_inj]
    rintro ⟨_, name⟩
    exact fileName_ne_stream id name
  -- what is in no directory is not there, so the new directory is empty
  have inside (id : String) : tree'.entry? (directory ++ ["stream"] ++ [fileName id]) = none := by
    rw [Tree.entry?_put tree (by simp), if_neg (by simp)]
    exact tidy.closed.entry?_eq_none (by simp [vacant]) _
  refine ⟨⟨tidy.given, ?_, ⟨directory, leads'⟩, ?_, ?_⟩, ?_, stream⟩
  · exact tidy.closed.put _ (Tree.entry?_of_directory? leads) fun _ => rfl
  · rw [leads', stream]
    simp
  · intro context id valid d leadsTo target
    cases context with
    | http =>
      obtain rfl := Option.some.inj (leads'.symm.trans leadsTo)
      rw [http]
      exact tidy.noLink .http id valid directory leads target
    | stream =>
      obtain rfl := Option.some.inj (stream.symm.trans leadsTo)
      rw [inside]
      exact nofun
  · funext id context
    unfold shelf
    split
    next =>
      cases context with
      | http =>
        rw [Tree.fileIn?_of_directory? leads', Tree.fileIn?_of_directory? leads, http]
      | stream =>
        rw [Tree.fileIn?_of_directory? stream, inside, Tree.fileIn?, nowhere]
    next => rfl

/-- The directory of a context as it is made: no rule file changes. -/
theorem createDirectories (tidy : store.Tidy tree) (context : Context) :
    let made := tree.createDirectories (store.directory context)
    store.Tidy made.2 ∧ store.shelf made.2 = store.shelf tree ∧ made.1 ≠ .error .notFound ∧
      (made.1 = .ok () →
        ∃ directory, made.2.directory? (store.directory context) = some directory) := by
  intro made
  obtain ⟨directory, leads⟩ := tidy.active
  cases context with
  | http =>
    obtain ⟨answer, same⟩ := Tree.createDirectories_directory tidy.given leads
    have same : made.2 = tree := same
    rw [same]
    exact ⟨tidy, rfl, answer, fun _ => ⟨directory, leads⟩⟩
  | stream =>
    obtain ⟨answer, ⟨same, there⟩ | ⟨vacant, same⟩⟩ :=
      Tree.createDirectories_child tidy.given isPlainName_stream leads
    · have same : made.2 = tree := same
      rw [same]
      exact ⟨tidy, rfl, answer, there⟩
    · have same : made.2 = tree.put (directory ++ ["stream"]) .directory := same
      obtain ⟨tidy', shelf, leads'⟩ := tidy.put_stream leads vacant
      rw [same]
      exact ⟨tidy', shelf, answer, fun _ => ⟨_, leads'⟩⟩

/-- Making the directory of a context changes no rule file. -/
theorem makes (tidy : store.Tidy tree) {answer : Except IoFault Unit} :
    tree.Answers faults (.createDirectories (store.directory context)) answer tree' →
      store.Tidy tree' ∧ store.shelf tree' = store.shelf tree ∧ match answer with
        | .ok _ => ∃ directory, tree'.directory? (store.directory context) = some directory
        | .error _ => faults = true := by
  intro h
  obtain ⟨tidy', shelf, found, there⟩ := tidy.createDirectories context
  cases answer with
  | ok result =>
    have done : tree.createDirectories (store.directory context) = (.ok (), tree') := h.ok
    rw [done] at tidy' shelf there
    exact ⟨tidy', shelf, there rfl⟩
  | error fault =>
    have faulty : faults = true := by
      refine h.faulty ?_
      rintro rfl
      have missing : tree.createDirectories (store.directory context) =
        (.error .notFound, tree') := h.notFound
      rw [missing] at found
      exact found rfl
    cases h.fault with
    | nothing => exact ⟨tidy, rfl, faulty⟩
    | spares _ spared => exact ⟨tidy.of_spares spared, shelf_of_spares spared, faulty⟩
    | directories spared =>
      exact ⟨tidy'.of_spares spared, (shelf_of_spares spared).trans shelf, faulty⟩

section Writing

variable {above : Path} {temporary : String} {directory : Location} (tidy : store.Tidy tree)
  (given : above.text ≠ "") (plain : Path.IsPlainName temporary)
  (other : ∀ id, isRuleId id = true → temporary ≠ fileName id)
  (leads : tree.directory? above = some directory)

include tidy given plain other leads

/-- A file that is written beside its place changes no rule file. -/
theorem writes (unused : tree.entry? (directory ++ [temporary]) = none) {content : ByteArray}
    {answer : Except IoFault Unit} :
    tree.Answers faults (.write (above.child temporary) content) answer tree' →
      store.Tidy tree' ∧ store.shelf tree' = store.shelf tree ∧ match answer with
        | .ok _ => tree' = tree.put (directory ++ [temporary]) (.file content)
        | .error _ => faults = true := by
  intro h
  have free : ∀ old, tree.entry? (directory ++ [temporary]) = some old →
      old.isPassage = false := by simp [unused]
  have noLink : tree.NoLinkIn above temporary := by
    intro d leadsTo target
    rw [← Option.some.inj (leads.symm.trans leadsTo), unused]
    exact nofun
  cases answer with
  | ok result =>
    obtain ⟨d, leadsTo, _, rfl⟩ :=
      Tree.write_child_ok given plain noLink (Tree.changed_eq_ok_iff.1 h.ok)
    obtain rfl := Option.some.inj (leads.symm.trans leadsTo)
    exact ⟨tidy.put_file free (Tree.entry?_of_directory? leads) content,
      shelf_eq_of_change other (Tree.fileIn?_put_file free content), rfl⟩
  | error fault =>
    have faulty : faults = true := by
      refine h.faulty ?_
      rintro rfl
      exact Tree.write_child_ne_notFound given plain noLink leads content
        (Tree.changed_eq_error_iff.1 h.notFound).1
    obtain ⟨_, tidy', shelf⟩ := tidy.of_leaves h.fault nofun
    exact ⟨tidy', shelf, faulty⟩

/-- A file that is moved to the place of a rule file is that rule file. -/
theorem moves {content : ByteArray}
    (there : tree.entry? (directory ++ [temporary]) = some (.file content))
    (valid : isRuleId id = true)
    (leadsTo : tree.directory? (store.directory context) = some directory)
    {answer : Except IoFault Unit} :
    tree.Answers faults (.rename (above.child temporary)
        ((store.directory context).child (fileName id))) answer tree' →
      match answer with
      | .ok _ => store.Tidy tree' ∧
        store.shelf tree' = (store.shelf tree).put id context (some content)
      | .error _ => tree.Spares tree' ∧ faults = true := by
  intro h
  have given' := tidy.directory_ne context
  have plain' := isPlainName_fileName valid
  cases answer with
  | ok result =>
    obtain ⟨file, same⟩ := Tree.rename_child_ok given plain leads given' plain' leadsTo there
      (Tree.changed_eq_ok_iff.1 h.ok)
    -- first the file goes from where it was, which no rule file notices
    have freeOld : ∀ old, tree.entry? (directory ++ [temporary]) = some old →
        old.isPassage = false := by
      intro old is
      rw [there] at is
      cases is
      rfl
    have erased := tidy.erase_file freeOld
    have shelf : store.shelf (tree.erase (directory ++ [temporary])) = store.shelf tree :=
      shelf_eq_of_change other (Tree.fileIn?_erase_file freeOld)
    have leadsErased : (tree.erase (directory ++ [temporary])).directory?
        (store.directory context) = some directory := by
      rw [Tree.directory?_erase_file freeOld, leadsTo]
    -- then it is put where there is no directory and no link
    have freeNew : ∀ old, Tree.entry? (tree.erase (directory ++ [temporary]))
        (directory ++ [fileName id]) = some old → old.isPassage = false := by
      intro old is
      rw [Tree.entry?_erase tree (by simp)] at is
      split at is
      next => cases is
      next =>
        cases old with
        | file _ => rfl
        | directory => exact absurd is file
        | link target => exact absurd is (tidy.noLink context id valid directory leadsTo target)
    rw [same]
    refine ⟨erased.put_file freeNew (Tree.entry?_of_directory? leadsErased) content, ?_⟩
    rw [← shelf]
    exact shelf_put_of_change erased valid leadsErased (Tree.fileIn?_put_file freeNew content)
  | error fault =>
    refine ⟨(tidy.of_leaves h.fault nofun).1, h.faulty ?_⟩
    rintro rfl
    exact Tree.rename_child_ne_notFound given plain leads given' plain' leadsTo there
      (Tree.changed_eq_error_iff.1 h.notFound).1

/-- A file that could not be moved may be removed; no rule file changes. -/
theorem cleans (free : ∀ old, tree.entry? (directory ++ [temporary]) = some old →
      old.isPassage = false) {answer : Except IoFault Unit}
    (h : tree.Answers faults (.remove (above.child temporary)) answer tree') :
    store.Tidy tree' ∧ store.shelf tree' = store.shelf tree := by
  have noLink : tree.NoLinkIn above temporary := by
    intro d leadsTo target there
    rw [← Option.some.inj (leads.symm.trans leadsTo)] at there
    exact Bool.noConfusion (free _ there)
  cases answer with
  | ok result =>
    obtain ⟨d, _, leadsTo, _, rfl⟩ :=
      Tree.remove_child_ok given plain noLink (Tree.changed_eq_ok_iff.1 h.ok)
    obtain rfl := Option.some.inj (leads.symm.trans leadsTo)
    exact ⟨tidy.erase_file free, shelf_eq_of_change other (Tree.fileIn?_erase_file free)⟩
  | error fault => exact (tidy.of_leaves h.fault nofun).2

end Writing

end Tidy

end Store

end ProxyKeeper
