import ProxyKeeper.Proofs.Store.Shelf

/-!
# What the store does to a shelf

The operations of the store on the terms of a site. Each either does to the shelf what it is for, or
fails and has at most spoilt the files of the one id it is about. Reading and listing change
nothing. Where no faults are possible, writing and removing do not fail.

## Main Definitions

* `Store.At` — a site with given rule files, and given files in force
* `Store.Spoils` — how an operation on an id fails

## Main Results

* `Store.meets_read`, `Store.meets_list` — what is read is what is on the shelf
* `Store.meets_write`, `Store.meets_remove`, `Store.meets_restore` — what changes, and what may not
-/

namespace ProxyKeeper

variable {α : Type} {site : Site} {faults : Bool}

/-- Whether an operation fails with a call of the file system. -/
def OperationError.IsIo (error : OperationError) : Prop :=
  ∃ path fault, error = .io path fault

/-- A call of the file system is answered as the files on disk allow. -/
theorem Operation.meets_attempt {call : FileCall} {returns : call.Answer → Site → Prop}
    {fails : OperationError → Site → Prop}
    (h : ∀ answer tree, site.tree.Answers faults call answer tree →
      returns answer { site with tree }) :
    (attempt call).Meets (Site.terms faults) returns fails site := by
  refine meets_request.2 ⟨trivial, ?_⟩
  rintro answer _ ⟨tree, answered, rfl⟩
  exact h answer tree answered

/-- A call whose faults are failures. -/
theorem Operation.meets_file {path : Path} {call : FileCall} {returns : call.Result → Site → Prop}
    {fails : OperationError → Site → Prop}
    (done : ∀ result tree, site.tree.Answers faults call (.ok result) tree →
      returns result { site with tree })
    (failed : ∀ fault tree, site.tree.Answers faults call (.error fault) tree →
      fails (.io path.text fault) { site with tree }) :
    (file path call).Meets (Site.terms faults) returns fails site := by
  refine meets_bind.2 (meets_attempt fun answer tree answered => ?_)
  cases answer with
  | ok result => exact done result tree answered
  | error fault => exact failed fault tree answered

namespace Store

open Operation

variable {store : Store} {live : Live} {shelf : Shelf} {id : String} {context : Context}

/-- A tidy site with some rule files on disk and some files in force. -/
structure At (store : Store) (live : Live) (shelf : Shelf) (site : Site) : Prop where
  live_eq : site.live = live
  tidy : store.Tidy site.tree
  shelf_eq : store.shelf site.tree = shelf

/-- How an operation on an id fails: only where faults are possible, and only the files of the id
may have changed. -/
def Spoils (store : Store) (faults : Bool) (live : Live) (shelf : Shelf) (id : String)
    (error : OperationError) (site : Site) : Prop :=
  error.IsIo ∧ faults = true ∧
    ∃ spoilt : Shelf, (∀ i, i ≠ id → spoilt i = shelf i) ∧ store.At live spoilt site

theorem path_of_isRuleId (store : Store) (valid : isRuleId id = true) (context : Context) :
    store.path id context = .ok ((store.directory context).child (fileName id)) := by
  rw [path, if_pos valid]

/-! ## Reading -/

/-- What is read is on the shelf, and nothing is read when nothing is there. -/
theorem meets_readIfPresent (here : store.At live shelf site) (valid : isRuleId id = true) :
    (readIfPresent ((store.directory context).child (fileName id))).Meets (Site.terms faults)
      (fun text s => s = site ∧ shelf id context = text.map String.toUTF8)
      (fun e s => e.IsIo ∧ s = site) site := by
  refine meets_bind.2 (meets_attempt fun answer tree answered => ?_)
  obtain ⟨rfl, told⟩ := here.tidy.reads valid answered
  rw [here.shelf_eq] at told
  cases answer with
  | ok content =>
    dsimp only
    -- a file that is no text is not read
    split
    next text decoded =>
      refine ⟨rfl, told.trans ?_⟩
      rw [Option.map_some, Text.Utf8.toUTF8_of_strict? decoded]
    next => exact ⟨⟨_, _, rfl⟩, rfl⟩
  | error fault =>
    dsimp only
    split
    next nothing => exact ⟨rfl, told nothing⟩
    next => exact ⟨⟨_, _, rfl⟩, rfl⟩

/-- What is read for an id is the first of its files. -/
theorem meets_read (here : store.At live shelf site) (valid : isRuleId id = true) :
    (store.read id).Meets (Site.terms faults) (fun file s => s = site ∧ Shelf.Shows (shelf id) file)
      (fun e s => e.IsIo ∧ s = site) site := by
  rw [read, readFrom, path_of_isRuleId store valid]
  refine meets_bind.2 (meets_ok.2 ((meets_readIfPresent here valid).bind ?_))
  rintro text s ⟨rfl, http⟩
  cases text with
  | some text => exact ⟨rfl, http, fun vacant => by simp [vacant] at http⟩
  | none =>
    dsimp only
    rw [readFrom, path_of_isRuleId store valid]
    refine meets_bind.2 (meets_ok.2 ((meets_readIfPresent here valid).bind ?_))
    rintro text s ⟨rfl, stream⟩
    cases text with
    | some text => exact ⟨rfl, http, fun _ => stream⟩
    | none => exact ⟨rfl, http, fun _ => stream⟩

/-- A list of a directory gives ids, and all that have a file there. -/
theorem meets_listDirectory (here : store.At live shelf site) :
    (listDirectory (store.directory context)).Meets (Site.terms faults)
      (fun ids s => s = site ∧ (∀ id ∈ ids, isRuleId id = true) ∧
        ∀ id, shelf id context ≠ none → id ∈ ids)
      (fun e s => e.IsIo ∧ s = site) site := by
  refine meets_bind.2 (meets_attempt fun answer tree answered => ?_)
  obtain ⟨rfl, told⟩ := here.tidy.lists answered
  rw [here.shelf_eq] at told
  cases answer with
  | ok names =>
    refine ⟨rfl, ?_, ?_⟩
    · intro id listed
      obtain ⟨name, _, is⟩ := List.mem_filterMap.1 listed
      exact isRuleId_of_ruleId? is
    · intro id held
      have valid : isRuleId id = true := by
        by_contra invalid
        rw [← here.shelf_eq, Store.shelf, if_neg invalid] at held
        exact held rfl
      exact List.mem_filterMap.2 ⟨_, told id held, ruleId?_fileName valid⟩
  | error fault =>
    dsimp only
    split
    next nothing => exact ⟨rfl, by simp, fun id held => absurd (told nothing id) held⟩
    next => exact ⟨⟨_, _, rfl⟩, rfl⟩

/-- The list of all ids with a file: each once, and all of them. -/
theorem meets_list (here : store.At live shelf site) :
    store.list.Meets (Site.terms faults)
      (fun ids s => s = site ∧ ids.Nodup ∧ (∀ id ∈ ids, isRuleId id = true) ∧
        ∀ id context, shelf id context ≠ none → id ∈ ids)
      (fun e s => e.IsIo ∧ s = site) site := by
  refine (meets_listDirectory here).bind ?_
  rintro http s ⟨rfl, httpValid, httpAll⟩
  refine (meets_listDirectory here).bind ?_
  rintro stream s ⟨rfl, streamValid, streamAll⟩
  refine ⟨rfl, ?_, ?_, ?_⟩
  · exact (pairwise_ascendingNames _).imp fun lt => String.ne_of_lt lt
  · intro id listed
    rcases List.mem_append.1 (mem_ascendingNames.1 listed) with listed | listed
    · exact httpValid id listed
    · exact streamValid id listed
  · intro id context held
    refine mem_ascendingNames.2 (List.mem_append.2 ?_)
    cases context with
    | http => exact .inl (httpAll id held)
    | stream => exact .inr (streamAll id held)

/-! ## Changing -/

/-- A file is removed where there is one. -/
theorem meets_removeIfPresent (here : store.At live shelf site) (valid : isRuleId id = true) :
    (removeIfPresent ((store.directory context).child (fileName id))).Meets (Site.terms faults)
      (fun found s => found = (shelf id context).isSome ∧
        store.At live (shelf.put id context none) s)
      (fun e s => e.IsIo ∧ faults = true ∧ store.At live shelf s) site := by
  refine meets_bind.2 (meets_attempt fun answer tree answered => ?_)
  obtain ⟨tidy, told⟩ := here.tidy.removes valid answered
  rw [here.shelf_eq] at told
  cases answer with
  | ok result =>
    obtain ⟨held, left⟩ := told
    exact ⟨(Option.isSome_iff_ne_none.2 held).symm, here.live_eq, tidy, left⟩
  | error fault =>
    obtain ⟨left, nothing, faulty⟩ := told
    have same : store.At live shelf { site with tree } := ⟨here.live_eq, tidy, left⟩
    dsimp only
    split
    next missing =>
      have none := nothing missing
      refine ⟨by rw [none]; rfl, ?_⟩
      rw [Shelf.put_eq_self none]
      exact same
    next other => exact ⟨⟨_, _, rfl⟩, faulty other, same⟩

/-- A file is written whole or not at all. -/
theorem meets_writeWhole (here : store.At live shelf site) (valid : isRuleId id = true)
    {directory : Location} (leads : site.tree.directory? (store.directory context) = some directory)
    (text : String) :
    (writeWhole ((store.directory context).child (fileName id)) text).Meets (Site.terms faults)
      (fun _ s => store.At live (shelf.put id context (some text.toUTF8)) s)
      (fun e s => e.IsIo ∧ faults = true ∧ store.At live shelf s) site := by
  have given := here.tidy.directory_ne context
  have plain := isPlainName_fileName valid
  obtain ⟨above, dots, parent, givenAbove, absolute, names, silent⟩ :=
    Path.parent?_child given plain
  have leadsAbove : site.tree.directory? above = some directory :=
    (Tree.directory?_of_dots site.tree absolute names silent).trans leads
  rw [writeWhole, parent, Path.fileName?_child given plain]
  simp only [Option.getD_some]
  refine meets_bind.2 (meets_request.2 ⟨trivial, ?_⟩)
  rintro (fresh : String) s ⟨isFresh, same⟩
  obtain rfl : site = s := same.symm
  have plainTemporary := isPlainName_temporaryName plain.noSlash isFresh.noSlash
  have other (i : String) (validI : isRuleId i = true) :
      temporaryName (fileName id) fresh ≠ fileName i := temporaryName_ne_fileName _ _ validI
  have unused := isFresh.unused directory (fileName id)
  have step {answer : Except IoFault Unit} {tree : Tree}
      (answered : site.tree.Answers faults
        (.write (above.child (temporaryName (fileName id) fresh)) text.toUTF8) answer tree) :=
    here.tidy.writes givenAbove plainTemporary other leadsAbove unused answered
  refine meets_bind.2 (meets_file ?_ ?_)
  · intro _ tree answered
    obtain ⟨tidy, left, same⟩ := step answered
    -- the file is beside its place now, and may be moved or removed
    have free : ∀ old, site.tree.entry? (directory ++ [temporaryName (fileName id) fresh]) =
        some old → old.isPassage = false := by simp [unused]
    have there : tree.entry? (directory ++ [temporaryName (fileName id) fresh]) =
        some (.file text.toUTF8) := by
      rw [same, Tree.entry?_put _ (by simp), if_pos rfl]
    have leadsAbove' : tree.directory? above = some directory := by
      rw [same, Tree.directory?_put_file free, leadsAbove]
    have leads' : tree.directory? (store.directory context) = some directory := by
      rw [same, Tree.directory?_put_file free, leads]
    refine meets_bind.2 (meets_attempt fun answer moved answeredMove => ?_)
    have effect := tidy.moves givenAbove plainTemporary other leadsAbove' there valid leads'
      answeredMove
    cases answer with
    | ok _ =>
      obtain ⟨tidy', left'⟩ := effect
      refine ⟨here.live_eq, tidy', ?_⟩
      rw [left', left, here.shelf_eq]
    | error fault =>
      -- the file stays beside its place until it is removed, if it can be
      obtain ⟨spared, faulty⟩ := effect
      have leadsMoved : moved.directory? above = some directory :=
        (Tree.directory?_congr spared.keeps spared.back above).trans leadsAbove'
      have freeMoved : ∀ old, moved.entry? (directory ++ [temporaryName (fileName id) fresh]) =
          some old → old.isPassage = false := by
        intro old is
        by_contra passage
        have was := spared.back.passage _ old is (by simpa using passage)
        rw [there] at was
        cases was
        exact passage rfl
      refine meets_bind.2 (meets_attempt fun answer cleaned answeredClean => ?_)
      obtain ⟨tidy', left'⟩ := (tidy.of_spares spared).cleans givenAbove plainTemporary other
        leadsMoved freeMoved answeredClean
      refine ⟨⟨_, _, rfl⟩, faulty, here.live_eq, tidy', ?_⟩
      rw [left', Tidy.shelf_of_spares spared, left, here.shelf_eq]
  · intro fault tree answered
    obtain ⟨tidy, left, faulty⟩ := step answered
    exact ⟨⟨_, _, rfl⟩, faulty, here.live_eq, tidy, left.trans here.shelf_eq⟩

/-- Where the directory of its context is made, a rule file is written, and the other file of its id
is removed. -/
theorem meets_writeMade (here : store.At live shelf site) (valid : isRuleId id = true)
    (file : RuleFile)
    (made : ∃ directory, site.tree.directory? (store.directory file.context) = some directory) :
    (do
      writeWhole ((store.directory file.context).child (fileName id)) file.text
      let other ← Operation.ofExcept (store.path id file.context.other)
      let _ ← removeIfPresent other
      return ()).Meets (Site.terms faults)
      (fun _ s => store.At live (shelf.set id (some file)) s)
      (store.Spoils faults live shelf id) site := by
  obtain ⟨directory, leads⟩ := made
  refine meets_bind.2 ((meets_writeWhole here valid leads file.text).mono ?_ ?_)
  · intro _ s written
    rw [path_of_isRuleId store valid]
    refine meets_bind.2 (meets_ok.2 (meets_bind.2 ((meets_removeIfPresent written valid).mono
      ?_ ?_)))
    · rintro _ s ⟨_, removed⟩
      rw [Shelf.put_put_other] at removed
      exact removed
    · rintro e s ⟨io, faulty, same⟩
      exact ⟨io, faulty, _, fun i ne => Shelf.put_of_ne ne _ _ _, same⟩
  · rintro e s ⟨io, faulty, same⟩
    exact ⟨io, faulty, _, fun _ _ => rfl, same⟩

/-- A rule file that is written is the only one of its id. -/
theorem meets_write (here : store.At live shelf site) (valid : isRuleId id = true)
    (file : RuleFile) :
    (store.write id file).Meets (Site.terms faults)
      (fun _ s => store.At live (shelf.set id (some file)) s)
      (store.Spoils faults live shelf id) site := by
  rw [write, path_of_isRuleId store valid]
  refine meets_bind.2 (meets_ok.2 (meets_bind.2 (meets_file ?_ ?_)))
  · intro _ tree answered
    obtain ⟨tidy, left, made⟩ := here.tidy.makes answered
    have same : store.At live shelf { site with tree } :=
      ⟨here.live_eq, tidy, left.trans here.shelf_eq⟩
    exact meets_writeMade same valid file made
  · intro fault tree answered
    obtain ⟨tidy, left, faulty⟩ := here.tidy.makes answered
    exact ⟨⟨_, _, rfl⟩, faulty, _, fun _ _ => rfl, here.live_eq, tidy, left.trans here.shelf_eq⟩

/-- The files of an id are removed one after the other, and it is told whether there was one. When
the first cannot be removed, both are left, and when the second cannot, the first is gone. -/
theorem removes_inOrder (here : store.At live shelf site) (valid : isRuleId id = true) :
    (store.remove id).Meets (Site.terms faults)
      (fun found s => found = ((shelf id .http).isSome || (shelf id .stream).isSome) ∧
        store.At live (shelf.set id none) s)
      (fun e s => e.IsIo ∧ faults = true ∧
        (store.At live shelf s ∨ store.At live (shelf.put id .http none) s)) site := by
  rw [remove, path_of_isRuleId store valid, path_of_isRuleId store valid]
  refine meets_bind.2 (meets_ok.2 (meets_bind.2 ((meets_removeIfPresent here valid).mono ?_ ?_)))
  · rintro inHttp s ⟨rfl, http⟩
    refine meets_bind.2 (meets_ok.2 (meets_bind.2 ((meets_removeIfPresent http valid).mono ?_ ?_)))
    · rintro inStream s ⟨rfl, stream⟩
      have other : shelf.put id .http none id .stream = shelf id .stream := by
        rw [Shelf.put_apply]
        simp
      rw [Shelf.put_none_none] at stream
      refine ⟨?_, stream⟩
      rw [other]
    · rintro e s ⟨io, faulty, same⟩
      exact ⟨io, faulty, .inr same⟩
  · rintro e s ⟨io, faulty, same⟩
    exact ⟨io, faulty, .inl same⟩

/-- The files of an id are removed, or only they may be spoilt. -/
theorem meets_remove (here : store.At live shelf site) (valid : isRuleId id = true) :
    (store.remove id).Meets (Site.terms faults)
      (fun found s => found = ((shelf id .http).isSome || (shelf id .stream).isSome) ∧
        store.At live (shelf.set id none) s)
      (store.Spoils faults live shelf id) site := by
  refine (removes_inOrder here valid).mono (fun _ _ removed => removed) ?_
  rintro e s ⟨io, faulty, left | half⟩
  · exact ⟨io, faulty, _, fun _ _ => rfl, left⟩
  · exact ⟨io, faulty, _, fun i ne => Shelf.put_of_ne ne _ _ _, half⟩

/-- What was read for an id is put back. -/
theorem meets_restore (here : store.At live shelf site) (valid : isRuleId id = true)
    (file : Option RuleFile) :
    (store.restore id file).Meets (Site.terms faults)
      (fun _ s => store.At live (shelf.set id file) s) (store.Spoils faults live shelf id)
      site := by
  cases file with
  | some file => exact meets_write here valid file
  | none =>
    refine (meets_remove here valid).bind ?_
    rintro found s ⟨_, removed⟩
    exact removed

end Store

end ProxyKeeper
