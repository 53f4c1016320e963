import ProxyKeeper.Proofs.Files.Making
import ProxyKeeper.Proofs.Store.Held

/-!
# Trees in which nothing slips

The store finds files by their paths, so a change of one entry could change where other paths lead.
A tree is firm when the places of rule files stay where they are whatever the store does: the two
contexts have directories of their own, no link that stands in the place of a rule file is on the
way to them, and a missing active directory is a new one once it is made. Links may stand in the
places of rule files, and so may directories, and the active directory need not be there.

Firmness is kept by the two changes that the store makes to a tree, also when they are only half
done: one entry of a directory of rule files is exchanged, or directories are made.

## Main Definitions

* `Store.Firm` — the trees in which nothing slips, with `Store.RestsOn` for the ways to the
  directories
* `Store.Swaps` — an entry of a directory of rule files is exchanged
* `Store.Opens` — directories are made on the way to those of the contexts

## Main Results

* `Store.Tidy.firm` — a tidy tree is firm
* `Store.Firm.of_swaps`, `Store.Swaps.held_eq` — what an exchange does
* `Store.Firm.exists_opens`, `Store.Firm.of_opens`, `Store.Opens.held_eq` — what making directories
  does
-/

namespace ProxyKeeper

namespace Store

variable {store : Store} {tree tree' made : Tree} {id : String} {context : Context}

/-- Whether some of the directories and links of a tree lead to the directories of the contexts as
all of them do, with no link in the place of a rule file among them. -/
structure RestsOn (store : Store) (tree base : Tree) : Prop where
  keeps : Tree.Keeps base tree
  leads : ∀ context directory, tree.directory? (store.directory context) = some directory →
    base.directory? (store.directory context) = some directory
  noLink : ∀ context directory, tree.directory? (store.directory context) = some directory →
    ∀ id, isRuleId id = true → ∀ target,
      base.entry? (directory ++ [fileName id]) ≠ some (.link target)

/-- Whether the places of rule files stay where they are, whatever is in them. -/
structure Firm (store : Store) (tree : Tree) : Prop where
  given : store.config.activeDir.text ≠ ""
  closed : tree.IsClosed
  /-- The directory for plain connections is another one than the active directory. -/
  apart : ∀ directory, tree.directory? (store.directory .http) = some directory →
    tree.directory? (store.directory .stream) ≠ some directory
  /-- A part of the active directory's path that is missing does not go up. -/
  descends : tree.Descends (store.directory .http)
  /-- No link in the place of a rule file is on the way to the directories. -/
  steady : ∃ base, store.RestsOn tree base

/-- A tidy tree is firm. -/
theorem Tidy.firm (tidy : store.Tidy tree) : store.Firm tree := by
  obtain ⟨directory, leads⟩ := tidy.active
  refine ⟨tidy.given, tidy.closed, fun other leads' stream => ?_, .of_directory? leads, tree, ?_⟩
  · exact tidy.apart (leads'.trans stream.symm)
  · exact ⟨.refl tree, fun _ _ leads => leads,
      fun context directory leads id valid => tidy.noLink context id valid directory leads⟩

namespace Firm

variable (firm : store.Firm tree)

include firm

theorem directory_ne (context : Context) : (store.directory context).text ≠ "" :=
  store.directory_ne_of_activeDir firm.given context

/-- Where there is a directory of a context, there is the active directory. -/
theorem exists_active {directory : Location}
    (leads : tree.directory? (store.directory context) = some directory) :
    ∃ active, tree.directory? (store.directory .http) = some active := by
  cases context with
  | http => exact ⟨directory, leads⟩
  | stream => exact Tree.exists_directory?_of_child firm.given isPlainName_stream leads

omit firm in
/-- The way to the directory for plain connections is that to the active directory and one step
more. -/
theorem directory?_stream_eq_some_iff (given : store.config.activeDir.text ≠ "") (tree : Tree)
    {directory : Location} :
    tree.directory? (store.directory .stream) = some directory ↔
      ∃ left, tree.Way Tree.maximalLinks
        (Tree.origin (store.directory .http) tree.workingDirectory)
        ((store.directory .http).names ++ ["stream"]) left directory := by
  have above : (store.directory .stream).names = (store.directory .http).names ++ ["stream"] :=
    Path.names_child given isPlainName_stream
  have absolute : (store.directory .stream).isAbsolute = (store.directory .http).isAbsolute :=
    Path.isAbsolute_child given isPlainName_stream
  rw [Tree.directory?_eq_some_iff, above, Tree.origin, absolute, Tree.origin]

/-- A directory is that of one context only. -/
theorem context_eq {other : Context} {directory : Location}
    (leads : tree.directory? (store.directory context) = some directory)
    (leads' : tree.directory? (store.directory other) = some directory) : other = context := by
  cases context <;> cases other
  · rfl
  · exact absurd leads' (firm.apart directory leads)
  · exact absurd leads (firm.apart directory leads')
  · rfl

end Firm

/-! ## An entry is exchanged -/

/-- Whether one entry of a directory of rule files has been exchanged for a file, or for nothing. A
link may go when it stands in the place of a rule file, and a directory stays. -/
structure Swaps (store : Store) (tree tree' : Tree) (directory : Location) (name : String)
    (entry : Option Entry) : Prop where
  leads : ∃ context, tree.directory? (store.directory context) = some directory
  free : ∀ old, tree.entry? (directory ++ [name]) = some old → old.isPassage = true →
    old ≠ .directory ∧ ∃ id, isRuleId id = true ∧ name = fileName id
  plain : ∀ new, entry = some new → new.isPassage = false
  origin : tree'.workingDirectory = tree.workingDirectory
  entries : ∀ location, tree'.entry? location =
    if location = directory ++ [name] then entry else tree.entry? location

namespace Swaps

variable {directory : Location} {name : String} {entry : Option Entry}

section Cases

variable (leads : tree.directory? (store.directory context) = some directory)
  (free : ∀ old, tree.entry? (directory ++ [name]) = some old → old.isPassage = true →
    old ≠ .directory ∧ ∃ id, isRuleId id = true ∧ name = fileName id)

include leads free

theorem put_file (content : ByteArray) :
    store.Swaps tree (tree.put (directory ++ [name]) (.file content)) directory name
      (some (.file content)) :=
  ⟨⟨context, leads⟩, free, by rintro _ ⟨⟩; rfl, rfl, tree.entry?_put (by simp) _⟩

theorem erase : store.Swaps tree (tree.erase (directory ++ [name])) directory name none :=
  ⟨⟨context, leads⟩, free, nofun, rfl, tree.entry?_erase (by simp)⟩

end Cases

variable (swaps : store.Swaps tree tree' directory name entry)

include swaps

/-- No new way is made. -/
theorem back : Tree.Keeps tree' tree := by
  refine ⟨swaps.origin.symm, fun location e there passage => ?_⟩
  rw [swaps.entries] at there
  split at there
  next => rw [swaps.plain e there] at passage; cases passage
  next => exact there

/-- Directories and links that do without the places of rule files stay. -/
theorem restsOn {base : Tree} (rests : store.RestsOn tree base) : Tree.Keeps base tree' := by
  refine ⟨swaps.origin.trans rests.keeps.origin, fun location e there passage => ?_⟩
  have kept := rests.keeps.passage location e there passage
  rw [swaps.entries, if_neg, kept]
  rintro rfl
  -- what goes is a link, and it would be one of those on the way
  obtain ⟨notDirectory, id, valid, rfl⟩ := swaps.free e kept passage
  obtain ⟨context, leads⟩ := swaps.leads
  cases e with
  | file content => cases passage
  | directory => exact notDirectory rfl
  | link target => exact rests.noLink context directory leads id valid target there

variable (firm : store.Firm tree)

include firm

/-- The contexts have their directories where they had them. -/
theorem directory?_eq (context : Context) :
    tree'.directory? (store.directory context) = tree.directory? (store.directory context) := by
  obtain ⟨base, rests⟩ := firm.steady
  cases leads : tree.directory? (store.directory context) with
  | some directory => exact (swaps.restsOn rests).directory? (rests.leads context directory leads)
  | none =>
    cases leads' : tree'.directory? (store.directory context) with
    | none => rfl
    | some directory => cases leads.symm.trans (swaps.back.directory? leads')

/-- The places that lead to the entry change with it. -/
theorem held_apply (i : String) (c : Context) :
    store.held tree' i c =
      if isRuleId i = true ∧ tree.directory? (store.directory c) = some directory ∧
        fileName i = name then entry else store.held tree i c := by
  cases valid : isRuleId i with
  | false =>
    rw [held_of_not_isRuleId store tree' valid, held_of_not_isRuleId store tree valid,
      if_neg (by simp)]
  | true =>
    rw [held_of_isRuleId store tree' valid, held_of_isRuleId store tree valid,
      swaps.directory?_eq firm]
    cases tree.directory? (store.directory c) with
    | none => simp
    | some d =>
      simp only [Option.bind_some, swaps.entries, List.append_singleton_inj, true_and,
        Option.some.injEq]

/-- What is beside the places is in none of them. -/
theorem held_eq_of_beside (other : ∀ i, isRuleId i = true → name ≠ fileName i) :
    store.held tree' = store.held tree := by
  funext i c
  rw [swaps.held_apply firm, if_neg fun same => other i same.1 same.2.2.symm]

/-- What is in the place of a rule file changes. -/
theorem held_eq (valid : isRuleId id = true) (is : name = fileName id)
    (leads : tree.directory? (store.directory context) = some directory) :
    store.held tree' = (store.held tree).put id context entry := by
  funext i c
  rw [swaps.held_apply firm, Rack.put_apply, is]
  refine if_congr ⟨?_, ?_⟩ rfl rfl
  · rintro ⟨_, leads', same⟩
    exact ⟨fileName_injective same, firm.context_eq leads leads'⟩
  · rintro ⟨rfl, rfl⟩
    exact ⟨valid, leads, rfl⟩

end Swaps

/-- The tree stays firm. -/
theorem Firm.of_swaps (firm : store.Firm tree) {directory : Location} {name : String}
    {entry : Option Entry} (swaps : store.Swaps tree tree' directory name entry) :
    store.Firm tree' := by
  obtain ⟨context, leads⟩ := swaps.leads
  have same := swaps.directory?_eq firm
  obtain ⟨active, leadsActive⟩ := firm.exists_active leads
  obtain ⟨base, rests⟩ := firm.steady
  refine ⟨firm.given, ⟨fun above below e there => ?_⟩, fun other => ?_,
    .of_directory? ((same .http).trans leadsActive), base, swaps.restsOn rests, ?_, ?_⟩
  · have container : tree.entry? above = some .directory := by
      rw [swaps.entries] at there
      split at there
      next is =>
        obtain ⟨rfl, _⟩ := List.append_singleton_inj.1 is
        exact Tree.entry?_of_directory? leads
      next => exact firm.closed.parent above below e there
    rw [swaps.entries, if_neg, container]
    rintro rfl
    exact (swaps.free _ container rfl).1 rfl
  · rw [same, same]
    exact firm.apart other
  · intro c d is
    exact rests.leads c d (same c ▸ is)
  · intro c d is
    exact rests.noLink c d (same c ▸ is)

/-! ## Directories are made -/

/-- Whether directories have been made on the way to those of the contexts: the active directory is
where it was or is a new one, and so is the directory for plain connections in it. -/
structure Opens (store : Store) (tree made : Tree) (active : Location) : Prop where
  grows : tree.Grows made
  closed : made.IsClosed
  along : ∀ location, made.entry? location ≠ tree.entry? location →
    location <+: active ++ ["stream"]
  http : ∀ directory, made.directory? (store.directory .http) = some directory →
    directory = active ∧ (tree.directory? (store.directory .http) = some active ∨
      tree.entry? active = none)
  stream : ∀ directory, made.directory? (store.directory .stream) = some directory →
    tree.directory? (store.directory .stream) = some directory ∨
      directory = active ++ ["stream"] ∧ tree.entry? (active ++ ["stream"]) = none

namespace Opens

variable {active : Location}

variable (opens : store.Opens tree made active)

include opens

/-- Where a path led to a directory, it leads there still. -/
theorem directory?_eq {directory : Location}
    (leads : tree.directory? (store.directory context) = some directory) :
    made.directory? (store.directory context) = some directory :=
  opens.grows.keeps.directory? leads

/-- A directory of a context is an old one or a new one. -/
theorem old_or_new {directory : Location}
    (leads : made.directory? (store.directory context) = some directory) :
    tree.directory? (store.directory context) = some directory ∨ tree.entry? directory = none := by
  cases context with
  | http =>
    obtain ⟨rfl, either⟩ := opens.http directory leads
    exact either
  | stream =>
    rcases opens.stream directory leads with old | ⟨rfl, new⟩
    · exact .inl old
    · exact .inr new

variable (firm : store.Firm tree)

include firm

/-- Where a directory of a context was there, the active directory is where it was. -/
theorem active_eq {directory : Location}
    (old : tree.directory? (store.directory context) = some directory) :
    tree.directory? (store.directory .http) = some active := by
  obtain ⟨top, leads⟩ := firm.exists_active old
  obtain ⟨rfl, _⟩ := opens.http top (opens.directory?_eq leads)
  exact leads

/-- Nothing is made in the place of a rule file. -/
theorem entry?_eq {directory : Location}
    (leads : made.directory? (store.directory context) = some directory) (id : String) :
    made.entry? (directory ++ [fileName id]) = tree.entry? (directory ++ [fileName id]) := by
  by_contra other
  have vacant := ((opens.grows.entries _).resolve_left other).1
  rcases List.prefix_concat_iff.1 (opens.along _ other) with same | above
  · exact fileName_ne_stream id (List.append_singleton_inj.1 same).2
  · -- then the place would be above the active directory
    have short := above.length_le
    rw [List.length_append, List.length_singleton] at short
    cases context with
    | http =>
      obtain ⟨rfl, _⟩ := opens.http directory leads
      omega
    | stream =>
      rcases opens.stream directory leads with old | ⟨rfl, _⟩
      · have there := Tree.entry?_of_directory? (opens.active_eq firm old)
        cases there.symm.trans (firm.closed.entry?_eq_none_below vacant above)
      · rw [List.length_append] at short
        omega

/-- No place of a rule file changes. -/
theorem held_eq : store.held made = store.held tree := by
  funext i c
  cases valid : isRuleId i with
  | false => rw [held_of_not_isRuleId _ _ valid, held_of_not_isRuleId _ _ valid]
  | true =>
    rw [held_of_isRuleId _ _ valid, held_of_isRuleId _ _ valid]
    cases old : tree.directory? (store.directory c) with
    | some directory =>
      have leads := opens.directory?_eq old
      rw [leads, Option.bind_some, Option.bind_some, opens.entry?_eq firm leads]
    | none =>
      cases leads : made.directory? (store.directory c) with
      | none => rfl
      | some directory =>
        -- a new directory is empty
        have new := (opens.old_or_new leads).resolve_left (by rw [old]; exact nofun)
        rw [Option.bind_some, opens.entry?_eq firm leads]
        exact firm.closed.entry?_eq_none (by rw [new]; exact nofun) _

/-- Where the directory for plain connections is a new one in the old active directory, it is
reached without the places of rule files too. -/
theorem restsOn_put {base : Tree} (rests : store.RestsOn tree base)
    (old : tree.directory? (store.directory .http) = some active)
    (leads : made.directory? (store.directory .stream) = some (active ++ ["stream"]))
    (new : tree.entry? (active ++ ["stream"]) = none) :
    store.RestsOn made (base.put (active ++ ["stream"]) .directory) := by
  have there := Tree.entry?_of_directory? leads
  have named : active ++ ["stream"] ≠ [] := by simp
  have grown : Tree.Keeps base (base.put (active ++ ["stream"]) .directory) := by
    refine Tree.keeps_put named _ fun e is => ?_
    by_contra passage
    cases new.symm.trans (rests.keeps.passage _ e is (by simpa using passage))
  have http := grown.directory? (rests.leads .http active old)
  refine ⟨⟨opens.grows.origin.trans rests.keeps.origin, fun location e is passage => ?_⟩,
    fun c directory leads' => ?_, fun c directory leads' id valid target is => ?_⟩
  · rw [base.entry?_put named] at is
    split at is
    next same => rw [same, there, is]
    next => exact opens.grows.keeps.passage _ e (rests.keeps.passage _ e is passage) passage
  · cases c with
    | http =>
      obtain ⟨rfl, _⟩ := opens.http directory leads'
      exact http
    | stream =>
      obtain rfl := Option.some.inj (leads.symm.trans leads')
      exact Tree.directory?_child http firm.given isPlainName_stream (by decide)
        (by rw [base.entry?_put named, if_pos rfl])
  · rw [base.entry?_put named, if_neg] at is
    · cases c with
      | http =>
        obtain ⟨rfl, _⟩ := opens.http directory leads'
        exact rests.noLink .http directory old id valid target is
      | stream =>
        obtain rfl := Option.some.inj (leads.symm.trans leads')
        have inside := rests.keeps.passage _ _ is rfl
        cases new.symm.trans (firm.closed.parent _ _ _ inside)
    · rw [List.append_singleton_inj]
      exact fun same => fileName_ne_stream id same.2

end Opens

/-- The tree stays firm when directories are made. -/
theorem Firm.of_opens {active : Location} (firm : store.Firm tree)
    (opens : store.Opens tree made active) : store.Firm made := by
  refine ⟨firm.given, opens.closed, fun directory leads leads' => ?_,
    firm.descends.keep opens.grows.keeps, ?_⟩
  · obtain ⟨rfl, _⟩ := opens.http directory leads
    rcases opens.stream directory leads' with old | ⟨same, _⟩
    · exact firm.apart directory (opens.active_eq firm old) old
    · simp at same
  · obtain ⟨base, rests⟩ := firm.steady
    by_cases old : tree.directory? (store.directory .http) = some active
    · by_cases new : made.directory? (store.directory .stream) = some (active ++ ["stream"]) ∧
          tree.entry? (active ++ ["stream"]) = none
      · exact ⟨_, opens.restsOn_put firm rests old new.1 new.2⟩
      · -- both directories are old ones
        have same (c : Context) (directory : Location)
            (leads : made.directory? (store.directory c) = some directory) :
            tree.directory? (store.directory c) = some directory := by
          cases c with
          | http =>
            obtain ⟨rfl, _⟩ := opens.http directory leads
            exact old
          | stream =>
            refine (opens.stream directory leads).resolve_right ?_
            rintro ⟨rfl, vacant⟩
            exact new ⟨leads, vacant⟩
        exact ⟨base, rests.keeps.trans opens.grows.keeps,
          fun c directory leads => rests.leads c directory (same c directory leads),
          fun c directory leads => rests.noLink c directory (same c directory leads)⟩
    · -- whatever is there is new and empty
      refine ⟨made, .refl made, fun _ _ leads => leads, fun c directory leads id _ target is => ?_⟩
      have new := (opens.old_or_new leads).resolve_left fun is => old (opens.active_eq firm is)
      rw [opens.entry?_eq firm leads,
        firm.closed.entry?_eq_none (by rw [new]; exact nofun)] at is
      cases is

section Making

variable (firm : store.Firm tree)
  (half : tree.Halfway (.createDirectories (store.directory context)) made)

include firm half

/-- Where both directories are there, nothing is made. -/
theorem Opens.of_directory? {active below : Location}
    (http : tree.directory? (store.directory .http) = some active)
    (stream : tree.directory? (store.directory .stream) = some below) :
    store.Opens tree made active := by
  obtain ⟨before, after, closed⟩ := half.of_createDirectories firm.closed
  have done : (tree.createDirectories (store.directory context)).2 = tree := by
    cases context with
    | http => exact (Tree.createDirectories_directory (firm.directory_ne .http) http).2
    | stream => exact (Tree.createDirectories_directory (firm.directory_ne .stream) stream).2
  rw [done] at after
  refine ⟨before, closed, fun location other => ?_, fun directory leads => ?_,
    fun directory leads => .inl (after.keeps.directory? leads)⟩
  · obtain ⟨nothing, there⟩ := (before.entries location).resolve_left other
    cases nothing.symm.trans (after.entry? there)
  · have leads := after.keeps.directory? leads
    exact ⟨Option.some.inj (leads.symm.trans http), .inl http⟩

/-- Where the walk to the directory for plain connections stops, directories are made on the line
from there. -/
theorem Opens.of_stop {start directory active : Location} {front rest : List String}
    {piece : String}
    (stop : tree.Stop start front directory piece rest)
    (origin : Tree.origin (store.directory .http) tree.workingDirectory = start)
    (names : (store.directory .http).names ++ ["stream"] = front ++ piece :: rest)
    (line : directory.follow (piece :: rest) = active ++ ["stream"])
    (http : tree.Extends (directory ++ [piece]) (directory.follow (piece :: rest)) made →
      ∀ directory, made.directory? (store.directory .http) = some directory →
        directory = active ∧ (tree.directory? (store.directory .http) = some active ∨
          tree.entry? active = none)) : store.Opens tree made active := by
  have begins : (store.directory context).names <+: front ++ piece :: rest ∧
      Tree.origin (store.directory context) tree.workingDirectory = start := by
    rw [← names, ← origin]
    cases context with
    | http => exact ⟨List.prefix_append _ _, rfl⟩
    | stream =>
      have above : (store.directory .stream).names = (store.directory .http).names ++ ["stream"] :=
        Path.names_child firm.given isPlainName_stream
      have absolute : (store.directory .stream).isAbsolute = (store.directory .http).isAbsolute :=
        Path.isAbsolute_child firm.given isPlainName_stream
      exact ⟨above ▸ List.prefix_rfl, by rw [Tree.origin, absolute, Tree.origin]⟩
  obtain ⟨before, after, closed⟩ := half.of_createDirectories firm.closed
  have grown :=
    (stop.extends_createDirectories firm.closed begins.1 begins.2).of_halfway before after
  refine ⟨before, closed, fun location other => ?_, http grown, fun below leads => .inr ?_⟩
  · rw [← line]
    exact (grown.along location other).2
  · obtain ⟨left, way⟩ := (Firm.directory?_stream_eq_some_iff firm.given made).1 leads
    rw [grown.grows.origin_eq, origin, names] at way
    obtain ⟨is, nothing⟩ := stop.follow_of_way firm.closed grown List.prefix_rfl way
    rw [← line]
    exact ⟨is, firm.closed.entry?_eq_none_below (nothing.resolve_left (List.cons_ne_nil _ _))
      (stop.prefix_follow List.prefix_rfl)⟩

/-- Making the directory of a context opens the way, also when it is only half done. -/
theorem Firm.exists_opens : ∃ active, store.Opens tree made active := by
  cases http : tree.directory? (store.directory .http) with
  | some active =>
    cases stream : tree.directory? (store.directory .stream) with
    | some below => exact ⟨active, .of_directory? firm half http stream⟩
    | none =>
      -- the walk stops at the active directory
      obtain ⟨left, way⟩ := Tree.directory?_eq_some_iff.1 http
      have stop : tree.Stop (Tree.origin (store.directory .http) tree.workingDirectory)
          (store.directory .http).names active "stream" [] := by
        refine ⟨⟨left, way⟩, by simp, fun left next further => ?_⟩
        have leads := (Firm.directory?_stream_eq_some_iff firm.given tree).2 ⟨left, further⟩
        cases stream.symm.trans leads
      refine ⟨active, .of_stop firm half stop rfl rfl (Location.follow_names _ (by simp))
        fun grown directory leads => ?_⟩
      exact ⟨Option.some.inj (leads.symm.trans (grown.grows.keeps.directory? http)), .inl http⟩
  | none =>
    -- the walk stops before the active directory, which is a new one when it is made
    obtain ⟨front, directory, piece, rest, names, stop⟩ := firm.descends.exists_stop http
    have longer := stop.concat (show "stream" ≠ ".." by decide)
    refine ⟨directory.follow (piece :: rest), .of_stop firm half longer rfl
      (by rw [names, List.append_assoc, List.cons_append])
      (Location.follow_concat directory (piece :: rest) isPlainName_stream)
      fun grown active leads => ?_⟩
    obtain ⟨left, way⟩ := Tree.directory?_eq_some_iff.1 leads
    rw [grown.grows.origin_eq, names] at way
    obtain ⟨is, nothing⟩ := longer.follow_of_way firm.closed grown ⟨["stream"], rfl⟩ way
    exact ⟨is, .inr (firm.closed.entry?_eq_none_below
      (nothing.resolve_left (List.cons_ne_nil _ _)) (stop.prefix_follow List.prefix_rfl))⟩

end Making

end Store

end ProxyKeeper
