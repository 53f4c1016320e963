import ProxyKeeper.Proofs.Controller.Restored

/-!
# Rules that are passed over

A synchronization reads the file of each rule and passes the rule over when the file is right
already. The reading stops at the first file of an id, while writing a file also removes the other
one, so a second file of the same id stays where it is behind a first one that is right. Whatever
else was there, the files of a synchronization that succeeds are those of the enabled rules.

## Main Definitions

* `Shelf.Hides` — the file of a rule is right, and hides another one of its id

## Main Results

* `Controller.holds_sync_iff` — the files after a synchronization that succeeds
* `Controller.not_isExactly_sync` — a second file that stays
-/

namespace ProxyKeeper

/-- Whether an id has the file that its rule calls for, and a file for plain connections behind
it. -/
def Shelf.Hides (shelf : Shelf) (options : RenderOptions) (rule : Rule) : Prop :=
  ∃ text, rule.compile options = .ok text ∧ rule.context = .http ∧
    shelf rule.id .http = some text.toUTF8 ∧ shelf rule.id .stream ≠ none

/-- An id that was brought in step with the file of its rule has this file and no other, unless the
file was there and hid another one. -/
theorem Shelf.inStepWith_eq_row_iff {shelf : Shelf} {options : RenderOptions} {rule : Rule}
    {file : RuleFile} (own : rule.file options = .ok file) :
    Shelf.inStepWith (shelf rule.id) file = Shelf.row (some file) ↔ ¬ shelf.Hides options rule := by
  have compiled := Rule.compile_of_file own
  have context := Rule.context_of_file own
  refine ⟨?_, ?_⟩
  · rintro right ⟨text, same, http, found, hidden⟩
    obtain rfl : text = file.text := Except.ok.inj (same.symm.trans compiled)
    rw [http] at context
    have first : Shelf.row (some file) .http = some file.text.toUTF8 := by
      rw [Shelf.row, if_pos context.symm]
    have shows : Shelf.Shows (shelf rule.id) (some file) :=
      ⟨found.trans first.symm, fun vacant => absurd (found.symm.trans vacant) (by simp)⟩
    -- the id was left alone, with both of its files
    rw [Shelf.inStepWith, if_pos shows] at right
    rw [right, Shelf.row, context] at hidden
    exact hidden rfl
  · intro nothing
    rw [Shelf.inStepWith]
    split
    next shows =>
      refine shows.eq_row ?_
      by_contra both
      obtain ⟨first, second⟩ := not_or.1 both
      obtain ⟨content, found⟩ := Option.ne_none_iff_exists'.1 first
      obtain ⟨_, same, http, rfl⟩ := Shelf.exists_of_row (shows.http.symm.trans found)
      cases same
      exact nothing ⟨_, compiled, context.symm.trans http, found, second⟩
    next => rfl

namespace Controller

open Site

/-- Whatever files are in the active directory, as long as no link stands in the place of a rule
file or of the other directory, and whatever nginx replies: after a synchronization that succeeds,
the id of an enabled rule has the file of the rule and no other, unless it had that file before and
another one behind it; and no other id has a file. -/
theorem holds_sync_iff (controller : Controller) {site : Site}
    (tidy : controller.store.Tidy site.tree) {rules : List Rule} {report : SyncReport} {after : Site}
    (ends : (controller.sync rules).run.Ends (terms true) site (.ok report) after) :
    (∀ rule ∈ rules, rule.enabled = true →
      ∃ file, rule.file controller.options = .ok file ∧
        (controller.store.shelf after.tree rule.id = Shelf.row (some file) ↔
          ¬ (controller.store.shelf site.tree).Hides controller.options rule)) ∧
    ∀ id, (∀ rule ∈ rules, rule.enabled = true → rule.id ≠ id) →
      controller.store.shelf after.tree id = Shelf.row none := by
  have here : controller.store.At site.live (controller.store.shelf site.tree) site :=
    ⟨rfl, tidy, rfl⟩
  have promised := Program.Meets.of_ends (undoes_sync here rules) ends
  obtain ⟨_, shelf, syncs, there⟩ := promised
  have same : controller.store.shelf after.tree = shelf := by
    rcases there with there | ⟨asBefore, there⟩
    · exact there.shelf_eq
    · exact there.shelf_eq.trans asBefore.symm
  rw [same]
  refine ⟨fun rule listed enabled => ?_, fun id absent => ?_⟩
  · obtain ⟨file, own, held⟩ := syncs.holds rule (List.mem_filter.2 ⟨listed, enabled⟩)
    refine ⟨file, own, ?_⟩
    rw [held]
    exact Shelf.inStepWith_eq_row_iff own
  · refine syncs.nothingElse id fun rule listed => ?_
    obtain ⟨listed, enabled⟩ := List.mem_filter.1 listed
    exact absent rule listed enabled

/-- Two files of an id give way to the one that its rule calls for, and the file of an id without a
rule goes. -/
theorem holds_sync_iff_replaced :
    let controller : Controller := ⟨{ activeDir := ⟨"/a"⟩ }⟩
    let rule : Rule :=
      { id := "web", targetContainer := "web", targetPort := 80, created := .epoch }
    let tree : Tree :=
      { entries := [(["a"], .directory), (["a", "web.conf"], .file "old".toUTF8),
        (["a", "stream"], .directory), (["a", "stream", "web.conf"], .file "other".toUTF8),
        (["a", "api.conf"], .file "old".toUTF8)] }
    ∃ report after,
      (controller.sync [rule]).run.Ends (terms true) ⟨tree, ⟨tree, 0⟩⟩ (.ok report) after ∧
        (∃ file, rule.file controller.options = .ok file ∧
          controller.store.shelf after.tree "web" = Shelf.row (some file)) ∧
        controller.store.shelf after.tree "api" = Shelf.row none := by
  intro controller rule tree
  have plain : ∀ held ∈ tree.entries, ∀ target, held.2 ≠ .link target := by simp [tree]
  have leads : tree.directory? (controller.store.directory .http) = some ["a"] := by decide
  have tidy : controller.store.Tidy tree :=
    Store.Tidy.of_plain (by decide) (Tree.isClosed_of_entries (by decide)) leads
      (Tree.ne_link_of_entries plain _) (Tree.ne_link_of_entries plain _)
  have synced : ((controller.sync [rule]).run.follow? carry?
      ([.finished { success := true }, .finished { success := true }], ⟨tree, ⟨tree, 0⟩⟩)).map
        Prod.fst = some (.ok { written := ["web"], removed := ["api"], reloaded := true }) := by
    decide +kernel
  obtain ⟨⟨result, left, after⟩, followed, rfl⟩ := Option.map_eq_some_iff.1 synced
  have ends := ends_carry? followed
  refine ⟨_, after, ends, ?_⟩
  obtain ⟨held, others⟩ := @holds_sync_iff controller ⟨tree, ⟨tree, 0⟩⟩ tidy [rule] _ after ends
  refine ⟨?_, others "api" (by simp [rule])⟩
  obtain ⟨file, own, right⟩ := held rule (List.mem_singleton_self rule) rfl
  refine ⟨file, own, right.2 ?_⟩
  -- the first file of the id was an old one
  rintro ⟨text, compiled, _, found, _⟩
  have old : controller.store.shelf tree "web" .http = some "old".toUTF8 := by decide
  obtain rfl : text = "old" := String.toByteArray_inj.1 (Option.some.inj (found.symm.trans old))
  exact absurd compiled (by decide +kernel)

/-- A second file that stays. Where the file of an http rule is right and a file for plain
connections of the same id is behind it, a synchronization with the rule succeeds, and both files
are there. -/
theorem not_isExactly_sync :
    let controller : Controller := ⟨{ activeDir := ⟨"/a"⟩ }⟩
    let rule : Rule :=
      { id := "web", targetContainer := "web", targetPort := 80, created := .epoch }
    let text := "# (web)\n\nserver \x7b\n    listen 80;\n    server_name _;\n    location / \x7b\n" ++
      "        proxy_pass http://web:80;\n    \x7d\n\x7d\n"
    let tree : Tree :=
      { entries := [(["a"], .directory), (["a", "web.conf"], .file text.toUTF8),
        (["a", "stream"], .directory), (["a", "stream", "web.conf"], .file "other".toUTF8)] }
    rule.validate = .ok () ∧ rule.compile controller.options = .ok text ∧
      ∃ report after,
        (controller.sync [rule]).run.Ends (terms true) ⟨tree, ⟨tree, 0⟩⟩ (.ok report) after ∧
          controller.store.shelf after.tree "web" .stream = some "other".toUTF8 ∧
          ¬ (controller.store.shelf after.tree).IsExactly controller.options
            ([rule].filter (·.enabled)) := by
  intro controller rule text tree
  refine ⟨by decide +kernel, by decide +kernel, ?_⟩
  have synced : ((controller.sync [rule]).run.follow? carry? ([], ⟨tree, ⟨tree, 0⟩⟩)).map
      (fun ended => (ended.1, controller.store.shelf ended.2.2.tree "web" .stream)) =
        some (.ok { unchanged := ["web"] }, some "other".toUTF8) := by decide +kernel
  obtain ⟨⟨result, left, after⟩, followed, told⟩ := Option.map_eq_some_iff.1 synced
  obtain ⟨rfl, stays⟩ := Prod.mk.inj told
  refine ⟨_, after, ends_carry? followed, stays, fun exactly => ?_⟩
  obtain ⟨file, own, held⟩ := exactly.holds rule (List.mem_singleton_self rule)
  have context : file.context = .http := Rule.context_of_file own
  -- the rule calls for no file for plain connections
  rw [show rule.id = "web" from rfl] at held
  rw [held, Shelf.row, context] at stays
  cases stays

end Controller

end ProxyKeeper
