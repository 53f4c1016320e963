import ProxyKeeper.Proofs.Controller.RuleMap
import ProxyKeeper.Proofs.Store.Calls
import ProxyKeeper.Proofs.Store.Operations

/-!
# The store as a map

Seen from outside, the store is a map from ids to files. The file of an id may be in one of two
directories, one of which is in the other, and other files are around them; none of that shows.
Where every id has one file at most, every sequence of calls is answered as a map would answer it,
and the places hold the files of that map at its end.

## Main Definitions

* `Told` — a call with what came of it, and `Told.Run` a sequence of them
* `Store.Serves`, `RuleMap.Tells` — one call of a store, and of a map
* `RuleMap.rack` — the places that hold the files of a map

## Main Results

* `Store.Bears.tells` — one call
* `Store.isMap` — every sequence of calls
-/

namespace ProxyKeeper

open Operation

/-! ## Sequences of calls -/

/-- A call with what came of it. -/
structure Told where
  call : StoreCall
  result : Except OperationError StoreAnswer
deriving DecidableEq

namespace Told

/-- Whether a call failed in the file system. -/
def Failed (told : Told) : Prop :=
  ∃ e, told.result = .error e ∧ e.IsIo

/-- A sequence of calls, one after another. -/
inductive Run {σ : Type} (step : Told → σ → σ → Prop) : List Told → σ → σ → Prop where
  | nil (s : σ) : Run step [] s s
  | cons {told : Told} {calls : List Told} {s s' t : σ} (first : step told s s')
    (rest : Run step calls s' t) : Run step (told :: calls) s t

/-- Where one call keeps two states in a relation, a sequence of calls does. -/
theorem Run.related {σ τ : Type} {step : Told → σ → σ → Prop} {spec : Told → τ → τ → Prop}
    {relation : σ → τ → Prop} {fine : Told → Prop}
    (one : ∀ told s s' m, fine told → relation s m → step told s s' →
      ∃ m', spec told m m' ∧ relation s' m')
    {calls : List Told} {s t : σ} {m : τ} (run : Run step calls s t) (related : relation s m)
    (all : ∀ told ∈ calls, fine told) : ∃ m', Run spec calls m m' ∧ relation t m' := by
  induction run generalizing m with
  | nil s => exact ⟨m, .nil m, related⟩
  | cons first _ ih =>
    obtain ⟨made, told, related⟩ := one _ _ _ _ (all _ List.mem_cons_self) related first
    obtain ⟨m', rest, related⟩ := ih related fun told is => all told (List.mem_cons_of_mem _ is)
    exact ⟨m', .cons told rest, related⟩

end Told

/-! ## Maps -/

namespace RuleMap

/-- What a call tells of a map, and makes of it. What is no id is refused. -/
inductive Tells : Told → RuleMap → RuleMap → Prop where
  | write {map : RuleMap} {id : String} (valid : isRuleId id = true) (file : RuleFile) :
    Tells ⟨.write id file, .ok .done⟩ map (map.set id (some file))
  | read {map : RuleMap} {id : String} (valid : isRuleId id = true) :
    Tells ⟨.read id, .ok (.file (map id))⟩ map map
  | restore {map : RuleMap} {id : String} (valid : isRuleId id = true)
    (snapshot : Option RuleFile) :
    Tells ⟨.restore id snapshot, .ok .done⟩ map (map.set id snapshot)
  | remove {map : RuleMap} {id : String} (valid : isRuleId id = true) :
    Tells ⟨.remove id, .ok (.removed (map id).isSome)⟩ map (map.set id none)
  | list {map : RuleMap} {ids : List String} (sorted : ids.Pairwise (· < ·))
    (all : ∀ id, id ∈ ids ↔ map id ≠ none) : Tells ⟨.list, .ok (.ids ids)⟩ map map
  | refused {map : RuleMap} {id : String} {call : StoreCall} (named : call.id? = some id)
    (invalid : isRuleId id = false) :
    Tells ⟨call, .error (.validation id "id" "not a valid file name component")⟩ map map

variable {map map' : RuleMap} {id : String}

/-- What is read is what the map has. -/
theorem Tells.eq_of_read {file : Option RuleFile}
    (tells : Tells ⟨.read id, .ok (.file file)⟩ map map') : file = map id := by
  -- the call is an index of `Tells`, so it has to be a variable
  generalize same : (⟨.read id, .ok (.file file)⟩ : Told) = told at tells
  cases tells with
  | read valid =>
    cases same
    rfl
  | refused => cases same
  | _ => cases same

/-- The places that hold the files of a map. -/
def rack (map : RuleMap) : Rack := fun id context => (map.shelf id context).map .file

theorem rack_apply (map : RuleMap) (id : String) (context : Context) :
    map.rack id context = (Shelf.row (map id) context).map .file :=
  rfl

theorem rack_eq_of_some {file : RuleFile} (is : map id = some file) (context : Context) :
    map.rack id context =
      if context = file.context then some (.file file.text.toUTF8) else none := by
  rw [rack_apply, is, Shelf.row]
  split <;> rfl

/-- The places of an id hold something when the map does. -/
theorem exists_rack_ne_none_iff : (∃ context, map.rack id context ≠ none) ↔ map id ≠ none := by
  cases is : map id with
  | none => simp [rack_apply, is, Shelf.row]
  | some file =>
    refine iff_of_true ⟨file.context, ?_⟩ (by simp)
    rw [rack_eq_of_some is, if_pos rfl]
    exact Option.some_ne_none _

theorem isSome_rack : ((map.rack id .http).isSome || (map.rack id .stream).isSome) =
    (map id).isSome := by
  cases is : map id with
  | none => simp [rack_apply, is, Shelf.row]
  | some file => obtain ⟨_ | _, text⟩ := file <;> simp [rack_eq_of_some is]

/-- Another file for an id comes to its place, and nothing is in the other one. -/
theorem rack_set_some (map : RuleMap) (id : String) (file : RuleFile) :
    (map.rack.put id file.context (some (.file file.text.toUTF8))).put id file.context.other none =
      (map.set id (some file)).rack := by
  funext i context
  by_cases same : i = id
  · subst same
    have is : map.set i (some file) i = some file := Function.update_self ..
    rw [rack_eq_of_some is, Rack.put_apply, Rack.put_apply]
    obtain ⟨own, text⟩ := file
    cases own <;> cases context <;> simp [Context.other]
  · rw [Rack.put_of_ne same, Rack.put_of_ne same, rack_apply, rack_apply, set_of_ne same]

theorem rack_set_none (map : RuleMap) (id : String) :
    (map.rack.put id .http none).put id .stream none = (map.set id none).rack := by
  funext i context
  by_cases same : i = id
  · subst same
    have is : map.set i none i = none := Function.update_self ..
    rw [rack_apply, is, Rack.put_apply, Rack.put_apply]
    cases context <;> simp [Shelf.row]
  · rw [Rack.put_of_ne same, Rack.put_of_ne same, rack_apply, rack_apply, set_of_ne same]

/-- Places with one text file for an id at most hold the files of a map. -/
theorem exists_rack_eq {rack : Rack} (single : ∀ id, rack id .http = none ∨ rack id .stream = none)
    (texts : ∀ id context entry, rack id context = some entry →
      ∃ text : String, entry = .file text.toUTF8) : ∃ map : RuleMap, rack = map.rack := by
  have own (id : String) : ∃ file : Option RuleFile, ∀ context,
      rack id context = (Shelf.row file context).map .file := by
    cases http : rack id .http with
    | some entry =>
      obtain ⟨text, rfl⟩ := texts id .http entry http
      have stream := (single id).resolve_left (by simp [http])
      refine ⟨some ⟨.http, text⟩, fun context => ?_⟩
      cases context
      exacts [http, stream]
    | none =>
      cases stream : rack id .stream with
      | some entry =>
        obtain ⟨text, rfl⟩ := texts id .stream entry stream
        refine ⟨some ⟨.stream, text⟩, fun context => ?_⟩
        cases context
        exacts [http, stream]
      | none =>
        refine ⟨none, fun context => ?_⟩
        cases context
        exacts [http, stream]
  choose map is using own
  exact ⟨map, funext fun id => funext fun context => is id context⟩

end RuleMap

namespace Store

variable {store : Store} {tree left : Tree} {map : RuleMap} {barred : Bool} {id : String}

/-! ## One call -/

/-- One call of a store, where every call of the file system is carried out. -/
def Serves (store : Store) (told : Told) (tree left : Tree) : Prop :=
  (told.call.program store).run.Ends Tree.exactly tree told.result left

namespace Bears

/-- The text that is read in a place is that of the file in it. -/
theorem eq_of_textOf {rack : Rack} (bears : store.Bears rack barred tree)
    (valid : isRuleId id = true) {context : Context} {own text : Option String}
    (held : rack id context = own.map fun text => .file text.toUTF8)
    (read : textOf (store.place id context) (tree.read (store.place id context)) = .ok text) :
    text = own := by
  rw [bears.sound.read_eq valid, bears.held_eq, held] at read
  cases check : Tree.checkPath (store.place id context) with
  | error fault =>
    have other : fault ≠ .notFound := Tree.checkPath_ne_notFound
      (Tree.child_text_ne (store.directory_ne_of_activeDir bears.sound.given context)
        (isPlainName_fileName valid)) check
    rw [check, Except.bind, textOf, if_neg other] at read
    cases read
  | ok _ =>
    rw [check, Except.bind] at read
    cases own with
    | some own =>
      rw [Option.map_some, contentOf, textOf, Text.Utf8.strict?_toUTF8] at read
      exact (Except.ok.inj read).symm
    | none =>
      rw [Option.map_none, contentOf] at read
      cases shut : store.shut tree context with
      | true =>
        rw [shut, if_pos rfl, textOf, if_neg (by decide)] at read
        cases read
      | false =>
        rw [shut, if_neg Bool.false_ne_true, textOf, if_pos rfl] at read
        exact (Except.ok.inj read).symm

/-- What is read for an id is its file in the map. -/
theorem eq_of_readIn (bears : store.Bears map.rack barred tree) (valid : isRuleId id = true)
    {file : Option RuleFile} (read : store.readIn tree id = .ok file) : file = map id := by
  have held (context : Context) : map.rack id context =
      ((map id).bind fun file => if context = file.context then some file.text else none).map
        fun text => .file text.toUTF8 := by
    rw [RuleMap.rack_apply]
    cases map id with
    | none => rfl
    | some file =>
      rw [Shelf.row, Option.bind_some]
      split <;> rfl
  rw [readIn_eq valid] at read
  cases first : textOf (store.place id .http) (tree.read (store.place id .http)) with
  | error e => rw [first] at read; cases read
  | ok http =>
    have inHttp := bears.eq_of_textOf valid (held .http) first
    rw [first] at read
    cases http with
    | some text =>
      obtain rfl := Except.ok.inj read
      obtain ⟨own, is, here⟩ := Option.bind_eq_some_iff.1 inHttp.symm
      split at here
      next same => rw [is, same, ← Option.some.inj here]
      next => cases here
    | none =>
      cases second : textOf (store.place id .stream) (tree.read (store.place id .stream)) with
      | error e => rw [second] at read; cases read
      | ok stream =>
        have inStream := bears.eq_of_textOf valid (held .stream) second
        rw [second] at read
        obtain rfl := Except.ok.inj read
        cases is : map id with
        | none => rw [inStream, is]; rfl
        | some own =>
          rw [is] at inHttp inStream
          obtain ⟨_ | _, text⟩ := own
          · cases inHttp
          · rw [inStream]
            rfl

/-- Every call of a store that holds the files of a map is answered as the map tells, unless it
fails in the file system. -/
theorem meets_program (bears : store.Bears map.rack barred tree) (call : StoreCall) :
    (call.program store).Meets Tree.exactly
      (fun answer left => ∃ map', RuleMap.Tells ⟨call, .ok answer⟩ map map' ∧
        store.Bears map'.rack barred left)
      (fun e left => e.IsIo ∨ ∃ map', RuleMap.Tells ⟨call, .error e⟩ map map' ∧
        store.Bears map'.rack barred left) tree := by
  have refused {id : String} (named : call.id? = some id) (invalid : isRuleId id = false) :
      (call.program store).Meets Tree.exactly
        (fun answer left => ∃ map', RuleMap.Tells ⟨call, .ok answer⟩ map map' ∧
          store.Bears map'.rack barred left)
        (fun e left => e.IsIo ∨ ∃ map', RuleMap.Tells ⟨call, .error e⟩ map map' ∧
          store.Bears map'.rack barred left) tree := by
    rw [StoreCall.program_of_not_isRuleId store named invalid]
    exact meets_throw.2 (.inr ⟨map, .refused named invalid, bears⟩)
  have writes {id : String} (valid : isRuleId id = true) (file : RuleFile) :
      (store.write id file).Meets Tree.exactly
        (fun _ left => store.Bears (map.set id (some file)).rack barred left)
        (fun e _ => e.IsIo) tree :=
    (bears.meets_write valid file).mono
      (fun _ _ written => RuleMap.rack_set_some map id file ▸ written.2) fun _ _ io => io
  have removes {id : String} (valid : isRuleId id = true) :
      (store.remove id).Meets Tree.exactly
        (fun found left => found = (map id).isSome ∧ store.Bears (map.set id none).rack barred left)
        (fun e _ => e.IsIo) tree :=
    (bears.meets_remove valid).mono (fun _ _ removed =>
      ⟨removed.1.trans RuleMap.isSome_rack, RuleMap.rack_set_none map id ▸ removed.2⟩) fun _ _ io => io
  cases call with
  | write id file =>
    cases valid : isRuleId id with
    | false => exact refused rfl valid
    | true =>
      refine meets_bind.2 ((writes valid file).mono ?_ fun _ _ => .inl)
      intro _ left bears
      exact ⟨_, .write valid file, bears⟩
  | read id =>
    cases valid : isRuleId id with
    | false => exact refused rfl valid
    | true =>
      refine meets_bind.2 ((Program.meets_of_looks (store.asks_read id)).mono ?_)
      rintro found left ⟨is, rfl⟩
      have is : found = store.readIn left id := is
      cases found with
      | ok file =>
        obtain rfl := bears.eq_of_readIn valid is.symm
        exact ⟨map, .read valid, bears⟩
      | error e => exact .inl (isIo_of_readIn valid is.symm)
  | restore id snapshot =>
    cases valid : isRuleId id with
    | false => exact refused rfl valid
    | true =>
      cases snapshot with
      | some file =>
        refine meets_bind.2 ((writes valid file).mono ?_ fun _ _ => .inl)
        intro _ left bears
        exact ⟨_, .restore valid (some file), bears⟩
      | none =>
        refine meets_bind.2 (meets_bind.2 ((removes valid).mono ?_ fun _ _ => .inl))
        rintro _ left ⟨_, bears⟩
        exact ⟨_, .restore valid none, bears⟩
  | remove id =>
    cases valid : isRuleId id with
    | false => exact refused rfl valid
    | true =>
      refine meets_bind.2 ((removes valid).mono ?_ fun _ _ => .inl)
      rintro _ left ⟨rfl, bears⟩
      exact ⟨_, .remove valid, bears⟩
  | list =>
    refine meets_bind.2 ((Program.meets_of_looks store.asks_list).mono ?_)
    rintro listed left ⟨is, rfl⟩
    have is : listed = store.listIn left := is
    cases listed with
    | ok ids =>
      refine ⟨map, .list (pairwise_listIn is.symm) fun id => ?_, bears⟩
      rw [bears.mem_listIn_iff is.symm, RuleMap.exists_rack_ne_none_iff]
    | error e => exact .inl (isIo_of_listIn is.symm)

/-- So a call that does not fail in the file system is told by the map. -/
theorem tells (bears : store.Bears map.rack barred tree) {told : Told} (fine : ¬ told.Failed)
    (serves : store.Serves told tree left) :
    ∃ map', RuleMap.Tells told map map' ∧ store.Bears map'.rack barred left := by
  obtain ⟨call, result⟩ := told
  have promised := Program.Meets.of_ends (bears.meets_program call) serves
  cases result with
  | ok answer => exact promised
  | error e => exact promised.resolve_left fun io => fine ⟨e, rfl, io⟩

end Bears

/-! ## Every sequence of calls -/

/-- Carries out some calls, one after another. -/
def serveAll (store : Store) : List StoreCall → Tree → List Told × Tree
  | [], tree => ([], tree)
  | call :: calls, tree =>
    let (result, _, world) := (call.program store).run.run History.act ([], { tree })
    let (told, left) := store.serveAll calls world.tree
    (⟨call, result⟩ :: told, left)

theorem run_serveAll (store : Store) (calls : List StoreCall) (tree : Tree) :
    Told.Run store.Serves (store.serveAll calls tree).1 tree (store.serveAll calls tree).2 := by
  induction calls generalizing tree with
  | nil => exact .nil tree
  | cons call calls ih =>
    refine .cons ?_ (ih _)
    exact (@History.ends_act _ .never (call.program store).run ([], { tree })).tree

/-- The store is a finite map. Where no id has more than one file in its places, and that is a text,
the files are those of a map, and every sequence of calls without a failure of the file system is
answered as the map tells: what is read is what was written or put back last, what is removed is
told to have been there or not, and what is listed are the ids with a file, in strictly ascending
order. The places hold the files of the map at the end, so again one for an id at most. -/
theorem isMap (store : Store) {tree : Tree} (sound : store.Sound tree)
    (single : ∀ id, store.held tree id .http = none ∨ store.held tree id .stream = none)
    (texts : ∀ id context entry, store.held tree id context = some entry →
      ∃ text : String, entry = .file text.toUTF8) :
    ∃ map : RuleMap, store.held tree = map.rack ∧
      (∃ ids : List String, ∀ id, map id ≠ none → id ∈ ids) ∧
      ∀ calls left, Told.Run store.Serves calls tree left → (∀ told ∈ calls, ¬ told.Failed) →
        ∃ map', Told.Run RuleMap.Tells calls map map' ∧ store.held left = map'.rack := by
  obtain ⟨map, held⟩ := RuleMap.exists_rack_eq single texts
  have bears : store.Bears map.rack (store.barred tree) tree := ⟨sound, held, rfl⟩
  refine ⟨map, held, ?_, fun calls left run fine => ?_⟩
  · obtain ⟨http, inHttp, _⟩ := sound.idsOf_eq .http
    obtain ⟨stream, inStream, _⟩ := sound.idsOf_eq .stream
    refine ⟨http ++ stream, fun id there => ?_⟩
    obtain ⟨_ | _, there⟩ := RuleMap.exists_rack_ne_none_iff.2 there
    · exact List.mem_append_left _ ((inHttp id).2 (held ▸ there))
    · exact List.mem_append_right _ ((inStream id).2 (held ▸ there))
  · have one (told : Told) (made made' : Tree) (m : RuleMap) (fine : ¬ told.Failed)
        (bears : store.Bears m.rack (store.barred tree) made)
        (serves : store.Serves told made made') :
        ∃ m', RuleMap.Tells told m m' ∧ store.Bears m'.rack (store.barred tree) made' :=
      bears.tells fine serves
    obtain ⟨map', tells, bears⟩ := Told.Run.related one run bears fine
    exact ⟨map', tells, bears.held_eq⟩

/-- Among files that are none of rules, a rule changes sides, is put back and removed. -/
theorem isMap_moved :
    let store : Store := ⟨{ activeDir := ⟨"/a"⟩ }⟩
    let tree : Tree :=
      { entries := [(["a"], .directory), (["a", "web.conf"], .file "old".toUTF8),
        (["a", "my site.conf"], .file "x".toUTF8), (["a", "web.txt"], .file "x".toUTF8)] }
    let old : RuleFile := ⟨.http, "old"⟩
    let calls : List Told :=
      [⟨.list, .ok (.ids ["web"])⟩, ⟨.read "web", .ok (.file (some old))⟩,
        ⟨.write "web" ⟨.stream, "new"⟩, .ok .done⟩,
        ⟨.read "web", .ok (.file (some ⟨.stream, "new"⟩))⟩,
        ⟨.restore "web" (some old), .ok .done⟩, ⟨.read "web", .ok (.file (some old))⟩,
        ⟨.remove "web", .ok (.removed true)⟩, ⟨.remove "web", .ok (.removed false)⟩,
        ⟨.list, .ok (.ids [])⟩]
    store.Sound tree ∧ ∃ map left map', store.held tree = RuleMap.rack map ∧
      Told.Run store.Serves calls tree left ∧ Told.Run RuleMap.Tells calls map map' ∧
      store.held left = RuleMap.rack map' := by
  intro store tree old calls
  have sound : store.Sound tree := by
    refine .inl ⟨.of_entries (by decide) ?_ ?_ ⟨["a"], ?_⟩ (by decide), ?_⟩
    · decide
    · simp [tree]
    · decide
    · intro directory target _ there
      exact absurd there (Tree.ne_link_of_entries (by simp [tree]) directory "stream" target)
  have nowhere : tree.directory? (store.directory .stream) = none := by decide
  have texts (id : String) (context : Context) (entry : Entry)
      (held : store.held tree id context = some entry) :
      ∃ text : String, entry = .file text.toUTF8 := by
    cases context with
    | stream => rw [held_of_missing nowhere] at held; cases held
    | http =>
      have leads : tree.directory? (store.directory .http) = some ["a"] := by decide
      cases valid : isRuleId id with
      | false => rw [held_of_not_isRuleId store tree valid] at held; cases held
      | true =>
        rw [held_of_isRuleId store tree valid, leads, Option.bind_some] at held
        have listed : (["a"] ++ [fileName id], entry) ∈ tree.entries := Tree.mem_entries held
        simp only [tree, List.mem_cons, Prod.mk.injEq, List.singleton_append, List.cons.injEq,
          reduceCtorEq, and_false, false_and, List.not_mem_nil, or_false, false_or] at listed
        obtain ⟨_, rfl⟩ | ⟨_, rfl⟩ | ⟨_, rfl⟩ := listed <;> exact ⟨_, rfl⟩
  obtain ⟨map, held, _, always⟩ :=
    isMap store sound (fun id => .inr (held_of_missing nowhere id)) texts
  have run := store.run_serveAll (calls.map (·.call)) tree
  have answered : (store.serveAll (calls.map (·.call)) tree).1 = calls := by decide +kernel
  rw [answered] at run
  obtain ⟨map', tells, held'⟩ := always _ _ run (by simp [calls, Told.Failed])
  exact ⟨sound, map, _, map', held, run, tells, held'⟩

/-- Where the directory for plain connections is the active directory itself, by way of a link, what
was written is not read. -/
theorem not_isMap_link :
    let store : Store := ⟨{ activeDir := ⟨"/a"⟩ }⟩
    let tree : Tree := { entries := [(["a"], .directory), (["a", "stream"], .link ⟨"."⟩)] }
    let calls : List Told :=
      [⟨.write "web" ⟨.http, "x"⟩, .ok .done⟩, ⟨.read "web", .ok (.file none)⟩]
    (∀ location content, tree.entry? location ≠ some (.file content)) ∧
      (∃ left, Told.Run store.Serves calls tree left) ∧ (∀ told ∈ calls, ¬ told.Failed) ∧
      ∀ map map', ¬ Told.Run RuleMap.Tells calls map map' := by
  intro store tree calls
  refine ⟨fun location content there => ?_, ?_, by simp [calls, Told.Failed], fun map map' run => ?_⟩
  · obtain rfl | ⟨directory, name, rfl⟩ := List.eq_nil_or_concat location
    · cases there
    · rw [List.concat_eq_append] at there
      have listed := Tree.mem_entries there
      simp [tree] at listed
  · have run := store.run_serveAll (calls.map (·.call)) tree
    have answered : (store.serveAll (calls.map (·.call)) tree).1 = calls := by decide +kernel
    rw [answered] at run
    exact ⟨_, run⟩
  · simp only [calls] at run
    cases run with
    | cons first rest =>
      cases first
      cases rest with
      | cons second _ =>
        have read := second.eq_of_read
        rw [RuleMap.set, Function.update_self] at read
        cases read

end Store

end ProxyKeeper
