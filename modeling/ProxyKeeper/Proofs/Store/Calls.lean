import ProxyKeeper.Proofs.Store.Requests

/-!
# What a store is asked

The calls of a store as data, each with the program that answers it. A call about what is no id is
refused at once: its program asks for nothing.

## Main Definitions

* `StoreCall`, `StoreAnswer` — what is asked of a store, and what it answers

## Main Results

* `StoreCall.program_of_not_isRuleId` — calls that are refused
-/

namespace ProxyKeeper

/-- What is asked of a store. -/
inductive StoreCall where
  | write (id : String) (file : RuleFile)
  /-- Reads the file of an id, which may be kept as a snapshot. -/
  | read (id : String)
  /-- Puts back a snapshot, under any id. -/
  | restore (id : String) (snapshot : Option RuleFile)
  | remove (id : String)
  | list
deriving DecidableEq

/-- What a store answers. -/
inductive StoreAnswer where
  | done
  | file (file : Option RuleFile)
  | removed (found : Bool)
  | ids (ids : List String)
deriving DecidableEq

namespace StoreCall

/-- What a store does when it is asked. -/
def program (store : Store) : StoreCall → Operation StoreAnswer
  | write id file => do
    store.write id file
    return .done
  | read id => do return .file (← store.read id)
  | restore id snapshot => do
    store.restore id snapshot
    return .done
  | remove id => do return .removed (← store.remove id)
  | list => do return .ids (← store.list)

/-- The id that a call is about. -/
def id? : StoreCall → Option String
  | write id _ => some id
  | read id => some id
  | restore id _ => some id
  | remove id => some id
  | list => none

/-- A call about what is no id is refused before anything is asked for. -/
theorem program_of_not_isRuleId (store : Store) {call : StoreCall} {id : String}
    (named : call.id? = some id) (invalid : isRuleId id = false) :
    call.program store = throw (.validation id "id" "not a valid file name component") := by
  have refused (context : Context) : store.path id context =
      .error (.validation id "id" "not a valid file name component") := by
    rw [Store.path, invalid, if_neg Bool.false_ne_true]
  cases call with
  | write i file =>
    obtain rfl := Option.some.inj named
    rw [program, Store.write, refused]
    rfl
  | read i =>
    obtain rfl := Option.some.inj named
    rw [program, Store.read, Store.readFrom, refused]
    rfl
  | restore i snapshot =>
    obtain rfl := Option.some.inj named
    cases snapshot with
    | some file =>
      rw [program, Store.restore, Store.write, refused]
      rfl
    | none =>
      rw [program, Store.restore, Store.remove, refused]
      rfl
  | remove i =>
    obtain rfl := Option.some.inj named
    rw [program, Store.remove, refused]
    rfl
  | list => cases named

end StoreCall

end ProxyKeeper
