import Mathlib.Tactic.Common
import ProxyKeeper.Proofs.Nginx.Directives
import ProxyKeeper.Proofs.Text.Splitting
import ProxyKeeper.Rule.Rendering

/-!
# Settings and zones in directives

Some arguments of a directive are settings with names of their own, and the settings of a zone hold
its name in front of its size. The zones of shared memory have one name space, whatever they are
declared for: the keys of a cache, the rates of clients, or the state of a group of servers.

## Main Definitions

* `settingsOf` — the values of the settings of a name
* `zoneName` — the name of a zone, in front of its size
* `declaredZones` — the zones of shared memory that nodes declare

## Main Results

* `settingsOf_setting`, `settingsOf_of_none` — settings one by one
* `zoneName_append` — the name in front of a colon
* `declaredZones_append` — documents in parts
-/

namespace ProxyKeeper.Nginx

/-- The values of the settings of a name among the arguments of a directive. -/
def settingsOf (name : String) (args : List String) : List String :=
  args.filterMap fun arg =>
    (Text.stripLead? (name ++ "=").toList arg.toList).map String.ofList

/-- The name of a zone, in front of its size. -/
def zoneName (value : String) : String :=
  String.ofList (value.toList.takeWhile (· ≠ ':'))

/-- The names of the zones of shared memory that nodes declare. The path of a cache and the key of
a limit come in front of the settings. -/
def declaredZones (nodes : List Node) : List String :=
  (directives "proxy_cache_path" nodes).flatMap (fun args =>
    (settingsOf "keys_zone" args.tail).map zoneName) ++
  (directives "limit_req_zone" nodes).flatMap (fun args =>
    (settingsOf "zone" args.tail).map zoneName) ++
  (directives "zone" nodes).flatMap fun args => args.head?.toList

/-! ## Settings -/

theorem toList_setting (name value : String) :
    (setting name value).toList = (name ++ "=").toList ++ value.toList :=
  String.toList_append

theorem settingsOf_setting (name value : String) (args : List String) :
    settingsOf name (setting name value :: args) = value :: settingsOf name args := by
  have found : Text.stripLead? (name ++ "=").toList (setting name value).toList =
      some value.toList := by
    rw [toList_setting, Text.stripLead?_append]
  rw [settingsOf, List.filterMap_cons, found]
  simp only [Option.map_some, String.ofList_toList, settingsOf]

theorem settingsOf_of_none {name arg : String}
    (other : Text.stripLead? (name ++ "=").toList arg.toList = none) (args : List String) :
    settingsOf name (arg :: args) = settingsOf name args := by
  rw [settingsOf, List.filterMap_cons, other]
  rfl

/-- A setting of another name, which is no shorter. -/
theorem settingsOf_setting_other {name other : String}
    (apart : Text.stripLead? (name ++ "=").toList (other ++ "=").toList = none)
    (long : (name ++ "=").toList.length ≤ (other ++ "=").toList.length) (value : String)
    (args : List String) :
    settingsOf name (setting other value :: args) = settingsOf name args := by
  refine settingsOf_of_none ?_ args
  rw [toList_setting]
  exact Text.stripLead?_append_of_none apart long _

/-! ## Zones -/

theorem zoneName_append {name size : String} (colon : ':' ∉ name.toList)
    (begins : size.toList.head? = some ':') : zoneName (name ++ size) = name := by
  obtain ⟨cs, chars⟩ := List.head?_eq_some_iff.1 begins
  have inName : ∀ c ∈ name.toList, decide (c ≠ ':') = true := by
    intro c listed
    rw [decide_eq_true_eq]
    rintro rfl
    exact colon listed
  rw [zoneName, String.toList_append, chars, List.takeWhile_append_of_pos inName,
    List.takeWhile_cons_of_neg (by decide), List.append_nil, String.ofList_toList]

/-- Documents in parts declare the zones of all their parts. -/
theorem declaredZones_append (front back : List Node) :
    (declaredZones (front ++ back)).Perm (declaredZones front ++ declaredZones back) := by
  refine List.perm_iff_count.2 fun zone => ?_
  simp only [declaredZones, directives_append, List.flatMap_append, List.count_append]
  omega

end ProxyKeeper.Nginx
