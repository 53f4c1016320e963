import ProxyKeeper.Proofs.AllBut
import ProxyKeeper.Proofs.Nginx.Zones
import ProxyKeeper.Proofs.Rule.Words
import ProxyKeeper.Proofs.Text.Numerals

/-!
# Numbers in directives

The places of a document where nginx reads a number: ports of addresses, status codes, and counts of
seconds, requests, servers and buffers. nginx takes no nought in any of them, and of ports and codes
only those that there are. What it reads is a word, or the end of one, so a number is accepted when
the word is a numeral with the unit of the place behind it.

## Main Definitions

* `Numeral`, `Numeral.isAccepted` — a word that is read as a number, and whether nginx takes it
* `numerals` — the numerals of a document, at every depth
* `Takes` — nodes with acceptable numerals but for given ones

## Main Results

* `Numeral.isAccepted_append`, `Numeral.isAccepted_number` — the numerals of acceptable numbers
* `portOf?_address`, `settingsOf_cons` — where they stand in a word and among settings
* `Takes.append` and its like — documents in parts
-/

namespace ProxyKeeper.Nginx

/-! ## Numerals -/

/-- What a number is a measure of. -/
inductive Measure where
  | port
  | statusCode
  | count
deriving DecidableEq

/-- Whether nginx takes a number. -/
def Measure.admits : Measure → Nat → Bool
  | .port, n => 1 ≤ n && n ≤ 65535
  | .statusCode, n => 100 ≤ n && n ≤ 599
  | .count, n => 1 ≤ n

/-- A word that nginx reads as a number in the place of a directive or a setting, with the unit that
must stand behind the digits. -/
structure Numeral where
  place : String
  measure : Measure
  unit : String
  word : String
deriving DecidableEq

namespace Numeral

/-- The number that digits in front of the unit stand for. -/
def value? (numeral : Numeral) : Option Nat :=
  (Text.stripLead? numeral.unit.toList.reverse numeral.word.toList.reverse).bind
    fun digits => Text.ofDigits? digits.reverse

/-- Whether a numeral is a number that nginx takes. -/
def isAccepted (numeral : Numeral) : Bool :=
  numeral.value?.any numeral.measure.admits

variable {place unit : String} {measure : Measure}

theorem value?_append (n : Nat) : value? ⟨place, measure, unit, toString n ++ unit⟩ = some n := by
  simp only [value?, String.toList_append, List.reverse_append, Text.stripLead?_append,
    Option.bind_some, List.reverse_reverse, Nat.toString_eq_ofList_toDigits, String.toList_ofList,
    Text.ofDigits?_toDigits]

/-- A number with the unit of its place is accepted when it is one that nginx takes. -/
theorem isAccepted_append {n : Nat} (taken : measure.admits n = true) :
    isAccepted ⟨place, measure, unit, toString n ++ unit⟩ = true := by
  rw [isAccepted, value?_append]
  exact taken

theorem isAccepted_number {n : Nat} (taken : measure.admits n = true) :
    isAccepted ⟨place, measure, "", toString n⟩ = true := by
  have bare : toString n ++ "" = toString n := String.append_empty
  rw [← bare]
  exact isAccepted_append taken

end Numeral

/-! ## Ports of addresses -/

/-- The port of an address, behind its last colon. -/
def portOf? (address : String) : Option String :=
  if address.toList.contains ':' then
    some (String.ofList (address.toList.reverse.takeWhile (· ≠ ':')).reverse)
  else none

/-- An address without the scheme of its protocol. -/
def withoutScheme (address : String) : String :=
  String.ofList (((Text.stripLead? "http://".toList address.toList).or
    (Text.stripLead? "https://".toList address.toList)).getD address.toList)

theorem portOf?_address (container : String) (port : UInt16) :
    portOf? (address container port) = some (toString port.toNat) := by
  have digits : ∀ c ∈ (toString port.toNat).toList.reverse, decide (c ≠ ':') = true := by
    intro c inside
    rw [decide_eq_true_eq]
    rintro rfl
    exact colon_notMem_number _ (List.mem_reverse.1 inside)
  have colon : ":".toList = [':'] := rfl
  have parted : (address container port).toList =
      container.toList ++ ':' :: (toString port.toNat).toList := by
    rw [address, String.toList_append, String.toList_append, colon, List.append_assoc]
    rfl
  have found : (container.toList ++ ':' :: (toString port.toNat).toList).contains ':' = true := by
    simp
  -- from the back, the digits end at the colon between container and port
  rw [portOf?, parted, if_pos found, List.reverse_append, List.reverse_cons, List.append_assoc,
    List.takeWhile_append_of_pos digits, List.singleton_append,
    List.takeWhile_cons_of_neg (by decide), List.append_nil, List.reverse_reverse,
    String.ofList_toList]

theorem portOf?_of_notMem {address : String} (h : ':' ∉ address.toList) :
    portOf? address = none := by
  rw [portOf?, if_neg (by simpa using h)]

theorem withoutScheme_http (address : String) : withoutScheme ("http://" ++ address) = address := by
  rw [withoutScheme, String.toList_append, Text.stripLead?_append, Option.some_or, Option.getD_some,
    String.ofList_toList]

theorem withoutScheme_https (address : String) :
    withoutScheme ("https://" ++ address) = address := by
  have other : Text.stripLead? "http://".toList ("https://".toList ++ address.toList) = none :=
    Text.stripLead?_append_of_none (by decide) (by decide) _
  rw [withoutScheme, String.toList_append, other, Text.stripLead?_append, Option.none_or,
    Option.getD_some, String.ofList_toList]

/-- Without a slash there is no scheme. -/
theorem withoutScheme_of_notMem {address : String} (h : '/' ∉ address.toList) :
    withoutScheme address = address := by
  have none {lead : List Char} (slash : '/' ∈ lead) :
      Text.stripLead? lead address.toList = none := by
    cases found : Text.stripLead? lead address.toList with
    | none => rfl
    | some rest =>
      rw [Text.eq_append_of_stripLead? found] at h
      exact absurd (List.mem_append_left _ slash) h
  rw [withoutScheme, none (by decide), none (by decide), Option.none_or, Option.getD_none,
    String.ofList_toList]

/-! ## Settings -/

theorem settingsOf_nil (name : String) : settingsOf name [] = [] :=
  rfl

theorem settingsOf_append (name : String) (front back : List String) :
    settingsOf name (front ++ back) = settingsOf name front ++ settingsOf name back :=
  List.filterMap_append

/-- Settings are found by their names, which hold no equals sign. -/
theorem settingsOf_cons {name other : String} (plain : '=' ∉ name.toList)
    (plainOther : '=' ∉ other.toList) (value : String) (args : List String) :
    settingsOf name (setting other value :: args) =
      (if name = other then [value] else []) ++ settingsOf name args := by
  split_ifs with same
  · rw [same, settingsOf_setting, List.singleton_append]
  · refine settingsOf_of_none ?_ args
    cases found : Text.stripLead? (name ++ "=").toList (setting other value).toList with
    | none => rfl
    | some rest =>
      have sign : "=".toList = ['='] := rfl
      -- both names end at the first equals sign of one word, so they are one name
      have split := Text.eq_append_of_stripLead? found
      rw [toList_setting, String.toList_append, String.toList_append, sign, List.append_assoc,
        List.append_assoc, List.singleton_append, List.singleton_append,
        Text.append_cons_inj plainOther plain, String.toList_inj] at split
      exact absurd split.1.symm same

/-! ## Numerals of a document -/

/-- Words as numerals for ports. -/
def ports (place : String) (words : List String) : List Numeral :=
  words.map fun word => ⟨place, .port, "", word⟩

/-- Words as numerals for status codes. -/
def codes (place : String) (words : List String) : List Numeral :=
  words.map fun word => ⟨place, .statusCode, "", word⟩

/-- Words as numerals for counts. -/
def counts (place unit : String) (words : List String) : List Numeral :=
  words.map fun word => ⟨place, .count, unit, word⟩

/-- The numerals among the arguments of a directive. Settings may stand behind an address or the key
of a limit. -/
def numeralsIn (name : String) (args : List String) : List Numeral :=
  match name with
  | "listen" => ports name (args.head?.toList.map fun word => (portOf? word).getD word)
  | "server" => ports name (args.head?.toList.filterMap portOf?) ++
      counts "weight" "" (settingsOf "weight" args.tail)
  | "proxy_pass" => ports name ((args.map withoutScheme).filterMap portOf?)
  | "limit_req_zone" => counts "rate" "r/s" (settingsOf "rate" args.tail)
  | "limit_req" => counts "burst" "" (settingsOf "burst" args)
  | "health_check" => counts "interval" "s" (settingsOf "interval" args) ++
      counts "fails" "" (settingsOf "fails" args) ++ counts "passes" "" (settingsOf "passes" args)
  | "proxy_buffers" => counts name "" args.head?.toList
  | "proxy_cache_valid" => codes name args.dropLast ++ counts name "s" args.getLast?.toList
  | "proxy_connect_timeout" | "proxy_send_timeout" | "proxy_read_timeout" | "proxy_timeout"
  | "health_check_timeout" => counts name "s" args
  | "status" => codes name args
  | "return" => codes name args.head?.toList
  | _ => []

section
variable (word : String) (args : List String)

theorem numeralsIn_listen :
    numeralsIn "listen" (word :: args) = ports "listen" [(portOf? word).getD word] :=
  rfl

theorem numeralsIn_server :
    numeralsIn "server" (word :: args) =
      ports "server" ([word].filterMap portOf?) ++ counts "weight" "" (settingsOf "weight" args) :=
  rfl

theorem numeralsIn_proxyPass :
    numeralsIn "proxy_pass" [word] = ports "proxy_pass" ([withoutScheme word].filterMap portOf?) :=
  rfl

theorem numeralsIn_limitReqZone :
    numeralsIn "limit_req_zone" (word :: args) = counts "rate" "r/s" (settingsOf "rate" args) :=
  rfl

theorem numeralsIn_limitReq :
    numeralsIn "limit_req" args = counts "burst" "" (settingsOf "burst" args) :=
  rfl

theorem numeralsIn_healthCheck :
    numeralsIn "health_check" args = counts "interval" "s" (settingsOf "interval" args) ++
      counts "fails" "" (settingsOf "fails" args) ++ counts "passes" "" (settingsOf "passes" args) :=
  rfl

theorem numeralsIn_status : numeralsIn "status" args = codes "status" args :=
  rfl

end

/-- The numerals of a node, without those of the nodes in it. -/
def Node.numerals : Node → List Numeral
  | .directive name args => numeralsIn name args
  | _ => []

/-- The numerals of nodes, at every depth. -/
def numerals (nodes : List Node) : List Numeral :=
  (nodesWithin nodes).flatMap Node.numerals

example :
    numerals [.block "upstream" ["backend_web"] [.directive "server" ["web:80", "weight=2"]]] =
      [⟨"server", .port, "", "80"⟩, ⟨"weight", .count, "", "2"⟩] := by decide

theorem numerals_append (front back : List Node) :
    numerals (front ++ back) = numerals front ++ numerals back := by
  rw [numerals, nodesWithin_append, List.flatMap_append]
  rfl

theorem numerals_directive (name : String) (args : List String) :
    numerals [.directive name args] = numeralsIn name args :=
  List.append_nil _

theorem numerals_block (name : String) (args : List String) (children : List Node) :
    numerals [.block name args children] = numerals children := by
  rw [numerals, nodesWithin, nodesWithin, Node.within, List.append_nil]
  rfl

/-! ## Acceptable numerals -/

/-- Nodes whose numerals are accepted but for given ones. -/
def Takes (nodes : List Node) (pending : List Numeral) : Prop :=
  AllBut (fun numeral => numeral.isAccepted = true) (numerals nodes) pending

namespace Takes

variable {nodes front back : List Node} {pending more : List Numeral} {name : String}
  {args : List String}

theorem nil : Takes [] [] :=
  .refl _ _

theorem blank : Takes [.blank] [] :=
  .refl _ _

theorem comment (text : String) : Takes [.comment text] [] :=
  .refl _ _

/-- A directive whose numerals are all accepted. -/
theorem directive (h : ∀ numeral ∈ numeralsIn name args, numeral.isAccepted = true) :
    Takes [.directive name args] [] := by
  rw [Takes, numerals_directive]
  exact .of_forall h

/-- A directive of whose numerals nothing is known. -/
theorem unchecked (h : numeralsIn name args = pending) : Takes [.directive name args] pending := by
  rw [Takes, numerals_directive, h]
  exact .refl _ _

/-- A directive without numerals. -/
theorem plain (none : numeralsIn name args = []) : Takes [.directive name args] [] :=
  unchecked none

/-- The numerals of a block are those of its content. -/
theorem block {children : List Node} (h : Takes children pending) :
    Takes [.block name args children] pending := by
  rw [Takes, numerals_block]
  exact h

/-- The numerals of nodes side by side are those of both. -/
theorem append (hf : Takes front pending) (hb : Takes back more) :
    Takes (front ++ back) (pending ++ more) := by
  rw [Takes, numerals_append]
  exact AllBut.append hf hb

theorem append_left (hf : Takes front []) (hb : Takes back pending) :
    Takes (front ++ back) pending :=
  append hf hb

theorem append_right (hf : Takes front pending) (hb : Takes back []) :
    Takes (front ++ back) pending := by
  have both := append hf hb
  rwa [List.append_nil] at both

/-- One node for each element of a list. -/
theorem map {α : Type} {items : List α} {node : α → Node} (h : ∀ a ∈ items, Takes [node a] []) :
    Takes (items.map node) [] := by
  induction items with
  | nil => exact nil
  | cons a items ih =>
    rw [List.map_cons, ← List.singleton_append]
    exact append (h a (List.mem_cons_self ..)) (ih fun b hb => h b (List.mem_cons_of_mem _ hb))

/-- A directive for an optional setting. -/
theorem optional {α : Type} {args : α → List String} {a? : Option α}
    (h : ∀ a ∈ a?, Takes [.directive name (args a)] []) :
    Takes (optionalDirective name args a?) [] := by
  cases a? with
  | none => exact nil
  | some a => exact h a rfl

end Takes

end ProxyKeeper.Nginx
