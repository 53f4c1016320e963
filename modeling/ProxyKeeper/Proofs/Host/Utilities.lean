import Mathlib.Data.List.TakeDrop
import Mathlib.Data.List.TakeWhile
import Mathlib.Tactic.Common
import ProxyKeeper.Proofs.Host.Words
import ProxyKeeper.Proofs.Text.Numerals

/-!
# What utilities write

Escapes and formats are written with a count of steps, and a step for each character is enough. A
text in which the signs that begin an escape or a place stand twice is written as it is; so is every
text that `printf` has a place for, and every file of `cat`. `echo` is one program in a shell and
another without one, but they differ on escapes and options only.

## Main Definitions

* `Utility.doubled` — a text in which certain signs stand twice

## Main Results

* `Utility.escaped_eq_of_le`, `Utility.format_eq_of_le` — steps beyond those that are enough change
  nothing
* `Utility.unescape_doubled`, `Utility.printf_doubled` — signs that stand twice are written once
* `Utility.run?_echo`, `Utility.printf_text` — arguments are written as they are
* `Utility.status_catFiles_eq_zero_iff`, `Utility.catFiles_of_read` — `cat` succeeds if all files
  can be read, and then writes them one after another
* `Utility.sleep_seconds` — how long `sleep` takes
* `Host.spawn_printf`, `Host.spawn_echo` — what comes of such a line in a shell
-/

namespace ProxyKeeper

namespace Shell.Utility

/-! ## Enough steps -/

theorem length_takeOctal_le (value count : Nat) (cs : List Char) :
    (takeOctal value count cs).2.length ≤ cs.length := by
  fun_induction takeOctal value count cs with
  | case1 value count c cs digit _ ih => exact Nat.le_succ_of_le ih
  | case2 => exact Nat.le_refl _
  | case3 => exact Nat.le_refl _

theorem escaped_nil (zero : Bool) (steps : Nat) : escaped zero steps [] = .empty := by
  cases steps <;> rfl

theorem format_nil (steps : Nat) (args : List String) : format steps [] args = .empty := by
  cases steps <;> rfl

/-- A step for each character is enough to write escapes. -/
theorem escaped_eq_of_le {zero : Bool} {steps more : Nat} {cs : List Char}
    (enough : cs.length ≤ steps) (le : steps ≤ more) :
    escaped zero more cs = escaped zero steps cs := by
  induction steps generalizing more cs with
  | zero =>
    obtain rfl := List.eq_nil_of_length_eq_zero (Nat.le_zero.1 enough)
    exact escaped_nil ..
  | succ steps ih =>
    obtain ⟨more, rfl⟩ := Nat.exists_eq_succ_of_ne_zero (Nat.ne_zero_of_lt le)
    have goes {rest : List Char} (fewer : rest.length ≤ steps) :
        escaped zero more rest = escaped zero steps rest :=
      ih fewer (Nat.le_of_succ_le_succ le)
    have octal (value : Nat) (digits : List Char) (fewer : digits.length ≤ steps) :
        escaped zero more (takeOctal value 3 digits).2 =
          escaped zero steps (takeOctal value 3 digits).2 :=
      goes (Nat.le_trans (length_takeOctal_le ..) fewer)
    rw [escaped.eq_def, escaped.eq_def zero (steps + 1)]
    split
    case h_1 absent => exact absurd absent (Nat.succ_ne_zero more)
    case h_2 => rfl
    case h_3 c cs same =>
      cases same
      have fewer := Nat.le_of_succ_le_succ enough
      dsimp only
      rw [octal _ _ fewer, octal _ _ (Nat.le_of_succ_le fewer), goes (Nat.le_of_succ_le fewer)]
    case h_4 c cs _ same =>
      cases same
      rw [goes (Nat.le_of_succ_le_succ enough)]

/-- A step for each character is enough to write a format. -/
theorem format_eq_of_le {steps more : Nat} {cs : List Char} {args : List String}
    (enough : cs.length ≤ steps) (le : steps ≤ more) :
    format more cs args = format steps cs args := by
  induction steps generalizing more cs args with
  | zero =>
    obtain rfl := List.eq_nil_of_length_eq_zero (Nat.le_zero.1 enough)
    exact format_nil ..
  | succ steps ih =>
    obtain ⟨more, rfl⟩ := Nat.exists_eq_succ_of_ne_zero (Nat.ne_zero_of_lt le)
    have goes {rest : List Char} {args : List String} (fewer : rest.length ≤ steps) :
        format more rest args = format steps rest args :=
      ih fewer (Nat.le_of_succ_le_succ le)
    rw [format.eq_def, format.eq_def (steps + 1)]
    split
    case h_1 absent => exact absurd absent (Nat.succ_ne_zero more)
    case h_2 => rfl
    case h_3 same | h_4 same | h_5 same | h_6 same =>
      cases same
      rw [goes (Nat.le_of_succ_le (Nat.le_of_succ_le_succ enough))]
    case h_7 c cs same =>
      cases same
      have fewer := Nat.le_of_succ_le_succ enough
      dsimp only
      rw [goes (Nat.le_trans (length_takeOctal_le 0 3 (c :: cs)) fewer),
        goes (Nat.le_of_succ_le fewer)]
    case h_8 same =>
      cases same
      rw [goes (Nat.le_of_succ_le_succ enough)]

/-! ## Signs that stand twice -/

theorem bytesOf_append (cs ds : List Char) : bytesOf (cs ++ ds) = bytesOf cs ++ bytesOf ds := by
  rw [bytesOf, String.ofList_append]
  exact String.toByteArray_append

theorem bytesOf_cons (c : Char) (cs : List Char) :
    bytesOf (c :: cs) = bytesOf [c] ++ bytesOf cs :=
  bytesOf_append [c] cs

theorem bytesOf_toList (text : String) : bytesOf text.toList = text.toUTF8 := by
  rw [bytesOf, String.ofList_toList]

/-- A text in which certain signs stand twice. -/
def doubled (signs cs : List Char) : List Char :=
  cs.flatMap fun c => if c ∈ signs then [c, c] else [c]

theorem doubled_cons (signs : List Char) (c : Char) (cs : List Char) :
    doubled signs (c :: cs) =
      if c ∈ signs then c :: c :: doubled signs cs else c :: doubled signs cs := by
  rw [doubled, List.flatMap_cons]
  split <;> rfl

theorem doubled_of_disjoint {signs cs : List Char} (plain : ∀ c ∈ cs, c ∉ signs) :
    doubled signs cs = cs := by
  induction cs with
  | nil => rfl
  | cons c cs ih =>
    obtain ⟨first, others⟩ := List.forall_mem_cons.1 plain
    rw [doubled_cons, if_neg first, ih others]

theorem length_le_length_doubled (signs cs : List Char) :
    cs.length ≤ (doubled signs cs).length := by
  induction cs with
  | nil => exact Nat.le_refl _
  | cons c cs ih =>
    rw [doubled_cons]
    split <;> simp only [List.length_cons] <;> omega

theorem escaped_doubled {zero : Bool} {steps : Nat} {cs : List Char} (enough : cs.length ≤ steps) :
    escaped zero steps (doubled ['\\'] cs) = bytesOf cs := by
  induction cs generalizing steps with
  | nil => exact escaped_nil ..
  | cons c cs ih =>
    obtain ⟨steps, rfl⟩ := Nat.exists_eq_succ_of_ne_zero (Nat.ne_zero_of_lt enough)
    have rest := ih (Nat.le_of_succ_le_succ enough)
    rw [doubled_cons, bytesOf_cons]
    by_cases sign : c = '\\'
    · subst sign
      rw [if_pos (List.mem_singleton_self _)]
      exact congrArg (bytesOf ['\\'] ++ ·) rest
    · rw [if_neg (by simpa using sign), Nat.succ_eq_add_one, escaped, rest]
      exact fun _ _ also => absurd also sign

/-- Backslashes that stand twice are written once, and all else as it is. -/
theorem unescape_doubled (zero : Bool) (cs : List Char) :
    unescape zero (doubled ['\\'] cs) = bytesOf cs :=
  escaped_doubled (Nat.le_succ_of_le (length_le_length_doubled ..))

theorem unescape_of_notMem {zero : Bool} {cs : List Char} (plain : '\\' ∉ cs) :
    unescape zero cs = bytesOf cs := by
  have same : doubled ['\\'] cs = cs :=
    doubled_of_disjoint fun c inside sign => plain (List.mem_singleton.1 sign ▸ inside)
  exact (congrArg (unescape zero) same).symm.trans (unescape_doubled zero cs)

theorem format_doubled {steps : Nat} {cs : List Char} {args : List String}
    (enough : cs.length ≤ steps) :
    format steps (doubled ['\\', '%'] cs) args = bytesOf cs := by
  induction cs generalizing steps with
  | nil => exact format_nil ..
  | cons c cs ih =>
    obtain ⟨steps, rfl⟩ := Nat.exists_eq_succ_of_ne_zero (Nat.ne_zero_of_lt enough)
    have rest := ih (Nat.le_of_succ_le_succ enough)
    rw [doubled_cons, bytesOf_cons]
    by_cases sign : c ∈ ['\\', '%']
    · rw [if_pos sign]
      simp only [List.mem_cons, List.not_mem_nil, or_false] at sign
      obtain rfl | rfl := sign
      · exact congrArg₂ (· ++ ·) (unescape_doubled false ['\\']) rest
      · exact congrArg (bytesOf ['%'] ++ ·) rest
    · simp only [List.mem_cons, List.not_mem_nil, or_false, not_or] at sign
      rw [if_neg (by simpa using sign), Nat.succ_eq_add_one, format, rest]
      all_goals first
        | exact fun _ also => absurd also sign.2
        | exact fun _ _ also => absurd also sign.1

/-- A format in which backslashes and percent signs stand twice is written with each of them once,
whatever its arguments are. -/
theorem printf_doubled (text : String) (args : List String) :
    printf (String.ofList (doubled ['\\', '%'] text.toList) :: args) =
      { stdout := text.toUTF8 } := by
  rw [printf, String.toList_ofList,
    format_doubled (Nat.le_succ_of_le (length_le_length_doubled ..)), bytesOf_toList]

/-- A text that has a place in the format is written as it is. -/
theorem printf_text (text : String) : printf ["%s", text] = { stdout := text.toUTF8 } := by
  have written : format ("%s".toList.length + 1) "%s".toList [text] = text.toUTF8 ++ .empty := rfl
  rw [printf, written, ByteArray.append_empty]

/-! ## Arguments and files -/

theorem notMem_joined {args : List String} (plain : ∀ arg ∈ args, '\\' ∉ arg.toList) :
    '\\' ∉ joined args := by
  intro listed
  rw [joined, String.toList_intercalate] at listed
  obtain space | ⟨_, written, inside⟩ := Text.eq_or_mem_of_mem_intercalate listed
  · revert space
    decide
  · obtain ⟨arg, there, rfl⟩ := List.mem_map.1 written
    exact plain arg there inside

/-- `echo` writes arguments as they are, in a shell and without one, if there is no escape in them
and no option before them. -/
theorem run?_echo {args : List String} (plain : ∀ arg ∈ args, '\\' ∉ arg.toList)
    (option : ∀ arg ∈ args.head?, arg ∉ ["-n", "-e", "-E"]) (tree : Tree) (inShell : Bool) :
    run? tree inShell "echo" args =
      some { stdout := (" ".intercalate args ++ "\n").toUTF8 } := by
  have line : bytesOf (joined args) ++ bytesOf ['\n'] =
      (" ".intercalate args ++ "\n").toUTF8 := by
    rw [joined, bytesOf_toList]
    exact String.toByteArray_append.symm
  have outside : echo args = { stdout := bytesOf (joined args ++ ['\n']) } := by
    rw [echo.eq_def]
    split
    case h_1 => exact absurd (option _ rfl) (by decide)
    case h_2 => exact absurd (option _ rfl) (by decide)
    case h_3 => exact absurd (option _ rfl) (by decide)
    case h_4 => rfl
  have inside : echoEscaped args = { stdout := unescape true (joined args) ++ bytesOf ['\n'] } := by
    rw [echoEscaped.eq_def]
    split
    case h_1 => exact absurd (option _ rfl) (by decide)
    case h_2 => rfl
  change some (if inShell then echoEscaped args else echo args) = _
  rw [inside, outside, unescape_of_notMem (notMem_joined plain), bytesOf_append, line, ite_self]

/-- `cat` succeeds if, and only if, all files can be read. A hyphen stands for the input, which is
empty. -/
theorem status_catFiles_eq_zero_iff {tree : Tree} {names : List String} :
    (catFiles tree names).status = 0 ↔
      ∀ name ∈ names, name = "-" ∨ ∃ content, tree.read ⟨name⟩ = .ok content := by
  fun_induction catFiles tree names with
  | case1 => simp
  | case2 names ih => simpa using ih
  | case3 name names input rest content read ih =>
    rw [List.forall_mem_cons, ← ih]
    exact (and_iff_right (.inr ⟨content, read⟩)).symm
  | case4 name names input rest fault read text ih =>
    refine iff_of_false Nat.one_ne_zero fun all => ?_
    obtain hyphen | ⟨content, found⟩ := all name List.mem_cons_self
    · exact input hyphen
    · rw [read] at found
      cases found

/-- Files that can be read are written one after another. -/
theorem catFiles_of_read {tree : Tree} {names : List String} {contents : List ByteArray}
    (read : List.Forall₂ (fun name content => name ≠ "-" ∧ tree.read ⟨name⟩ = .ok content)
      names contents) :
    catFiles tree names = { stdout := contents.foldr (· ++ ·) .empty } := by
  induction read with
  | nil => rfl
  | cons first _ ih =>
    rw [catFiles, ih, List.foldr_cons]
    · simp only [first.2]
    · exact first.1

/-- A whole number of seconds is waited for. -/
theorem sleep_seconds (n : Nat) :
    sleep [String.ofList (Nat.toDigits 10 n)] = { delay := 1000 * n } := by
  have noPoint : ∀ c ∈ Nat.toDigits 10 n, (c != '.') = true := by
    intro c inside
    have digit := Text.isDigit_of_mem_toDigits inside
    rw [bne_iff_ne]
    rintro rfl
    revert digit
    decide
  have point : (Nat.toDigits 10 n).span (· != '.') = (Nat.toDigits 10 n, []) := by
    rw [List.span_eq_takeWhile_dropWhile, List.takeWhile_eq_self_iff.2 noPoint,
      List.dropWhile_eq_nil_iff.2 noPoint]
  rw [sleep, milliseconds?, String.toList_ofList, point]
  simp only [Text.ofDigits?_toDigits, Option.map_some]

end Shell.Utility

namespace Host

open Shell

/-- A shell that is given a line of `printf` with a text in quotes writes this text. -/
theorem spawn_printf {tree : Tree} {limit : Nat} {text : String} (written : '\x00' ∉ text.toList) :
    spawn tree limit ["sh", "-c", quoteLine ["printf", "%s", text]] =
      ⟨.finished (outcome 0 text.toUTF8 .empty), tree⟩ := by
  have runs : Utility.run? tree true "printf" ["%s", text] = some { stdout := text.toUTF8 } :=
    congrArg some (Utility.printf_text text)
  rw [spawn_quoteLine runs, if_neg (Nat.not_lt_zero limit)]
  intro word listed
  simp only [List.mem_cons, List.not_mem_nil, or_false] at listed
  obtain rfl | rfl | rfl := listed
  · decide
  · decide
  · exact written

/-- It makes no difference whether a shell runs `echo` with arguments in quotes, if there is no
escape in them and no option before them. -/
theorem spawn_echo {tree : Tree} {limit : Nat} {args : List String}
    (plain : ∀ arg ∈ args, '\\' ∉ arg.toList) (written : ∀ arg ∈ args, '\x00' ∉ arg.toList)
    (option : ∀ arg ∈ args.head?, arg ∉ ["-n", "-e", "-E"]) :
    spawn tree limit ["sh", "-c", quoteLine ("echo" :: args)] =
      spawn tree limit ("echo" :: args) :=
  spawn_quoteLine_eq (fun inShell => Utility.run?_echo plain option tree inShell)
    (List.forall_mem_cons.2 ⟨by decide, written⟩)

end Host

end ProxyKeeper
