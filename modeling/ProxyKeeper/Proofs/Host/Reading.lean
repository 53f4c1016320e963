import Mathlib.Tactic.Common
import ProxyKeeper.Host.Basic

/-!
# Reading of scripts

The reading of a script counts its steps down, so that it ends. The count never decides what is
read: every part of the reading leaves tokens at the end of those it was given, and goes on either
with fewer of them or in a part that has fewer steps to go. Three steps for each token, and three
more, are therefore enough, and a reading that is done stays as it is with any more.

## Main Definitions

* `Command.Leaves` — what each part of the reading leaves stands at the end of its tokens
* `Command.Agrees` — two readings that are alike, unless the first had too few steps
* `Command.Steady` — each part of the reading agrees with itself when it is given more steps

## Main Results

* `Command.leaves`, `Command.steady` — both hold for every number of steps
* `Command.simple?_eq_of_le`, `Command.list?_eq_of_le` — steps beyond those that are enough change
  nothing
* `Command.read?_eq_some_iff` — a script is a command if any number of steps reads all of its
  tokens as this command
-/

namespace ProxyKeeper.Shell.Command

variable {steps more : Nat} {tokens rest : List Token} {command first : Command}

/-! ## What is left -/

theorem skipNewlines_suffix (tokens : List Token) : skipNewlines tokens <:+ tokens := by
  fun_induction skipNewlines tokens with
  | case1 tokens ih => exact ih.trans (List.suffix_cons _ _)
  | case2 tokens => exact List.suffix_refl _

theorem exists_cons_suffix_of_expect? {text : String}
    (expected : expect? text tokens = some rest) : ∃ token, token :: rest <:+ tokens := by
  have left := skipNewlines_suffix tokens
  unfold expect? at expected
  split at expected
  case h_1 token _ found =>
    simp only [Option.ite_none_right_eq_some, Option.some.injEq] at expected
    obtain ⟨-, rfl⟩ := expected
    exact ⟨token, found ▸ left⟩
  case h_2 => cases expected

theorem suffix_of_expect? {text : String}
    (expected : expect? text tokens = some rest) : rest <:+ tokens :=
  let ⟨_, there⟩ := exists_cons_suffix_of_expect? expected
  (List.suffix_cons _ _).trans there

theorem length_lt_of_expect? {text : String}
    (expected : expect? text tokens = some rest) : rest.length < tokens.length :=
  let ⟨_, there⟩ := exists_cons_suffix_of_expect? expected
  there.length_le

theorem suffix_of_redirection? {number : Option Nat} {c : Char} {redirection : Redirection}
    (found : redirection? number c tokens = some (redirection, rest)) : rest <:+ tokens := by
  unfold redirection? at found
  split at found
  · cases found
    exact (List.suffix_cons _ _).trans (List.suffix_cons _ _)
  · simp only [Option.map_eq_some_iff] at found
    obtain ⟨_, -, made⟩ := found
    cases made
    exact (List.suffix_cons _ _).trans (List.suffix_cons _ _)
  · cases found
    exact List.suffix_cons _ _
  · cases found
    exact List.suffix_cons _ _
  · simp at found

theorem suffix_of_simple? {words : List Word} {redirections : List Redirection}
    (found : simple? words redirections steps tokens = some (command, rest)) :
    rest <:+ tokens := by
  fun_induction simple? words redirections steps tokens with
  | case1 words redirections steps word tokens ih =>
    exact (ih found).trans (List.suffix_cons _ _)
  | case2 words redirections steps n c tokens ih => 
    simp only [Option.bind_eq_bind, Option.bind_eq_some_iff, Prod.exists] at found
    obtain ⟨redirection, after, read, found⟩ := found
    exact (ih redirection after found).trans <| (suffix_of_redirection? read).trans <|
      (List.suffix_cons _ _).trans (List.suffix_cons _ _)
  | case3 words redirections steps c tokens sign ih =>
    simp only [Option.bind_eq_bind, Option.bind_eq_some_iff, Prod.exists] at found
    obtain ⟨redirection, after, read, found⟩ := found
    exact (ih redirection after found).trans <| (suffix_of_redirection? read).trans <|
      List.suffix_cons _ _
  | case4 words redirections steps c tokens other =>
    cases found
    exact List.suffix_refl _
  | case5 words redirections _ tokens =>
    cases found
    exact List.suffix_refl _

theorem suffix_of_patterns? {patterns found : List Word}
    (read : patterns? patterns tokens = some (found, rest)) : rest <:+ tokens := by
  fun_induction patterns? patterns tokens with
  | case1 patterns word tokens ih =>
    exact (ih read).trans ((List.suffix_cons _ _).trans (List.suffix_cons _ _))
  | case2 patterns word tokens =>
    cases read
    exact (List.suffix_cons _ _).trans (List.suffix_cons _ _)
  | case3 => cases read

/-- A parenthesis may stand before the first pattern. -/
theorem suffix_of_opened (tokens : List Token) :
    (match tokens with
      | .sign '(' :: rest => rest
      | rest => rest) <:+ tokens := by
  split
  · exact List.suffix_cons _ _
  · exact List.suffix_refl _

/-- What each part of the reading leaves, with some number of steps, stands at the end of the tokens
that it was given. -/
structure Leaves (steps : Nat) : Prop where
  list {tokens rest : List Token} {command : Command}
    (read : list? steps tokens = some (command, rest)) : rest <:+ tokens
  items {first : Command} {tokens rest : List Token} {command : Command}
    (read : items? steps first tokens = some (command, rest)) : rest <:+ tokens
  item {tokens rest : List Token} {command : Command}
    (read : item? steps tokens = some (command, rest)) : rest <:+ tokens
  condition {tokens rest : List Token} {command : Command}
    (read : condition? steps tokens = some (command, rest)) : rest <:+ tokens
  branches {subject : Word} {tokens rest : List Token} {command : Command}
    (read : branches? steps subject tokens = some (command, rest)) : rest <:+ tokens

theorem Leaves.list_succ (leaves : Leaves steps)
    (read : list? (steps + 1) tokens = some (command, rest)) : rest <:+ tokens := by
  refine List.IsSuffix.trans ?_ (skipNewlines_suffix tokens)
  rw [list?] at read
  split at read
  case h_1 _ found =>
    cases read
    exact found ▸ List.suffix_refl _
  case h_2 _ _ found =>
    rw [found]
    exact (leaves.list read).trans (List.suffix_cons _ _)
  case h_3 =>
    split_ifs at read with ends
    · cases read
      exact List.suffix_refl _
    · simp only [Option.bind_eq_bind, Option.bind_eq_some_iff, Prod.exists] at read
      obtain ⟨first, afterFirst, readFirst, all, afterAll, readAll, read⟩ := read
      have there := (leaves.items readAll).trans (leaves.item readFirst)
      split_ifs at read with ends
      · cases read
        exact there
      · split at read
        · obtain ⟨⟨_, _⟩, readSecond, made⟩ := Option.bind_eq_some_iff.1 read
          cases made
          exact (leaves.list readSecond).trans ((List.suffix_cons _ _).trans there)
        · obtain ⟨⟨_, _⟩, readSecond, made⟩ := Option.bind_eq_some_iff.1 read
          cases made
          exact (leaves.list readSecond).trans ((List.suffix_cons _ _).trans there)
        · cases read

theorem Leaves.items_succ (leaves : Leaves steps)
    (read : items? (steps + 1) first tokens = some (command, rest)) : rest <:+ tokens := by
  have goes {first : Command → Command} {c d : Token} {tokens : List Token}
      (read : ((item? steps (skipNewlines tokens)).bind fun second =>
        items? steps (first second.1) second.2) = some (command, rest)) :
      rest <:+ c :: d :: tokens := by
    obtain ⟨⟨_, _⟩, readSecond, readRest⟩ := Option.bind_eq_some_iff.1 read
    refine (leaves.items readRest).trans <| (leaves.item readSecond).trans <|
      (skipNewlines_suffix tokens).trans ?_
    exact (List.suffix_cons _ _).trans (List.suffix_cons _ _)
  rw [items?.eq_def] at read
  dsimp only at read
  split at read
  case h_1 absent => exact absurd absent (Nat.succ_ne_zero _)
  case h_2 also => cases also; exact goes read
  case h_3 also => cases also; exact goes read
  case h_4 => cases read; exact List.suffix_refl _

theorem Leaves.item_succ (leaves : Leaves steps)
    (read : item? (steps + 1) tokens = some (command, rest)) : rest <:+ tokens := by
  rw [item?.eq_def] at read
  cases tokens with
  | nil => cases read
  | cons token tokens =>
    dsimp only at read
    split at read
    case h_1 =>
      obtain ⟨⟨_, _⟩, readRest, made⟩ := Option.bind_eq_some_iff.1 read
      cases made
      exact (leaves.item readRest).trans (List.suffix_cons _ _)
    case h_2 => exact (leaves.condition read).trans (List.suffix_cons _ _)
    case h_3 =>
      split at read
      · obtain ⟨afterIn, readIn, readBranches⟩ := Option.bind_eq_some_iff.1 read
        exact (leaves.branches readBranches).trans <| (suffix_of_expect? readIn).trans <|
          (List.suffix_cons _ _).trans (List.suffix_cons _ _)
      · cases read
    case h_4 =>
      simp only [Option.bind_eq_bind, Option.bind_eq_some_iff, Prod.exists] at read
      obtain ⟨_, afterList, readList, _, readEnd, made⟩ := read
      cases made
      exact (suffix_of_expect? readEnd).trans <| (leaves.list readList).trans <|
        List.suffix_cons _ _
    case h_5 => exact suffix_of_simple? read

theorem Leaves.condition_succ (leaves : Leaves steps)
    (read : condition? (steps + 1) tokens = some (command, rest)) : rest <:+ tokens := by
  rw [condition?] at read
  simp only [Option.bind_eq_bind, Option.bind_eq_some_iff, Prod.exists] at read
  obtain ⟨test, afterTest, readTest, afterThen, readThen, yes, afterYes, readYes, read⟩ := read
  have there := (leaves.list readYes).trans <| (suffix_of_expect? readThen).trans <|
    leaves.list readTest
  split at read
  · cases read
  · have there := (List.suffix_cons _ _).trans there
    split at read
    · cases read
      exact there
    · simp only [Option.bind_eq_some_iff, Prod.exists] at read
      obtain ⟨_, afterNo, readNo, _, readEnd, made⟩ := read
      cases made
      exact (suffix_of_expect? readEnd).trans <| (leaves.list readNo).trans there
    · obtain ⟨⟨_, _⟩, readNo, made⟩ := Option.bind_eq_some_iff.1 read
      cases made
      exact (leaves.condition readNo).trans there
    · cases read

theorem Leaves.branches_succ {subject : Word} (leaves : Leaves steps)
    (read : branches? (steps + 1) subject tokens = some (command, rest)) : rest <:+ tokens := by
  refine List.IsSuffix.trans ?_ (skipNewlines_suffix tokens)
  rw [branches?] at read
  dsimp only at read
  split at read
  case h_1 readEnd =>
    cases read
    exact suffix_of_expect? readEnd
  case h_2 =>
    simp only [Option.bind_eq_bind, Option.bind_eq_some_iff, Prod.exists] at read
    obtain ⟨patterns, afterPatterns, readPatterns, body, afterBody, readBody, read⟩ := read
    have opened := suffix_of_patterns? readPatterns
    have there := (leaves.list readBody).trans <| opened.trans (suffix_of_opened _)
    split at read
    · obtain ⟨⟨_, _⟩, readOthers, made⟩ := Option.bind_eq_some_iff.1 read
      cases made
      exact (leaves.branches readOthers).trans <| (List.suffix_cons _ _).trans <|
        (List.suffix_cons _ _).trans there
    · obtain ⟨_, readEnd, made⟩ := Option.bind_eq_some_iff.1 read
      cases made
      exact (suffix_of_expect? readEnd).trans there

theorem leaves (steps : Nat) : Leaves steps := by
  induction steps with
  | zero => constructor <;> exact fun read => nomatch read
  | succ steps ih =>
    exact ⟨ih.list_succ, ih.items_succ, ih.item_succ, ih.condition_succ, ih.branches_succ⟩

/-! ## Enough steps -/

/-- Two readings that are alike, unless the first fails for want of steps. -/
def Agrees {α : Type} (enough : Prop) (fewer more : Option α) : Prop :=
  more = fewer ∨ fewer = none ∧ ¬ enough

namespace Agrees

variable {α β : Type} {enough : Prop} {fewer more : Option α}

theorem refl (enough : Prop) (o : Option α) : Agrees enough o o := .inl rfl

theorem of_few (few : ¬ enough) : Agrees enough none more := .inr ⟨rfl, few⟩

theorem mono {needed : Prop} (agrees : Agrees enough fewer more) (implies : needed → enough) :
    Agrees needed fewer more :=
  agrees.imp id fun ⟨failed, few⟩ => ⟨failed, fun needed => few (implies needed)⟩

theorem bind {f g : α → Option β} (agrees : Agrees enough fewer more)
    (agree : ∀ a, fewer = some a → Agrees enough (f a) (g a)) :
    Agrees enough (fewer.bind f) (more.bind g) := by
  obtain rfl | ⟨rfl, few⟩ := agrees
  · cases h : more with
    | none => exact .refl _ _
    | some a => exact agree a h
  · exact .of_few few

end Agrees

/-- Each part of the reading, with some number of steps and with another: they agree, unless the
first number is too small for the tokens. A list goes into an item of as many tokens, and a
condition into a list of as many; all else comes after a token. -/
structure Steady (steps more : Nat) : Prop where
  list (tokens : List Token) :
    Agrees (3 * tokens.length + 2 ≤ steps) (list? steps tokens) (list? more tokens)
  items (first : Command) (tokens : List Token) :
    Agrees (3 * tokens.length + 1 ≤ steps) (items? steps first tokens) (items? more first tokens)
  item (tokens : List Token) :
    Agrees (3 * tokens.length + 1 ≤ steps) (item? steps tokens) (item? more tokens)
  condition (tokens : List Token) :
    Agrees (3 * tokens.length + 3 ≤ steps) (condition? steps tokens) (condition? more tokens)
  branches (subject : Word) (tokens : List Token) :
    Agrees (3 * tokens.length + 3 ≤ steps) (branches? steps subject tokens)
      (branches? more subject tokens)

theorem Steady.list_succ (steady : Steady steps more) (tokens : List Token) :
    Agrees (3 * tokens.length + 2 ≤ steps + 1) (list? (steps + 1) tokens)
      (list? (more + 1) tokens) := by
  have length := (skipNewlines_suffix tokens).length_le
  rw [list?, list?]
  split
  case h_1 => exact .refl _ _
  case h_2 _ _ found =>
    rw [found, List.length_cons] at length
    exact (steady.list _).mono (by omega)
  case h_3 =>
    split_ifs
    · exact .refl _ _
    · refine .bind ((steady.item _).mono (by omega)) fun ⟨first, afterFirst⟩ readFirst => ?_
      have firstLeft := ((leaves _).item readFirst).length_le
      refine .bind ((steady.items _ _).mono (by omega)) fun ⟨all, afterAll⟩ readAll => ?_
      have allLeft := ((leaves _).items readAll).length_le
      dsimp only
      split_ifs
      · exact .refl _ _
      · split
        · rw [List.length_cons] at allLeft
          exact .bind ((steady.list _).mono (by omega)) fun _ _ => .refl _ _
        · rw [List.length_cons] at allLeft
          exact .bind ((steady.list _).mono (by omega)) fun _ _ => .refl _ _
        · exact .refl _ _

theorem Steady.items_succ (steady : Steady steps more) (first : Command) (tokens : List Token) :
    Agrees (3 * tokens.length + 1 ≤ steps + 1) (items? (steps + 1) first tokens)
      (items? (more + 1) first tokens) := by
  have goes (combine : Command → Command) (c d : Token) (tokens : List Token) :
      Agrees (3 * (c :: d :: tokens).length + 1 ≤ steps + 1)
        ((item? steps (skipNewlines tokens)).bind fun second =>
          items? steps (combine second.1) second.2)
        ((item? more (skipNewlines tokens)).bind fun second =>
          items? more (combine second.1) second.2) := by
    have length := (skipNewlines_suffix tokens).length_le
    simp only [List.length_cons]
    refine .bind ((steady.item _).mono (by omega)) fun ⟨second, afterSecond⟩ readSecond => ?_
    have left := ((leaves _).item readSecond).length_le
    exact (steady.items _ _).mono (by dsimp only; omega)
  rw [items?.eq_def, items?.eq_def]
  split
  case h_1 absent => exact absurd absent (Nat.succ_ne_zero _)
  case h_2 also => cases also; exact goes ..
  case h_3 also => cases also; exact goes ..
  case h_4 => exact .refl _ _

theorem Steady.item_succ (steady : Steady steps more) (tokens : List Token) :
    Agrees (3 * tokens.length + 1 ≤ steps + 1) (item? (steps + 1) tokens)
      (item? (more + 1) tokens) := by
  rw [item?.eq_def, item?.eq_def]
  cases tokens with
  | nil => exact .refl _ _
  | cons token tokens =>
    dsimp only
    rw [List.length_cons]
    split
    case h_1 =>
      exact .bind ((steady.item _).mono (by omega)) fun _ _ => .refl _ _
    case h_2 => exact (steady.condition _).mono (by omega)
    case h_3 =>
      split
      · refine .bind (.refl _ _) fun afterIn readIn => ?_
        have left := length_lt_of_expect? readIn
        exact (steady.branches _ _).mono (by rw [List.length_cons]; omega)
      · exact .refl _ _
    case h_4 =>
      exact .bind ((steady.list _).mono (by omega)) fun _ _ => .refl _ _
    case h_5 => exact .refl _ _

theorem Steady.condition_succ (steady : Steady steps more) (tokens : List Token) :
    Agrees (3 * tokens.length + 3 ≤ steps + 1) (condition? (steps + 1) tokens)
      (condition? (more + 1) tokens) := by
  rw [condition?, condition?]
  refine .bind ((steady.list _).mono (by omega)) fun ⟨test, afterTest⟩ readTest => ?_
  have testLeft := ((leaves _).list readTest).length_le
  refine .bind (.refl _ _) fun afterThen readThen => ?_
  have thenLeft := length_lt_of_expect? readThen
  refine .bind ((steady.list _).mono (by omega)) fun ⟨yes, afterYes⟩ readYes => ?_
  have yesLeft := ((leaves _).list readYes).length_le
  dsimp only
  split
  · exact .refl _ _
  · rw [List.length_cons] at yesLeft
    split
    · exact .refl _ _
    · exact .bind ((steady.list _).mono (by omega)) fun _ _ => .refl _ _
    · exact .bind ((steady.condition _).mono (by omega)) fun _ _ => .refl _ _
    · exact .refl _ _

theorem Steady.branches_succ (steady : Steady steps more) (subject : Word) (tokens : List Token) :
    Agrees (3 * tokens.length + 3 ≤ steps + 1) (branches? (steps + 1) subject tokens)
      (branches? (more + 1) subject tokens) := by
  have length := (skipNewlines_suffix tokens).length_le
  rw [branches?, branches?]
  dsimp only
  split
  · exact .refl _ _
  · refine .bind (.refl _ _) fun ⟨patterns, afterPatterns⟩ readPatterns => ?_
    have patternsLeft := ((suffix_of_patterns? readPatterns).trans (suffix_of_opened _)).length_le
    refine .bind ((steady.list _).mono (by dsimp only; omega)) fun ⟨body, rest⟩ readBody => ?_
    have bodyLeft := ((leaves _).list readBody).length_le
    dsimp only
    split
    · simp only [List.length_cons] at bodyLeft
      exact .bind ((steady.branches _ _).mono (by omega)) fun _ _ => .refl _ _
    · exact .refl _ _

theorem steady {steps more : Nat} (le : steps ≤ more) : Steady steps more := by
  induction steps generalizing more with
  | zero =>
    constructor <;> intros <;> exact .of_few (by omega)
  | succ steps ih =>
    obtain ⟨more, rfl⟩ : ∃ n, more = n + 1 := ⟨more - 1, by omega⟩
    have before := ih (Nat.le_of_succ_le_succ le)
    exact ⟨before.list_succ, before.items_succ, before.item_succ, before.condition_succ,
      before.branches_succ⟩

/-- Steps beyond those that are enough change nothing. -/
theorem list?_eq_of_le (enough : 3 * tokens.length + 2 ≤ steps) (le : steps ≤ more) :
    list? more tokens = list? steps tokens :=
  ((steady le).list tokens).resolve_right fun few => few.2 enough

/-- What is read stays so with more steps. -/
theorem list?_eq_some_of_le (read : list? steps tokens = some (command, rest))
    (le : steps ≤ more) : list? more tokens = some (command, rest) := by
  obtain same | ⟨failed, -⟩ := (steady le).list tokens
  · rw [same, read]
  · rw [failed] at read
    cases read

/-- A script is a command if, and only if, its tokens can be read as this command to their end, in
whatever number of steps. -/
theorem read?_eq_some_iff {script : String} :
    read? script = some command ↔
      ∃ tokens, Token.scan? script = some tokens ∧
        ∃ steps, list? steps tokens = some (command, []) := by
  rw [read?]
  constructor
  · intro read
    obtain ⟨tokens, scanned, read⟩ := Option.bind_eq_some_iff.1 read
    obtain ⟨⟨read', rest⟩, listed, whole⟩ := Option.bind_eq_some_iff.1 read
    simp only [Option.ite_none_right_eq_some, List.isEmpty_iff, Option.some.injEq] at whole
    obtain ⟨rfl, rfl⟩ := whole
    exact ⟨tokens, scanned, _, listed⟩
  · rintro ⟨tokens, scanned, steps, listed⟩
    have listed' : list? (8 * tokens.length + 8) tokens = some (command, []) := by
      -- more steps keep what is read, and fewer of them were enough already
      obtain le | le := Nat.le_total steps (8 * tokens.length + 8)
      · exact list?_eq_some_of_le listed le
      · rw [← list?_eq_of_le (by omega) le, listed]
    rw [scanned, Option.bind_eq_bind, Option.bind_some, listed']
    rfl

/-- A step for each token is enough for a simple command. -/
theorem simple?_eq_of_le {words : List Word} {redirections : List Redirection}
    (enough : tokens.length ≤ steps) (le : steps ≤ more) :
    simple? words redirections more tokens = simple? words redirections steps tokens := by
  fun_induction simple? words redirections steps tokens generalizing more with
  | case1 words redirections steps word tokens ih =>
    obtain ⟨more, rfl⟩ : ∃ n, more = n + 1 := ⟨more - 1, by omega⟩
    rw [simple?]
    exact ih (Nat.le_of_succ_le_succ enough) (Nat.le_of_succ_le_succ le)
  | case2 words redirections steps n c tokens ih =>
    obtain ⟨more, rfl⟩ : ∃ n, more = n + 1 := ⟨more - 1, by omega⟩
    rw [simple?]
    refine Option.bind_congr fun ⟨redirection, rest⟩ found => ?_
    have left := (suffix_of_redirection? found).length_le
    simp only [List.length_cons] at enough
    exact ih _ _ (by omega) (Nat.le_of_succ_le_succ le)
  | case3 words redirections steps c tokens sign ih =>
    obtain ⟨more, rfl⟩ : ∃ n, more = n + 1 := ⟨more - 1, by omega⟩
    rw [simple?, if_pos sign]
    refine Option.bind_congr fun ⟨redirection, rest⟩ found => ?_
    have left := (suffix_of_redirection? found).length_le
    simp only [List.length_cons] at enough
    exact ih _ _ (by omega) (Nat.le_of_succ_le_succ le)
  | case4 words redirections steps c tokens other =>
    obtain ⟨more, rfl⟩ : ∃ n, more = n + 1 := ⟨more - 1, by omega⟩
    rw [simple?, if_neg other]
  | case5 steps words redirections tokens noWord noNumber noSign =>
    cases tokens with
    | nil => cases more <;> rfl
    | cons token tokens =>
      obtain ⟨n, rfl⟩ : ∃ n, steps = n + 1 := ⟨steps - 1, by simp at enough; omega⟩
      obtain ⟨more, rfl⟩ : ∃ n, more = n + 1 := ⟨more - 1, by omega⟩
      rw [simple?.eq_def]
      split
      case h_1 also => exact absurd also (noWord _ _ _ rfl)
      case h_2 also => exact absurd also (noNumber _ _ _ _ rfl)
      case h_3 also => exact absurd also (noSign _ _ _ rfl)
      case h_4 => rfl

end ProxyKeeper.Shell.Command
