import Mathlib.Tactic.Common
import ProxyKeeper.Host.Basic
import ProxyKeeper.Proofs.Text.Splitting

/-!
# Words of scripts

Quotes and patterns. A text in quotes is one word of a script, whatever its characters are, and
stands for itself; so a line of such words runs as the command of its texts. A pattern matches what
its marks say: the number of steps that the matching is given is always enough.

## Main Definitions

* `quote`, `quoteLine` — texts in quotes, and a line of them
* `Word.ofText` — the word that a text in quotes is
* `Machine.Fits` — texts of the form that marks say

## Main Results

* `Token.scan?_quoteLine`, `Command.read?_quoteLine` — how a line of texts in quotes is read
* `Machine.runScript_quoteLine` — such a line runs as the command of its texts
* `Host.spawn_quoteLine`, `Host.spawn_quoteLine_eq` — a utility that a shell runs for such a line
* `Machine.matchesPattern_iff` — patterns match what their marks say
-/

namespace ProxyKeeper

namespace Shell

/-! ## Quotes -/

/-- Characters up to the closing quote. A quote among them stands outside the quotes, after a
backslash. -/
def quoteChars : List Char → List Char
  | [] => ['\'']
  | c :: cs =>
    if c = '\'' then '\'' :: '\\' :: '\'' :: '\'' :: quoteChars cs
    else c :: quoteChars cs

/-- A text in quotes. -/
def quote (text : String) : String :=
  String.ofList ('\'' :: quoteChars text.toList)

/-- Texts in quotes, with a space between them. -/
def quoteLine (texts : List String) : String :=
  " ".intercalate (texts.map quote)

theorem quoteLine_singleton (text : String) : quoteLine [text] = quote text := by
  rw [quoteLine, List.map_singleton, String.intercalate_singleton]

theorem toList_quoteLine_cons_cons (text other : String) (texts : List String) :
    (quoteLine (text :: other :: texts)).toList =
      (quote text).toList ++ ' ' :: (quoteLine (other :: texts)).toList := by
  rw [quoteLine, List.map_cons, List.map_cons, String.intercalate_cons_cons, ← List.map_cons,
    ← quoteLine]
  simp

/-- Quotes, backslashes and spaces apart, a line has no characters but those of its texts. -/
theorem exists_of_mem_quoteLine {c : Char} (other : c ≠ '\'' ∧ c ≠ '\\' ∧ c ≠ ' ')
    {texts : List String} (listed : c ∈ (quoteLine texts).toList) :
    ∃ text ∈ texts, c ∈ text.toList := by
  have of_chars {cs : List Char} (listed : c ∈ quoteChars cs) : c ∈ cs := by
    induction cs with
    | nil => simp_all [quoteChars]
    | cons d cs ih =>
      rw [quoteChars] at listed
      split at listed <;> simp_all
      exact listed.imp_right ih
  rw [quoteLine, String.toList_intercalate, List.map_map] at listed
  obtain space | ⟨_, quoted, listed⟩ := Text.eq_or_mem_of_mem_intercalate listed
  · exact absurd space other.2.2
  · obtain ⟨text, inside, rfl⟩ := List.mem_map.1 quoted
    rw [Function.comp_apply, quote, String.toList_ofList] at listed
    exact ⟨text, inside, of_chars ((List.mem_cons.1 listed).resolve_left other.1)⟩

/-- The pieces of characters in quotes. -/
def piecesOf : List Char → List Piece
  | [] => []
  | c :: cs =>
    if c = '\'' then .char c true :: .quotes :: piecesOf cs
    else .char c true :: piecesOf cs

/-- The word that a text in quotes is. -/
def Word.ofText (text : String) : Word :=
  .quotes :: piecesOf text.toList

namespace Lexer

theorem foldl_quoteChars (word : List Piece) (tokens : List Token) (cs : List Char) :
    (quoteChars cs).foldl step ⟨.single, word, tokens⟩ =
      ⟨.plain, (piecesOf cs).reverse ++ word, tokens⟩ := by
  induction cs generalizing word with
  | nil => rfl
  | cons c cs ih =>
    rw [quoteChars, piecesOf]
    split
    next quote =>
      subst quote
      have escapes : (((step ⟨.single, word, tokens⟩ '\'').step '\\').step '\'').step '\'' =
          ⟨.single, .quotes :: .char '\'' true :: word, tokens⟩ := rfl
      rw [List.foldl_cons, List.foldl_cons, List.foldl_cons, List.foldl_cons, escapes, ih]
      simp
    next other =>
      have pushes : step ⟨.single, word, tokens⟩ c = ⟨.single, .char c true :: word, tokens⟩ :=
        if_neg (by simpa using other)
      rw [List.foldl_cons, pushes, ih]
      simp

/-- A text in quotes adds its word to what stands before it. -/
theorem foldl_quote (word : List Piece) (tokens : List Token) (text : String) :
    (quote text).toList.foldl step ⟨.plain, word, tokens⟩ =
      ⟨.plain, (Word.ofText text).reverse ++ word, tokens⟩ := by
  rw [quote, String.toList_ofList, List.foldl_cons]
  refine (foldl_quoteChars (.quotes :: word) tokens text.toList).trans ?_
  rw [Word.ofText, List.reverse_cons, List.append_assoc]
  rfl

end Lexer

/-- The tokens of texts in quotes, one for each. -/
theorem Token.scan?_quoteLine (texts : List String) :
    scan? (quoteLine texts) = some (texts.map fun text => .word (.ofText text)) := by
  have nonempty (text : String) : (Word.ofText text).reverse.isEmpty = false := by
    rw [Word.ofText, List.reverse_cons]
    simp
  -- what was read before stays in front, the last token first
  have scans (tokens : List Token) (text : String) (texts : List String) :
      ((quoteLine (text :: texts)).toList.foldl Lexer.step ⟨.plain, [], tokens⟩).finish? =
        some (tokens.reverse ++ (text :: texts).map fun text => .word (.ofText text)) := by
    induction texts generalizing text tokens with
    | nil =>
      rw [quoteLine_singleton, Lexer.foldl_quote, List.append_nil]
      simp [Lexer.finish?, Lexer.endWord, nonempty]
    | cons other texts ih =>
      have ends : Lexer.step ⟨.plain, (Word.ofText text).reverse, tokens⟩ ' ' =
          ⟨.plain, [], .word (.ofText text) :: tokens⟩ := by
        simp [Lexer.step, Lexer.plain, Lexer.endWord, nonempty]
      rw [toList_quoteLine_cons_cons, List.foldl_append, Lexer.foldl_quote, List.append_nil,
        List.foldl_cons, ends, ih]
      simp
  cases texts with
  | nil => rfl
  | cons text texts => exact scans [] text texts

namespace Command

theorem keyword?_ofText (text : String) : keyword? (.word (.ofText text)) = none := by
  rfl

theorem simple?_ofText (before : List Word) (texts : List String) :
    simple? before [] texts.length (texts.map fun text => .word (.ofText text)) =
      some (.simple (before.reverse ++ texts.map .ofText) [], []) := by
  induction texts generalizing before with
  | nil => simp [simple?]
  | cons text texts ih =>
    rw [List.length_cons, List.map_cons, simple?, ih]
    simp

/-- A line of texts in quotes is the simple command of their words. -/
theorem read?_quoteLine (text : String) (texts : List String) :
    read? (quoteLine (text :: texts)) = some (.simple ((text :: texts).map .ofText) []) := by
  have item (steps : Nat) :
      item? (steps + 1) (.word (.ofText text) :: texts.map fun text => .word (.ofText text)) =
        some (.simple ((text :: texts).map .ofText) [], []) := by
    unfold item?
    rw [keyword?_ofText, List.length_map]
    exact simple?_ofText [] (text :: texts)
  have list (steps : Nat) :
      list? (steps + 2) (.word (.ofText text) :: texts.map fun text => .word (.ofText text)) =
        some (.simple ((text :: texts).map .ofText) [], []) := by
    unfold list?
    simp only [skipNewlines, atEnd, keyword?_ofText, item]
    rfl
  rw [read?, Token.scan?_quoteLine]
  simp only [Option.bind_eq_bind, Option.bind_some, List.map_cons, list]
  rfl

end Command

namespace Machine

variable (machine : Machine)

/-- A text in quotes stands for itself. -/
theorem expand_ofText (text : String) : machine.expand (.ofText text) = [text] := by
  have pieces (cs : List Char) (so : String) :
      (piecesOf cs).foldl machine.addPiece ⟨[], some so⟩ = ⟨[], some (so ++ String.ofList cs)⟩ := by
    induction cs generalizing so with
    | nil => simp [piecesOf]
    | cons c cs ih =>
      have first : so ++ String.ofList (c :: cs) =
          so ++ String.ofList [c] ++ String.ofList cs := by
        rw [String.append_assoc, ← String.ofList_append, List.singleton_append]
      rw [piecesOf]
      split
      · rw [List.foldl_cons, List.foldl_cons, first]
        refine Eq.trans ?_ (ih _)
        simp [addPiece, Fields.append]
      · rw [List.foldl_cons, first]
        exact ih _
  have whole := pieces text.toList ""
  rw [String.empty_append, String.ofList_toList] at whole
  have opened : machine.addPiece {} .quotes = ⟨[], some ""⟩ := rfl
  rw [expand, Word.ofText, List.foldl_cons, opened, whole]
  rfl

theorem expand_quoteLine (texts : List String) :
    (texts.map Word.ofText).flatMap machine.expand = texts := by
  induction texts with
  | nil => rfl
  | cons text texts ih => rw [List.map_cons, List.flatMap_cons, ih, expand_ofText]; rfl

/-- A line of texts in quotes runs as the command of these texts. -/
theorem runScript_quoteLine (fresh : machine.isOver = false) (name : String) (args : List String) :
    machine.runScript (quoteLine (name :: args)) = machine.perform {} name args := by
  rw [runScript, Command.read?_quoteLine]
  dsimp only
  rw [run, if_neg (by simp [fresh]), runSimple, redirect]
  dsimp only
  rw [expand_quoteLine]

/-! ## Patterns -/

/-- Whether a text has the form that marks say: each mark stands for a part of it, in their order.
-/
inductive Fits : List Mark → List Char → Prop
  | nil : Fits [] []
  | anyText (part : List Char) {marks : List Mark} {cs : List Char} (rest : Fits marks cs) :
    Fits (.anyText :: marks) (part ++ cs)
  | anyChar (c : Char) {marks : List Mark} {cs : List Char} (rest : Fits marks cs) :
    Fits (.anyChar :: marks) (c :: cs)
  | char (c : Char) {marks : List Mark} {cs : List Char} (rest : Fits marks cs) :
    Fits (.char c :: marks) (c :: cs)

theorem fits_anyText_iff {marks : List Mark} {cs : List Char} :
    Fits (.anyText :: marks) cs ↔
      Fits marks cs ∨ ∃ c rest, cs = c :: rest ∧ Fits (.anyText :: marks) rest := by
  constructor
  · intro fits
    cases fits with
    | anyText part rest =>
      cases part with
      | nil => exact .inl rest
      | cons c part => exact .inr ⟨c, _, rfl, .anyText part rest⟩
  · rintro (fits | ⟨c, rest, rfl, fits⟩)
    · exact .anyText [] fits
    · cases fits with
      | anyText part fits => exact .anyText (c :: part) fits

theorem fits_anyChar_iff {marks : List Mark} {c : Char} {cs : List Char} :
    Fits (.anyChar :: marks) (c :: cs) ↔ Fits marks cs := by
  constructor
  · intro fits
    cases fits
    assumption
  · exact .anyChar c

theorem fits_char_iff {marks : List Mark} {m c : Char} {cs : List Char} :
    Fits (.char m :: marks) (c :: cs) ↔ m = c ∧ Fits marks cs := by
  constructor
  · intro fits
    cases fits
    exact ⟨rfl, by assumption⟩
  · rintro ⟨rfl, fits⟩
    exact .char m fits

/-- One step for each mark and each character is enough. -/
theorem matchesMarks_iff {steps : Nat} {marks : List Mark} {cs : List Char}
    (enough : marks.length + cs.length ≤ steps) :
    matchesMarks steps marks cs = true ↔ Fits marks cs := by
  induction steps generalizing marks cs with
  | zero =>
    obtain rfl : marks = [] := List.length_eq_zero_iff.1 (by omega)
    obtain rfl : cs = [] := List.length_eq_zero_iff.1 (by omega)
    exact iff_of_true rfl .nil
  | succ steps ih =>
    cases marks with
    | nil =>
      cases cs with
      | nil => exact iff_of_true rfl .nil
      | cons c cs => exact iff_of_false nofun nofun
    | cons mark marks =>
      rw [List.length_cons] at enough
      cases mark with
      | anyText =>
        rw [fits_anyText_iff]
        cases cs with
        | nil =>
          have step : matchesMarks (steps + 1) (.anyText :: marks) [] =
              (matchesMarks steps marks [] || false) := rfl
          rw [step, Bool.or_false, ih (by omega)]
          exact (or_iff_left nofun).symm
        | cons c cs =>
          rw [List.length_cons] at enough
          have step : matchesMarks (steps + 1) (.anyText :: marks) (c :: cs) =
              (matchesMarks steps marks (c :: cs) || matchesMarks steps (.anyText :: marks) cs) :=
            rfl
          have later : (∃ d rest, c :: cs = d :: rest ∧ Fits (.anyText :: marks) rest) ↔
              Fits (.anyText :: marks) cs := by simp
          rw [step, Bool.or_eq_true, later]
          refine or_congr (ih ?_) (ih ?_) <;> simp only [List.length_cons] <;> omega
      | anyChar =>
        cases cs with
        | nil => exact iff_of_false nofun nofun
        | cons c cs =>
          rw [List.length_cons] at enough
          exact (ih (by omega)).trans fits_anyChar_iff.symm
      | char m =>
        cases cs with
        | nil => exact iff_of_false nofun nofun
        | cons c cs =>
          rw [List.length_cons] at enough
          have step : matchesMarks (steps + 1) (.char m :: marks) (c :: cs) =
              (m == c && matchesMarks steps marks cs) := rfl
          rw [step, Bool.and_eq_true, beq_iff_eq, ih (by omega), fits_char_iff]

/-- A text matches a pattern if it has the form that the marks of the pattern say. -/
theorem matchesPattern_iff {text : String} {pattern : Word} :
    machine.matchesPattern text pattern = true ↔
      Fits (pattern.flatMap machine.marksOf) text.toList := by
  refine matchesMarks_iff ?_
  rw [String.length_toList]
  omega

/-- Between quotes, the marks of a pattern are characters like others. -/
theorem matchesPattern_ofText {text quoted : String} :
    machine.matchesPattern text (.ofText quoted) = true ↔ text = quoted := by
  have marks (cs : List Char) : (piecesOf cs).flatMap machine.marksOf = cs.map .char := by
    induction cs with
    | nil => rfl
    | cons c cs ih =>
      rw [piecesOf]
      have own : machine.marksOf (.char c true) = [.char c] := by
        unfold marksOf
        split <;> simp_all
      split
      · rw [List.flatMap_cons, List.flatMap_cons, ih, own]
        rfl
      · rw [List.flatMap_cons, ih, own]
        rfl
  have fits (cs ds : List Char) : Fits (cs.map .char) ds ↔ ds = cs := by
    induction cs generalizing ds with
    | nil =>
      constructor
      · intro fits
        cases fits
        rfl
      · rintro rfl
        exact .nil
    | cons c cs ih =>
      cases ds with
      | nil => exact iff_of_false nofun nofun
      | cons d ds =>
        rw [List.map_cons, fits_char_iff, ih, List.cons.injEq]
        exact and_congr_left' eq_comm
  rw [matchesPattern_iff, Word.ofText, List.flatMap_cons, marks]
  exact (fits _ _).trans String.toList_inj

end Machine

end Shell

/-! ## Lines for a shell -/

namespace Host

open Shell

/-- What answers to the name of a utility is no shell, and is found under this name. -/
theorem programName_of_run? {tree : Tree} {inShell : Bool} {name : String} {args : List String}
    {effect : Effect} (runs : Utility.run? tree inShell name args = some effect) :
    programName name = name ∧ (name = "sh" || name = "dash") = false := by
  unfold Utility.run? at runs
  split at runs
  all_goals first
    | decide
    | cases runs

/-- A shell that is given a line of texts in quotes runs the utility that they name, and says what
comes of it. -/
theorem spawn_quoteLine {tree : Tree} {limit : Nat} {name : String} {args : List String}
    {effect : Effect} (runs : Utility.run? tree true name args = some effect)
    (written : ∀ text ∈ name :: args, '\x00' ∉ text.toList) :
    spawn tree limit ["sh", "-c", quoteLine (name :: args)] =
      ⟨if limit < effect.delay then .timedOut
       else .finished (outcome effect.status effect.stdout effect.stderr), tree⟩ := by
  have clean : ((["sh", "-c", quoteLine (name :: args)] : List String).any fun word =>
      word.toList.contains '\x00') = false := by
    refine List.any_eq_false.2 fun word listed => ?_
    rw [List.contains_iff_mem]
    intro nul
    simp only [List.mem_cons, List.not_mem_nil, or_false] at listed
    obtain rfl | rfl | rfl := listed
    · revert nul
      decide
    · revert nul
      decide
    · obtain ⟨text, inside, there⟩ := exists_of_mem_quoteLine (by decide) nul
      exact written text inside there
  -- these end the shell, and are no utilities
  have other : name ≠ "exit" ∧ name ≠ "kill" := by
    constructor <;> rintro rfl <;> cases runs
  have shells : programName "sh" = "sh" := by decide
  rw [spawn, if_neg (by rw [clean]; decide)]
  dsimp only
  rw [shells, if_pos (by decide), shell]
  rw [Machine.runScript_quoteLine _ rfl]
  unfold Machine.perform
  rw [if_neg other.1, if_neg other.2, runs]
  dsimp only
  split
  · rfl
  · simp [ofMachine, Machine.emit]

/-- For a utility that does in a shell what it does without one, it makes no difference whether a
shell runs it. -/
theorem spawn_quoteLine_eq {tree : Tree} {limit : Nat} {name : String} {args : List String}
    {effect : Effect} (runs : ∀ inShell, Utility.run? tree inShell name args = some effect)
    (written : ∀ text ∈ name :: args, '\x00' ∉ text.toList) :
    spawn tree limit ["sh", "-c", quoteLine (name :: args)] = spawn tree limit (name :: args) := by
  obtain ⟨own, other⟩ := programName_of_run? (runs false)
  have clean : ((name :: args).any fun word => word.toList.contains '\x00') = false :=
    List.any_eq_false.2 fun word listed => by simpa using written word listed
  refine (spawn_quoteLine (runs true) written).trans ?_
  symm
  rw [spawn, if_neg (by rw [clean]; decide)]
  dsimp only
  rw [own, other, runs false]
  rfl

end Host

end ProxyKeeper
