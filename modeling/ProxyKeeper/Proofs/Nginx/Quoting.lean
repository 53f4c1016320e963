import Mathlib.Tactic.Common
import ProxyKeeper.Nginx.Lexer
import ProxyKeeper.Nginx.Word

/-!
# Written arguments under the lexer

An argument is written as it is, or between double quotes. The lexer undoes the quotes exactly. A
word without quotes it takes as it is only while no backslash is *live*: one at the end of the word
draws the next character in, and one in front of a backslash or of a `t`, `r` or `n` is replaced
together with it.

## Main Definitions

* `isLiteral` — a word without quotes that holds no live backslash
* `isFaithful` — an argument that needs quotes, or is literal
* `Writes` — characters that the lexer reads as one word
* `Lexer.scanFrom?` — all tokens, once the lexer is on its way

## Main Results

* `isLiteral_iff` — a literal word is one that the lexer neither changes nor leaves open
* `writes_quoteArgument` — a faithful argument is read as the word it stands for
* `not_prefix_of_unfaithful` — any other argument is never read so, whatever follows it
-/

namespace ProxyKeeper.Nginx

/-! ## Literal words -/

/-- The characters that a backslash in front is dropped before or replaced with. -/
def isEscapable (c : Char) : Bool :=
  c == '\\' || c == '"' || c == '\'' || c == 't' || c == 'r' || c == 'n'

/-- Whether a word stands for itself when it is written without quotes. -/
def isLiteral : List Char → Bool
  | [] => true
  | ['\\'] => false
  | '\\' :: c :: cs => !isEscapable c && isLiteral cs
  | _ :: cs => isLiteral cs

/-- Whether a backslash at the end of a word waits for one character more. -/
def endsEscaped : List Char → Bool
  | [] => false
  | ['\\'] => true
  | '\\' :: _ :: cs => endsEscaped cs
  | _ :: cs => endsEscaped cs

/-- Whether an argument is read as what it is: it needs quotes, or is literal. -/
def isFaithful (cs : List Char) : Bool :=
  needsQuotes cs || isLiteral cs

theorem unescape_cons {c : Char} (hc : c ≠ '\\') (cs : List Char) :
    unescape (c :: cs) = c :: unescape cs := by
  rw [unescape]
  rintro _ _ rfl
  exact absurd rfl hc

theorem unescape_pair {c : Char} (hc : isEscapable c = false) (cs : List Char) :
    unescape ('\\' :: c :: cs) = '\\' :: c :: unescape cs := by
  simp only [isEscapable, Bool.or_eq_false_iff, beq_eq_false_iff_ne] at hc
  simp [unescape, hc]

/-- A word is never longer than what was written for it. -/
theorem length_unescape_le (cs : List Char) : (unescape cs).length ≤ cs.length := by
  fun_induction unescape cs <;> simp only [List.length_cons, List.length_nil] <;> omega

/-- A backslash that is dropped or replaced changes the word. -/
theorem unescape_pair_ne {c : Char} (hc : isEscapable c = true) (cs : List Char) :
    unescape ('\\' :: c :: cs) ≠ '\\' :: c :: cs := by
  have shorter := length_unescape_le cs
  intro h
  have length := congrArg List.length h
  rw [unescape] at length
  simp only [isEscapable, Bool.or_eq_true, beq_iff_eq] at hc
  split_ifs at length <;> simp only [List.length_cons] at length <;> grind

/-- A literal word is one that the lexer neither changes nor leaves open. -/
theorem isLiteral_iff (cs : List Char) :
    isLiteral cs = true ↔ unescape cs = cs ∧ endsEscaped cs = false := by
  fun_induction isLiteral cs with
  | case1 => simp [unescape, endsEscaped]
  | case2 => simp [endsEscaped]
  | case3 c cs ih =>
    rw [Bool.and_eq_true, Bool.not_eq_true', ih, endsEscaped]
    cases hc : isEscapable c with
    | true => simp [unescape_pair_ne hc]
    | false => simp [unescape_pair hc]
  | case4 c cs h₁ h₂ ih =>
    have hc : c ≠ '\\' := by
      rintro rfl
      cases cs with
      | nil => exact h₁ rfl rfl
      | cons d ds => exact h₂ d ds rfl rfl
    rw [ih, unescape_cons hc, endsEscaped]
    · simp
    · exact h₁
    · exact h₂

/-- A word without backslashes is literal. -/
theorem isLiteral_of_notMem {cs : List Char} (h : '\\' ∉ cs) : isLiteral cs = true := by
  induction cs with
  | nil => rfl
  | cons c cs ih =>
    rw [List.mem_cons, not_or] at h
    rw [isLiteral, ih h.2]
    · rintro rfl
      exact absurd rfl h.1
    · rintro d ds rfl
      exact absurd rfl h.1

/-- What is written between quotes for an argument stands for the argument. -/
theorem unescape_escapeQuoted (cs : List Char) : unescape (cs.flatMap escapeQuoted) = cs := by
  induction cs with
  | nil => rfl
  | cons c cs ih =>
    rw [List.flatMap_cons, escapeQuoted]
    split_ifs with h
    · simp only [Bool.or_eq_true, beq_iff_eq] at h
      rcases h with rfl | rfl <;> simp [unescape, ih]
    · simp only [Bool.or_eq_true, beq_iff_eq, not_or] at h
      rw [List.singleton_append, unescape_cons h.2, ih]

/-- A character with no part in escapes is in the word if it was written. -/
theorem mem_unescape {c : Char} (hc : isEscapable c = false) {cs : List Char} (h : c ∈ cs) :
    c ∈ unescape cs := by
  simp only [isEscapable, Bool.or_eq_false_iff, beq_eq_false_iff_ne] at hc
  fun_induction unescape cs <;> grind

/-! ## Characters that need quotes -/

theorem not_isSpecial_of_not_needsQuotes {cs : List Char} (h : needsQuotes cs = false) {c : Char}
    (hc : c ∈ cs) : isSpecial c = false := by
  rw [needsQuotes, Bool.or_eq_false_iff, List.any_eq_false] at h
  simpa using h.2 c hc

/-- A character that needs no quotes does not end a word. -/
theorem Lexer.separate?_eq_none (lexer : Lexer) {c : Char} (hc : isSpecial c = false) :
    lexer.separate? c = none := by
  have hs : isSeparator c = false := by
    rw [isSeparator]
    by_contra h
    simp only [Bool.not_eq_false, Bool.or_eq_true, beq_iff_eq] at h
    rcases h with ((rfl | rfl) | rfl) | rfl <;> exact absurd hc (by decide)
  simp only [isSpecial, Bool.or_eq_false_iff, beq_eq_false_iff_ne] at hc
  simp [Lexer.separate?, hs, hc]

/-! ## Words without quotes -/

/-- A character that follows a word: a space, or the semicolon of a directive. -/
def IsStop (d : Char) : Prop :=
  d = ' ' ∨ d = ';'

namespace Lexer

theorem steps_cons (lexer : Lexer) (c : Char) (cs : List Char) :
    lexer.steps (c :: cs) = (lexer.step c).bind fun lexer => lexer.steps cs := rfl

/-- Inside a word, a character that needs no quotes is taken in. -/
theorem step_bare (tokens : List Token) (chars : List Char) {c : Char}
    (plain : isSpecial c = false) :
    step ⟨.bare chars false, tokens⟩ c = some ⟨.bare (c :: chars) (c = '\\'), tokens⟩ := by
  simp only [step, separate?_eq_none _ plain]

/-- A space or a semicolon ends a word and then means what it means between words. -/
theorem step_bare_of_isStop (tokens : List Token) (chars : List Char) {d : Char}
    (hd : IsStop d) :
    step ⟨.bare chars false, tokens⟩ d =
      some (begin ⟨.between, .word (unescape chars.reverse) :: tokens⟩ d) := by
  rcases hd with rfl | rfl <;> rfl

theorem step_behind_of_isStop (tokens : List Token) {d : Char} (hd : IsStop d) :
    step ⟨.behind, tokens⟩ d = some (begin ⟨.between, tokens⟩ d) := by
  rcases hd with rfl | rfl <;> rfl

theorem steps_bare (tokens : List Token) (cs chars : List Char)
    (plain : ∀ c ∈ cs, isSpecial c = false) :
    steps ⟨.bare chars false, tokens⟩ cs =
      some ⟨.bare (cs.reverse ++ chars) (endsEscaped cs), tokens⟩ := by
  fun_induction endsEscaped cs generalizing chars with
  | case1 => rfl
  | case2 => rfl
  | case3 c cs ih =>
    rw [steps, step_bare tokens chars (plain _ (by simp)), Option.bind_some, steps]
    simp only [step, decide_true, Option.bind_some]
    rw [ih (c :: '\\' :: chars) fun d hd => plain d (by simp [hd])]
    simp
  | case4 c cs h₁ h₂ ih =>
    have hc : c ≠ '\\' := by
      rintro rfl
      cases cs with
      | nil => exact h₁ rfl rfl
      | cons d ds => exact h₂ d ds rfl rfl
    rw [steps, step_bare tokens chars (plain c (by simp)), Option.bind_some, decide_eq_false hc,
      ih (c :: chars) fun d hd => plain d (by simp [hd])]
    simp

/-- A word without quotes that was begun and read to its end. -/
theorem steps_plain (tokens : List Token) {cs : List Char} (h : needsQuotes cs = false) :
    steps ⟨.between, tokens⟩ cs = some ⟨.bare cs.reverse (endsEscaped cs), tokens⟩ := by
  have plain : ∀ c ∈ cs, isSpecial c = false := fun c => not_isSpecial_of_not_needsQuotes h
  cases cs with
  | nil => simp [needsQuotes] at h
  | cons c cs =>
    -- The first character puts the lexer where the others would leave it from an empty word.
    have first : step ⟨.between, tokens⟩ c = step ⟨.bare [] false, tokens⟩ c := by
      have hc := plain c (by simp)
      rw [step_bare tokens [] hc, step, begin, separate?_eq_none _ hc]
      simp only [isSpecial, Bool.or_eq_false_iff, beq_eq_false_iff_ne] at hc
      simp [hc]
    rw [steps_cons, first, ← steps_cons, steps_bare tokens (c :: cs) [] plain, List.append_nil]

end Lexer

/-! ## Arguments that are read as what they are -/

/-- Characters that the lexer reads as a word, if a space or a semicolon follows. -/
def Writes (written word : List Char) : Prop :=
  ∀ (tokens : List Token) (d : Char), IsStop d →
    Lexer.steps ⟨.between, tokens⟩ (written ++ [d]) =
      some (Lexer.begin ⟨.between, .word word :: tokens⟩ d)

theorem writes_of_isLiteral {cs : List Char} (plain : needsQuotes cs = false)
    (literal : isLiteral cs = true) : Writes cs cs := by
  intro tokens d hd
  obtain ⟨same, closed⟩ := (isLiteral_iff cs).1 literal
  rw [Lexer.steps_append, Lexer.steps_plain tokens plain, Option.bind_some, closed,
    Lexer.steps_cons, Lexer.step_bare_of_isStop tokens _ hd, List.reverse_reverse, same]
  rfl

/-- Between quotes, what stands for an argument is taken in without an end of the word. -/
theorem Lexer.steps_escapeQuoted (tokens : List Token) (cs chars : List Char) :
    Lexer.steps ⟨.quoted '"' chars false, tokens⟩ (cs.flatMap escapeQuoted) =
      some ⟨.quoted '"' ((cs.flatMap escapeQuoted).reverse ++ chars) false, tokens⟩ := by
  induction cs generalizing chars with
  | nil => rfl
  | cons c cs ih =>
    rw [List.flatMap_cons, Lexer.steps_append, escapeQuoted]
    split_ifs with h
    · simp only [Lexer.steps, Lexer.step]
      rw [if_neg (by decide), Option.bind_some]
      simp only [decide_true, Option.bind_some]
      rw [ih]
      simp
    · simp only [Bool.or_eq_true, beq_iff_eq, not_or] at h
      simp only [Lexer.steps, Lexer.step, Option.bind_some, if_neg h.1, decide_eq_false h.2]
      rw [ih]
      simp

theorem writes_quoted (cs : List Char) : Writes ('"' :: (cs.flatMap escapeQuoted ++ ['"'])) cs := by
  intro tokens d hd
  have closing : ∀ chars, Lexer.step ⟨.quoted '"' chars false, tokens⟩ '"' =
    some ⟨.behind, .word (unescape chars.reverse) :: tokens⟩ := fun _ => rfl
  calc
    Lexer.steps ⟨.between, tokens⟩ ('"' :: (cs.flatMap escapeQuoted ++ ['"']) ++ [d])
    _ = Lexer.steps ⟨.quoted '"' [] false, tokens⟩ (cs.flatMap escapeQuoted ++ ['"', d]) := by
      rw [List.cons_append, List.append_assoc]
      rfl
    _ = Lexer.steps ⟨.behind, .word cs :: tokens⟩ [d] := by
      rw [Lexer.steps_append, Lexer.steps_escapeQuoted, Option.bind_some, List.append_nil,
        Lexer.steps_cons, closing, Option.bind_some, List.reverse_reverse, unescape_escapeQuoted]
    _ = some (Lexer.begin ⟨.between, .word cs :: tokens⟩ d) := by
      rw [Lexer.steps_cons, Lexer.step_behind_of_isStop _ hd]
      rfl

/-- A faithful argument is read as the word it stands for. -/
theorem writes_quoteArgument {cs : List Char} (h : isFaithful cs = true) :
    Writes (quoteArgument cs) cs := by
  rw [quoteArgument]
  split_ifs with quotes
  · exact writes_quoted cs
  · rw [Bool.not_eq_true] at quotes
    rw [isFaithful, quotes, Bool.false_or] at h
    exact writes_of_isLiteral quotes h

/-! ## Arguments that are not -/

namespace Lexer

theorem tokens_of_separate? {lexer next : Lexer} {c : Char} (h : lexer.separate? c = some next) :
    lexer.tokens <:+ next.tokens := by
  unfold separate? at h
  split_ifs at h <;> obtain rfl := Option.some.inj h <;> simp [emit]

theorem tokens_of_begin (lexer : Lexer) (c : Char) : lexer.tokens <:+ (lexer.begin c).tokens := by
  unfold begin
  split
  · rename_i h
    exact tokens_of_separate? h
  · split_ifs <;> simp [emit]

/-- All tokens of a text whose beginning is already read. -/
def scanFrom? (lexer : Lexer) (cs : List Char) : Option (List Token) :=
  (lexer.steps cs).bind finish?

theorem scanFrom?_append (lexer : Lexer) (front back : List Char) :
    lexer.scanFrom? (front ++ back) =
      (lexer.steps front).bind fun lexer => lexer.scanFrom? back := by
  rw [scanFrom?, steps_append, Option.bind_assoc]
  rfl

theorem scanFrom?_cons (lexer : Lexer) (c : Char) (cs : List Char) :
    lexer.scanFrom? (c :: cs) = (lexer.step c).bind fun lexer => lexer.scanFrom? cs := by
  rw [scanFrom?, steps_cons, Option.bind_assoc]
  rfl

/-- A step only adds tokens. -/
theorem tokens_of_step {lexer next : Lexer} {c : Char} (h : lexer.step c = some next) :
    lexer.tokens <:+ next.tokens := by
  obtain ⟨mode, tokens⟩ := lexer
  cases mode with
  | between =>
    obtain rfl := Option.some.inj h
    exact tokens_of_begin _ c
  | comment =>
    obtain rfl := Option.some.inj h
    split_ifs <;> exact List.suffix_rfl
  | bare chars escaped =>
    cases escaped with
    | true =>
      obtain rfl := Option.some.inj h
      exact List.suffix_rfl
    | false =>
      simp only [step] at h
      split at h
      · rename_i hs
        obtain rfl := Option.some.inj h
        exact (List.suffix_cons _ _).trans (tokens_of_separate? hs)
      · obtain rfl := Option.some.inj h
        exact List.suffix_rfl
  | quoted quote chars escaped =>
    cases escaped with
    | true =>
      obtain rfl := Option.some.inj h
      exact List.suffix_rfl
    | false =>
      simp only [step] at h
      split_ifs at h <;> obtain rfl := Option.some.inj h
      · exact List.suffix_cons _ _
      · exact List.suffix_rfl
  | behind => exact tokens_of_separate? h

theorem eq_of_finish? {lexer : Lexer} {all : List Token} (h : lexer.finish? = some all) :
    all = lexer.tokens.reverse := by
  obtain ⟨mode, tokens⟩ := lexer
  cases mode <;> simp [finish?] at h <;> exact h.symm

/-- The tokens of a text begin with those already read. -/
theorem prefix_of_scanFrom? {lexer : Lexer} {cs : List Char} {all : List Token}
    (h : lexer.scanFrom? cs = some all) : lexer.tokens.reverse <+: all := by
  induction cs generalizing lexer with
  | nil =>
    obtain rfl := eq_of_finish? h
    exact List.prefix_rfl
  | cons c cs ih =>
    rw [scanFrom?_cons] at h
    obtain ⟨next, hs, h⟩ := Option.bind_eq_some_iff.1 h
    exact (List.reverse_prefix.2 (tokens_of_step hs)).trans (ih h)

/-- The token after the ones already read is the word that the lexer is in, with what follows. -/
theorem exists_word_of_bare {chars : List Char} {escaped : Bool} {tokens : List Token}
    {cs : List Char} {all : List Token}
    (h : scanFrom? ⟨.bare chars escaped, tokens⟩ cs = some all) :
    ∃ more, tokens.reverse ++ [.word (unescape (chars.reverse ++ more))] <+: all := by
  induction cs generalizing chars escaped with
  | nil => simp [scanFrom?, steps, finish?] at h
  | cons c cs ih =>
    -- Either the word goes on with `c`, or it ends here and its token stays where it is.
    have goOn : ∀ escaped, scanFrom? ⟨.bare (c :: chars) escaped, tokens⟩ cs = some all →
        ∃ more, tokens.reverse ++ [.word (unescape (chars.reverse ++ more))] <+: all := by
      intro escaped h
      obtain ⟨more, hm⟩ := ih h
      exact ⟨c :: more, by simpa using hm⟩
    rw [scanFrom?_cons] at h
    cases escaped with
    | true => exact goOn false h
    | false =>
      simp only [step] at h
      split at h
      · rename_i next hs
        refine ⟨[], ?_⟩
        have first := tokens_of_separate? hs
        have ended := (List.reverse_prefix.2 first).trans (prefix_of_scanFrom? h)
        simpa [endWord, emit] using ended
      · exact goOn _ h

end Lexer

/-- An argument that is not faithful is never read as what it is, whatever follows it. -/
theorem not_prefix_of_unfaithful {cs : List Char} (h : isFaithful cs = false) {d : Char}
    (hd : IsStop d) {tokens : List Token} {rest : List Char} {all : List Token}
    (scanned : Lexer.scanFrom? ⟨.between, tokens⟩ (quoteArgument cs ++ d :: rest) = some all) :
    ¬ tokens.reverse ++ [.word cs] <+: all := by
  obtain ⟨plain, live⟩ := Bool.or_eq_false_iff.1 h
  rw [quoteArgument, if_neg (by simp [plain]), Lexer.scanFrom?_append,
    Lexer.steps_plain tokens plain, Option.bind_some, Lexer.scanFrom?_cons] at scanned
  -- Whichever word the lexer finds at this place, it is not `cs`.
  have differs : ∀ word, word ≠ cs → tokens.reverse ++ [.word word] <+: all →
      ¬ tokens.reverse ++ [.word cs] <+: all := by
    intro word hne hw hcs
    have same := (List.prefix_of_prefix_length_le hw hcs (by simp)).eq_of_length (by simp)
    simp only [List.append_cancel_left_eq, List.cons.injEq, Token.word.injEq, and_true] at same
    exact hne same
  cases hb : endsEscaped cs with
  | true =>
    -- The backslash at the end draws in the character that should have ended the word.
    rw [hb] at scanned
    obtain ⟨more, hm⟩ := Lexer.exists_word_of_bare scanned
    refine differs _ ?_ hm
    intro same
    have drawn : d ∈ unescape ((d :: cs.reverse).reverse ++ more) := by
      refine mem_unescape ?_ (by simp)
      rcases hd with rfl | rfl <;> rfl
    rw [same] at drawn
    have special : isSpecial d = true := by rcases hd with rfl | rfl <;> rfl
    rw [not_isSpecial_of_not_needsQuotes plain drawn] at special
    exact Bool.noConfusion special
  | false =>
    rw [hb, Lexer.step_bare_of_isStop tokens _ hd, Option.bind_some, List.reverse_reverse]
      at scanned
    refine differs (unescape cs) ?_ ?_
    · intro same
      rw [(isLiteral_iff cs).2 ⟨same, hb⟩] at live
      exact Bool.noConfusion live
    · refine List.IsPrefix.trans ?_ (Lexer.prefix_of_scanFrom? scanned)
      have first := Lexer.tokens_of_begin ⟨.between, .word (unescape cs) :: tokens⟩ d
      simpa using List.reverse_prefix.2 first

end ProxyKeeper.Nginx
