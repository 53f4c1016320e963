import ProxyKeeper.Proofs.Nginx.Quoting

/-!
# Words as they stand

Which texts nginx takes for one word when they stand in a configuration just as they are, without a
look at what needs quotes. The signs that begin something else may stand inside a word, and a
backslash keeps any character inside, but stays in the word itself only in front of a character that
it is not dropped before or replaced with.

## Main Definitions

* `staysBare` — a word without quotes goes on to the end of the text
* `isBareWord` — a text is one word
* `isSteady` — characters that have no effect inside a word

## Main Results

* `writes_of_isBareWord` — a bare word is read as what it is
* `staysBare_append` — texts that end in a steady character, one after another
-/

namespace ProxyKeeper.Nginx

/-- The characters that end a word without quotes. -/
def endsWord (c : Char) : Bool :=
  isSeparator c || c == ';' || c == '{'

/-- Whether a word without quotes goes on to the end of a text and stands for what is written. -/
def staysBare : List Char → Bool
  | [] => true
  | ['\\'] => false
  | '\\' :: c :: cs => !isEscapable c && staysBare cs
  | c :: cs => !endsWord c && staysBare cs

/-- Whether a text is one word as it stands. -/
def isBareWord : List Char → Bool
  | [] => false
  | c :: cs => !(c == '}' || c == '#' || c == '"' || c == '\'') && staysBare (c :: cs)

/-- The characters that have no effect inside a word. -/
def isSteady (c : Char) : Bool :=
  !endsWord c && c != '\\'

theorem isSteady_iff {c : Char} :
    isSteady c = true ↔ c ∉ [' ', '\t', '\r', '\n', ';', '{', '\\'] := by
  simp [isSteady, endsWord, isSeparator, and_assoc]

theorem staysBare_cons {c : Char} (steady : c ≠ '\\') (cs : List Char) :
    staysBare (c :: cs) = (!endsWord c && staysBare cs) := by
  rw [staysBare]
  · rintro rfl
    exact absurd rfl steady
  · rintro d ds rfl
    exact absurd rfl steady

/-- A word does not begin with what ends one. -/
theorem not_endsWord_of_staysBare {c : Char} {cs : List Char} (h : staysBare (c :: cs) = true) :
    endsWord c = false := by
  by_cases backslash : c = '\\'
  · rw [backslash]
    decide
  · rw [staysBare_cons backslash, Bool.and_eq_true, Bool.not_eq_true'] at h
    exact h.1

theorem isLiteral_of_staysBare {cs : List Char} (h : staysBare cs = true) :
    isLiteral cs = true := by
  fun_induction staysBare cs with
  | case1 => rfl
  | case2 => cases h
  | case3 c cs ih =>
    rw [Bool.and_eq_true] at h
    rw [isLiteral, h.1, ih h.2]
    rfl
  | case4 c cs h₁ h₂ ih =>
    rw [Bool.and_eq_true] at h
    rw [isLiteral, ih h.2]
    · exact h₁
    · exact h₂

theorem staysBare_of_steady {cs : List Char} (steady : ∀ c ∈ cs, isSteady c = true) :
    staysBare cs = true := by
  induction cs with
  | nil => rfl
  | cons c cs ih =>
    obtain ⟨first, others⟩ := List.forall_mem_cons.1 steady
    rw [isSteady, Bool.and_eq_true, bne_iff_ne] at first
    rw [staysBare_cons first.2, first.1, ih others]
    rfl

/-- Behind a steady character a word goes on as if it began there. -/
theorem staysBare_append {c : Char} (steady : isSteady c = true)
    (escaped : isEscapable c = false) (front back : List Char) :
    staysBare (front ++ c :: back) = (staysBare (front ++ [c]) && staysBare back) := by
  have ends := steady
  rw [isSteady, Bool.and_eq_true, bne_iff_ne] at ends
  fun_induction staysBare front with
  | case1 =>
    rw [List.nil_append, List.nil_append, staysBare_cons ends.2, staysBare_cons ends.2, ends.1]
    rfl
  | case2 => simp [staysBare, escaped]
  | case3 d front ih =>
    rw [List.cons_append, List.cons_append, List.cons_append, List.cons_append, staysBare,
      staysBare, ih, Bool.and_assoc]
  | case4 d front h₁ h₂ ih =>
    have inside : d ≠ '\\' := by
      rintro rfl
      cases front with
      | nil => exact h₁ rfl rfl
      | cons e front => exact h₂ e front rfl rfl
    rw [List.cons_append, List.cons_append, staysBare_cons inside, staysBare_cons inside, ih,
      Bool.and_assoc]

theorem staysBare_of_isBareWord {cs : List Char} (h : isBareWord cs = true) :
    staysBare cs = true := by
  cases cs with
  | nil => rfl
  | cons c cs =>
    rw [isBareWord, Bool.and_eq_true] at h
    exact h.2

/-- A word with more behind it is one when it is one up to a steady character. -/
theorem isBareWord_append {c : Char} (steady : isSteady c = true) (escaped : isEscapable c = false)
    (front back : List Char) :
    isBareWord (front ++ c :: back) = (isBareWord (front ++ [c]) && staysBare back) := by
  have stays := staysBare_append steady escaped front back
  cases front with
  | nil =>
    rw [List.nil_append, List.nil_append] at stays ⊢
    rw [isBareWord, isBareWord, stays, Bool.and_assoc]
  | cons d front =>
    rw [List.cons_append, List.cons_append] at stays ⊢
    rw [isBareWord, isBareWord, stays, Bool.and_assoc]

namespace Lexer

theorem separate?_eq_none_of_not_endsWord (lexer : Lexer) {c : Char} (h : endsWord c = false) :
    lexer.separate? c = none := by
  rw [endsWord, Bool.or_eq_false_iff, Bool.or_eq_false_iff, beq_eq_false_iff_ne,
    beq_eq_false_iff_ne] at h
  rw [separate?, if_neg (by simp [h.1.1]), if_neg h.1.2, if_neg h.2]

/-- Inside a word, a character that does not end it is taken in. -/
theorem step_bare_of_not_endsWord (tokens : List Token) (chars : List Char) {c : Char}
    (h : endsWord c = false) :
    step ⟨.bare chars false, tokens⟩ c = some ⟨.bare (c :: chars) (c = '\\'), tokens⟩ := by
  simp only [step, separate?_eq_none_of_not_endsWord _ h]

theorem steps_staysBare (tokens : List Token) {cs : List Char} (chars : List Char)
    (h : staysBare cs = true) :
    steps ⟨.bare chars false, tokens⟩ cs = some ⟨.bare (cs.reverse ++ chars) false, tokens⟩ := by
  fun_induction staysBare cs generalizing chars with
  | case1 => rfl
  | case2 => cases h
  | case3 c cs ih =>
    rw [Bool.and_eq_true] at h
    have backslash : step ⟨.bare chars false, tokens⟩ '\\' =
        some ⟨.bare ('\\' :: chars) true, tokens⟩ := rfl
    rw [steps_cons, backslash, Option.bind_some, steps_cons, step, Option.bind_some,
      ih _ h.2]
    simp
  | case4 c cs h₁ h₂ ih =>
    have inside : c ≠ '\\' := by
      rintro rfl
      cases cs with
      | nil => exact h₁ rfl rfl
      | cons d ds => exact h₂ d ds rfl rfl
    rw [Bool.and_eq_true, Bool.not_eq_true'] at h
    rw [steps_cons, step_bare_of_not_endsWord tokens chars h.1, Option.bind_some,
      decide_eq_false inside, ih _ h.2]
    simp

end Lexer

/-- A bare word is read as what it is. -/
theorem writes_of_isBareWord {cs : List Char} (h : isBareWord cs = true) : Writes cs cs := by
  cases cs with
  | nil => cases h
  | cons c cs =>
    rw [isBareWord, Bool.and_eq_true, Bool.not_eq_true'] at h
    obtain ⟨begins, stays⟩ := h
    simp only [Bool.or_eq_false_iff, beq_eq_false_iff_ne] at begins
    have ends := not_endsWord_of_staysBare stays
    intro tokens d hd
    -- the first character puts the lexer where the others would leave it from an empty word
    have first : Lexer.step ⟨.between, tokens⟩ c = Lexer.step ⟨.bare [] false, tokens⟩ c := by
      rw [Lexer.step_bare_of_not_endsWord tokens [] ends, Lexer.step, Lexer.begin,
        Lexer.separate?_eq_none_of_not_endsWord _ ends]
      simp [begins]
    have same := ((isLiteral_iff _).1 (isLiteral_of_staysBare stays)).1
    rw [Lexer.steps_append, Lexer.steps_cons, first, ← Lexer.steps_cons,
      Lexer.steps_staysBare tokens [] stays, Option.bind_some, Lexer.steps_cons,
      Lexer.step_bare_of_isStop tokens _ hd, List.append_nil, List.reverse_reverse, same]
    rfl

end ProxyKeeper.Nginx
