import Mathlib.Data.List.Chain
import Mathlib.Tactic.Common
import ProxyKeeper.Proofs.Text.Splitting
import ProxyKeeper.Store.Template

/-!
# Filling in a template

Placeholders are replaced one after another, and each time the whole text is searched, values that
were filled in before included. So a value could be taken for a placeholder, or could make one with
what stands beside it. It cannot when the text that comes out holds no two opening braces in a row:
then every placeholder is replaced by its own value and nothing else changes.

## Main Definitions

* `TemplatePart` — templates as characters and placeholders
* `NoBracePair` — texts without two opening braces in a row

## Main Results

* `TemplatePart.fill_written` — what one pass does
* `TemplatePart.fillTemplate_written` — all passes together are one substitution
-/

namespace ProxyKeeper

/-! ## Search and replace -/

namespace Text

variable {head c : Char} {tail value cs : List Char}

theorem replaceAll_found {rest : List Char} (found : stripLead? (head :: tail) cs = some rest) :
    replaceAll head tail value cs = value ++ replaceAll head tail value rest := by
  rw [replaceAll]
  split
  · rename_i rest' found'
    rw [found] at found'
    obtain rfl := Option.some.inj found'
    rfl
  · rename_i missed
    rw [found] at missed
    cases missed

theorem replaceAll_missed (missed : stripLead? (head :: tail) (c :: cs) = none) :
    replaceAll head tail value (c :: cs) = c :: replaceAll head tail value cs := by
  rw [replaceAll]
  split
  · rename_i found
    rw [missed] at found
    cases found
  · rfl

/-- A pattern does not begin with another character. -/
theorem replaceAll_cons (other : c ≠ head) :
    replaceAll head tail value (c :: cs) = c :: replaceAll head tail value cs :=
  replaceAll_missed (by rw [stripLead?, if_neg (Ne.symm other)])

theorem replaceAll_skip {front : List Char} (other : ∀ c ∈ front, c ≠ head) :
    replaceAll head tail value (front ++ cs) = front ++ replaceAll head tail value cs := by
  induction front with
  | nil => rfl
  | cons c front ih =>
    obtain ⟨first, others⟩ := List.forall_mem_cons.1 other
    rw [List.cons_append, replaceAll_cons first, ih others, List.cons_append]

end Text

/-! ## Templates in parts -/

/-- A part of a template. -/
inductive TemplatePart where
  | char (c : Char)
  | hole (placeholder : Placeholder)

/-- A text without two opening braces in a row. -/
def NoBracePair (cs : List Char) : Prop :=
  cs.IsChain fun c d => ¬ (c = '{' ∧ d = '{')

instance (cs : List Char) : Decidable (NoBracePair cs) :=
  inferInstanceAs (Decidable (List.IsChain _ cs))

namespace Placeholder

variable {p q : Placeholder}

/-- Another placeholder is not taken for one. -/
theorem stripLead?_written_ne (other : p ≠ q) (rest : List Char) :
    Text.stripLead? ('{' :: p.written) ('{' :: (q.written ++ rest)) = none := by
  cases p <;> cases q <;> first | exact absurd rfl other | rfl

/-- One brace in front of a placeholder does not belong to it. -/
theorem stripLead?_written_brace (p : Placeholder) (rest : List Char) :
    Text.stripLead? ('{' :: p.written) ('{' :: '{' :: '{' :: rest) = none := by
  cases p <;> rfl

/-- Behind its first brace a placeholder holds no second pair of braces. -/
theorem replaceAll_written (p q : Placeholder) (value rest : List Char) :
    Text.replaceAll '{' p.written value (q.written ++ rest) =
      q.written ++ Text.replaceAll '{' p.written value rest := by
  have closed : '{' ∉ q.name.toList ++ ['}', '}'] := by
    cases q <;> decide
  have letters : ∀ c ∈ q.name.toList ++ ['}', '}'], c ≠ '{' := by
    rintro _ listed rfl
    exact closed listed
  have brace : q.written ++ rest = '{' :: (q.name.toList ++ ['}', '}'] ++ rest) := rfl
  have missed : Text.stripLead? ('{' :: p.written) (q.written ++ rest) = none := by
    cases q <;> rfl
  rw [brace] at missed ⊢
  rw [Text.replaceAll_missed missed, Text.replaceAll_skip letters]
  rfl

end Placeholder

namespace TemplatePart

variable {config : ManagerConfig} {parts : List TemplatePart}

/-- A text that stands in a template as it is. -/
def ofText (s : String) : List TemplatePart :=
  s.toList.map char

/-- A part as it is written in a template. -/
def written : TemplatePart → List Char
  | char c => [c]
  | hole p => '{' :: p.written

/-- What a part stands for. -/
def filled (config : ManagerConfig) : TemplatePart → List Char
  | char c => [c]
  | hole p => (p.value config).toList

/-- A part when the values of some placeholders are filled in. -/
def fillIn (config : ManagerConfig) (done : List Placeholder) : TemplatePart → List TemplatePart
  | char c => [char c]
  | hole p => if p ∈ done then ofText (p.value config) else [hole p]

theorem written_ofText (s : String) : (ofText s).flatMap written = s.toList := by
  rw [ofText, List.flatMap_map]
  exact List.flatMap_singleton' _

theorem filled_ofText (config : ManagerConfig) (s : String) :
    (ofText s).flatMap (filled config) = s.toList := by
  rw [ofText, List.flatMap_map]
  exact List.flatMap_singleton' _

/-- Filling in some values does not change what a part stands for. -/
theorem filled_fillIn (done : List Placeholder) (part : TemplatePart) :
    (part.fillIn config done).flatMap (filled config) = part.filled config := by
  cases part with
  | char c => rfl
  | hole p =>
    rw [fillIn]
    split_ifs
    · exact filled_ofText config _
    · exact List.flatMap_singleton ..

theorem fillIn_nil (part : TemplatePart) : part.fillIn config [] = [part] := by
  cases part <;> rfl

theorem fillIn_ofText (done : List Placeholder) (s : String) :
    (ofText s).flatMap (fillIn config done) = ofText s := by
  rw [ofText, List.flatMap_map, List.map_eq_flatMap]
  rfl

theorem fillIn_fillIn (done : List Placeholder) (p : Placeholder) (part : TemplatePart) :
    (part.fillIn config done).flatMap (fillIn config [p]) = part.fillIn config (p :: done) := by
  cases part with
  | char c => rfl
  | hole q =>
    by_cases before : q ∈ done
    · rw [fillIn, if_pos before, fillIn, if_pos (List.mem_cons_of_mem _ before), fillIn_ofText]
    · rw [fillIn, if_neg before, List.flatMap_singleton, fillIn, fillIn]
      simp only [List.mem_cons, List.not_mem_nil, or_false, before]

/-- When all values are filled in, a part is written as what it stands for. -/
theorem written_fillIn {done : List Placeholder} (all : ∀ p, p ∈ done) (part : TemplatePart) :
    (part.fillIn config done).flatMap written = part.filled config := by
  cases part with
  | char c => rfl
  | hole p => rw [fillIn, if_pos (all p), written_ofText, filled]

/-- What one pass does. A brace that stands alone never begins a placeholder: the character behind
it is no brace, or it stands in front of a placeholder and its third brace is one too many. -/
theorem fill_written (p : Placeholder) {parts : List TemplatePart}
    (apart : NoBracePair (parts.flatMap (filled config))) :
    p.fill config (parts.flatMap written) =
      (parts.flatMap (fillIn config [p])).flatMap written := by
  rw [Placeholder.fill]
  induction parts with
  | nil => rw [List.flatMap_nil, List.flatMap_nil, List.flatMap_nil, Text.replaceAll]; rfl
  | cons part parts ih =>
    rw [List.flatMap_cons] at apart
    have rest := ih (List.isChain_append.1 apart).2.1
    rw [List.flatMap_cons, List.flatMap_cons, List.flatMap_append, ← rest]
    cases part with
    | hole q =>
      rw [fillIn, written]
      split_ifs with this
      · obtain rfl := List.mem_singleton.1 this
        rw [Text.replaceAll_found (Text.stripLead?_append _ _), written_ofText]
      · have other : p ≠ q := fun same => this (List.mem_singleton.2 same.symm)
        rw [List.cons_append, Text.replaceAll_missed (Placeholder.stripLead?_written_ne other _),
          Placeholder.replaceAll_written, List.flatMap_singleton, written, List.cons_append]
    | char c =>
      have begins (parts : List TemplatePart) (c : Char) :
        (char c :: parts).flatMap written = c :: parts.flatMap written := rfl
      rw [← List.flatMap_cons, begins]
      refine Text.replaceAll_missed ?_
      by_cases brace : c = '{'
      · subst brace
        cases parts with
        | nil => rfl
        | cons next parts =>
          cases next with
          | hole q => exact Placeholder.stripLead?_written_brace p _
          | char d =>
            have single : d ≠ '{' := fun same =>
              (List.isChain_cons_cons.1 apart).1 ⟨rfl, same⟩
            rw [begins, Text.stripLead?, if_pos rfl, Placeholder.written, Text.stripLead?,
              if_neg (Ne.symm single)]
      · rw [Text.stripLead?, if_neg (Ne.symm brace)]

/-- Several passes, when some were made before. -/
theorem foldl_fill (passes done : List Placeholder)
    (apart : NoBracePair (parts.flatMap (filled config))) :
    passes.foldl (fun cs p => p.fill config cs)
        ((parts.flatMap (fillIn config done)).flatMap written) =
      (parts.flatMap (fillIn config (passes.reverse ++ done))).flatMap written := by
  induction passes generalizing done with
  | nil => rfl
  | cons p passes ih =>
    have still : NoBracePair ((parts.flatMap (fillIn config done)).flatMap (filled config)) := by
      rw [List.flatMap_assoc, funext (filled_fillIn done)]
      exact apart
    have both : (parts.flatMap (fillIn config done)).flatMap (fillIn config [p]) =
        parts.flatMap (fillIn config (p :: done)) := by
      rw [List.flatMap_assoc, funext (fillIn_fillIn done p)]
    rw [List.foldl_cons, fill_written p still, both, ih, List.reverse_cons, List.append_assoc,
      List.singleton_append]

/-- Filling in a template puts the value of each placeholder in its place and changes nothing else,
if no two opening braces in a row come out. -/
theorem fillTemplate_written (apart : NoBracePair (parts.flatMap (filled config))) :
    config.fillTemplate (String.ofList (parts.flatMap written)) =
      String.ofList (parts.flatMap (filled config)) := by
  have passes := foldl_fill Placeholder.all [] apart
  have all : ∀ p, p ∈ Placeholder.all.reverse ++ [] := by
    intro p
    cases p <;> decide
  rw [funext fillIn_nil, List.flatMap_singleton', List.flatMap_assoc, funext (written_fillIn all)]
    at passes
  rw [ManagerConfig.fillTemplate, String.toList_ofList, passes]

end TemplatePart

end ProxyKeeper
