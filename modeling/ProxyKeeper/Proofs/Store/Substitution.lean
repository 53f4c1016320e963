import ProxyKeeper.Proofs.Store.MainDocument

/-!
# Filling in is substitution

A template is made of literal texts with placeholders between them. To fill it in takes several
passes over the whole text, each over what the passes before it left; the result is the same as if
all placeholders were replaced at once. What a pass could take for a placeholder begins with two
opening braces in a row, and such a pair stands in front of a placeholder's name and nowhere else:
literal texts hold none, a literal brace in front of a placeholder makes three, and a value, which
holds no opening brace and is not empty, keeps the braces on its sides apart.

## Main Definitions

* `Template` — literal texts and the placeholders between them
* `Template.fill` — the text with something in the place of each placeholder

## Main Results

* `Template.noBracePair_fill` — no two opening braces come together
* `Template.fillTemplate_text` — filling in a template is substitution
-/

namespace ProxyKeeper

/-- Texts without two opening braces in a row. -/
theorem noBracePair_iff {cs : List Char} : NoBracePair cs ↔ ¬ ['{', '{'] <:+: cs := by
  rw [NoBracePair, List.isChain_iff_forall_rel_of_append_cons_cons]
  constructor
  · rintro apart ⟨front, back, split⟩
    have whole : cs = front ++ '{' :: '{' :: back := by
      rw [← split, List.append_assoc]
      rfl
    exact apart whole ⟨rfl, rfl⟩
  · rintro none c d front back split ⟨rfl, rfl⟩
    refine none ⟨front, back, ?_⟩
    rw [split, List.append_assoc]
    rfl

/-- Literal texts and the placeholders between them, each with the text behind it. -/
structure Template where
  lead : List Char
  rest : List (Placeholder × List Char)
deriving DecidableEq

/-- A placeholder as it stands in a template. -/
def Placeholder.braced (p : Placeholder) : List Char :=
  ['{', '{'] ++ p.name.toList ++ ['}', '}']

namespace Template

variable {config : ManagerConfig} {template : Template}

/-- The literal texts of a template. -/
def literals (template : Template) : List (List Char) :=
  template.lead :: template.rest.map Prod.snd

/-- The text of a template with something in the place of each placeholder. -/
def fill (template : Template) (replacement : Placeholder → List Char) : List Char :=
  template.lead ++ template.rest.flatMap fun (p, literal) => replacement p ++ literal

/-- The text of a template, as it is written. -/
def text (template : Template) : String :=
  String.ofList (template.fill Placeholder.braced)

/-- The parts of a template, literal texts character by character. -/
def parts (template : Template) : List TemplatePart :=
  template.lead.map .char ++
    template.rest.flatMap fun (p, literal) => .hole p :: literal.map .char

/-- The template that is made of parts. -/
def ofParts : List TemplatePart → Template
  | [] => ⟨[], []⟩
  | .char c :: parts => { ofParts parts with lead := c :: (ofParts parts).lead }
  | .hole p :: parts => ⟨[], (p, (ofParts parts).lead) :: (ofParts parts).rest⟩

theorem flatMap_parts {f : TemplatePart → List Char} (literal : ∀ c, f (.char c) = [c])
    (template : Template) : template.parts.flatMap f = template.fill fun p => f (.hole p) := by
  have same (cs : List Char) : (cs.map TemplatePart.char).flatMap f = cs := by
    rw [List.flatMap_map, funext literal]
    exact List.flatMap_singleton' cs
  rw [parts, fill, List.flatMap_append, same, List.flatMap_assoc]
  simp only [List.flatMap_cons, same]

theorem fill_ofParts (f : TemplatePart → List Char) (literal : ∀ c, f (.char c) = [c])
    (parts : List TemplatePart) :
    (ofParts parts).fill (fun p => f (.hole p)) = parts.flatMap f := by
  induction parts with
  | nil => rfl
  | cons part parts ih =>
    rw [List.flatMap_cons, ← ih]
    cases part with
    | char c => rw [literal]; rfl
    | hole p =>
      simp only [ofParts, fill, List.flatMap_cons, List.nil_append, List.append_assoc]

/-- The values of placeholders keep the braces on their sides apart. -/
def HasValues (config : ManagerConfig) : Prop :=
  ∀ p : Placeholder, p.value config ≠ "" ∧ '{' ∉ (p.value config).toList

/-- No two opening braces come together when a template is filled in. -/
theorem noBracePair_fill (values : HasValues config)
    (clear : ∀ literal ∈ template.literals, NoBracePair literal) :
    NoBracePair (template.fill fun p => (p.value config).toList) := by
  obtain ⟨lead, others⟩ := List.forall_mem_cons.1 clear
  have behind : IsCalm
      (template.rest.flatMap fun (p, literal) => (p.value config).toList ++ literal) := by
    refine .flatMap fun ⟨p, literal⟩ listed => ?_
    obtain ⟨some_value, noBrace⟩ := values p
    have brace {c : Char} (inside : c ∈ (p.value config).toList) : c ≠ '{' := by
      rintro rfl
      exact noBrace inside
    refine ⟨List.isChain_append.2 ⟨?_, others literal (List.mem_map_of_mem listed), ?_⟩, ?_⟩
    · exact noBracePair_iff.2 fun pair => noBrace (pair.subset (List.mem_cons_self ..))
    · rintro c last d _ ⟨same, _⟩
      exact brace (List.mem_of_getLast? last) same
    · intro c first
      rw [List.head?_append_of_ne_nil _ (mt String.toList_eq_nil_iff.1 some_value)] at first
      exact brace (List.mem_of_head? first)
  exact IsCalm.apart_append lead behind

/-- To fill in a template is to put the value of each placeholder in its place, all at once,
whatever the order of the passes; no two opening braces are left. Closing braces may stand
anywhere. The built-in template is one of these. -/
theorem fillTemplate_text (config : ManagerConfig) (template : Template)
    (values : HasValues config) (clear : ∀ literal ∈ template.literals, ¬ ['{', '{'] <:+: literal) :
    config.fillTemplate template.text =
        String.ofList (template.fill fun p => (p.value config).toList) ∧
      ¬ ['{', '{'] <:+: (config.fillTemplate template.text).toList ∧
      ∃ builtIn : Template, builtIn.text = builtInTemplate ∧
        ∀ literal ∈ builtIn.literals, ¬ ['{', '{'] <:+: literal := by
  have written : template.parts.flatMap TemplatePart.written =
      template.fill Placeholder.braced := flatMap_parts (fun _ => rfl) template
  have filled : template.parts.flatMap (TemplatePart.filled config) =
      template.fill fun p => (p.value config).toList := flatMap_parts (fun _ => rfl) template
  have apart := noBracePair_fill values fun literal listed =>
    noBracePair_iff.2 (clear literal listed)
  have substituted : config.fillTemplate template.text =
      String.ofList (template.fill fun p => (p.value config).toList) := by
    rw [text, ← written, ← filled]
    exact TemplatePart.fillTemplate_written (filled ▸ apart)
  have builtIn : (ofParts TemplatePart.builtIn).text = builtInTemplate := by
    rw [TemplatePart.builtInTemplate_eq, text]
    exact congrArg String.ofList (fill_ofParts TemplatePart.written (fun _ => rfl) _)
  refine ⟨substituted, ?_, _, builtIn, ?_⟩
  · rw [substituted, String.toList_ofList]
    exact noBracePair_iff.1 apart
  · have clear : ∀ literal ∈ (ofParts TemplatePart.builtIn).literals, NoBracePair literal := by
      decide +kernel
    exact fun literal listed => noBracePair_iff.1 (clear literal listed)

/-- Single braces beside placeholders, placeholders side by side, and one that comes twice. -/
theorem fillTemplate_text_braces :
    let config : ManagerConfig := { activeDir := ⟨"/a"⟩, cacheZone := "z\x7d" }
    let template : Template :=
      ⟨['{'], [(.cacheZone, ['}', ' ', '{']), (.rateLimitRps, []), (.cacheZone, ['}', '{', '}'])]⟩
    HasValues config ∧ (∀ literal ∈ template.literals, ¬ ['{', '{'] <:+: literal) ∧
      config.fillTemplate template.text = "\x7bz\x7d\x7d \x7b10z\x7d\x7d\x7b\x7d" := by
  intro config template
  have values : HasValues config := by
    intro p
    cases p <;> decide
  have clear : ∀ literal ∈ template.literals, ¬ ['{', '{'] <:+: literal := by decide
  refine ⟨values, clear, ?_⟩
  rw [(fillTemplate_text config template values clear).1]
  decide

end Template

end ProxyKeeper
