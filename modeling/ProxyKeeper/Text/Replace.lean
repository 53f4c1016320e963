/-!
# Search and replace

Replacing every occurrence of a pattern, found from the left and without overlap, and cutting a
text at a separator.

## Main Definitions

* `stripLead?`: the rest of a text after a given beginning.
* `replaceAll`: the text with every occurrence of a pattern replaced.
* `splitOn`: the pieces of a text between separators.
-/

namespace ProxyKeeper.Text

/-- The rest of a text after the beginning `lead`, when it begins so. -/
def stripLead? : (lead cs : List Char) → Option (List Char)
  | [], cs => some cs
  | _ :: _, [] => none
  | p :: lead, c :: cs => if p = c then stripLead? lead cs else none

/-- A text is its beginning and what follows. -/
theorem eq_append_of_stripLead? {lead cs rest : List Char} (h : stripLead? lead cs = some rest) :
    cs = lead ++ rest := by
  induction lead generalizing cs with
  | nil => exact Option.some.inj h
  | cons p lead ih =>
    cases cs with
    | nil => simp [stripLead?] at h
    | cons c cs =>
      rw [stripLead?] at h
      split at h
      next same => rw [same, ih h, List.cons_append]
      next => simp at h

/-- What follows a beginning is no longer than the text. -/
theorem length_of_stripLead? {lead cs rest : List Char} (h : stripLead? lead cs = some rest) :
    rest.length + lead.length = cs.length := by
  rw [eq_append_of_stripLead? h, List.length_append, Nat.add_comm]

/-- The text with every occurrence of the pattern `head :: tail` replaced by `value`, from the
left and without overlap. -/
def replaceAll (head : Char) (tail value : List Char) (cs : List Char) : List Char :=
  match _h : stripLead? (head :: tail) cs with
  | some rest => value ++ replaceAll head tail value rest
  | none =>
    match cs with
    | [] => []
    | c :: cs => c :: replaceAll head tail value cs
termination_by cs.length
decreasing_by
  · have := length_of_stripLead? _h
    simp only [List.length_cons] at this
    omega
  · simp

/-- Whether a text holds another one somewhere. -/
def contains (needle : List Char) : List Char → Bool
  | [] => needle.isEmpty
  | c :: cs => (stripLead? needle (c :: cs)).isSome || contains needle cs

/-- Cuts a text at a separator from the left, with the characters of the current piece reversed
in `piece`. -/
def splitFrom (separator : Char) (piece : List Char) : List Char → List (List Char)
  | [] => [piece.reverse]
  | c :: cs =>
    if c = separator then piece.reverse :: splitFrom separator [] cs
    else splitFrom separator (c :: piece) cs

/-- The pieces of a text between separators: one more than there are separators. -/
def splitOn (separator : Char) (cs : List Char) : List (List Char) :=
  splitFrom separator [] cs

end ProxyKeeper.Text
