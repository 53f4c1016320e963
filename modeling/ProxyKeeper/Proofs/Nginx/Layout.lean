import Mathlib.Tactic.Common
import Mathlib.Tactic.Ring
import ProxyKeeper.Nginx.Document

/-!
# The layout of a document's text

The text of a document is the texts in its nodes with spaces and signs around them, a backslash
here and there, and an end for each line. What is neither of these is in the text as often as in the
nodes; ends of lines are there once more for each line.

## Main Definitions

* `charactersOf` — the characters of the texts in nodes
* `lineCount` — the lines of nodes
* `isMark` — the characters that layout adds inside a line

## Main Results

* `count_writeNodes` — how often a character stands in the lines of nodes
* `Document.count_newline_render`, `Document.mem_render_iff` — what this says of a document
-/

namespace ProxyKeeper.Nginx

mutual

/-- The characters of the texts in a node, and of those in the nodes in it. -/
def Node.characters : Node → List Char
  | .directive name args => name.toList ++ args.flatMap String.toList
  | .block name args children => name.toList ++ args.flatMap String.toList ++ charactersOf children
  | .comment text => text.toList
  | .blank => []

/-- The characters of the texts in nodes. -/
def charactersOf : List Node → List Char
  | [] => []
  | node :: nodes => node.characters ++ charactersOf nodes

end

mutual

/-- The lines of a node: a block has one for each of its braces. -/
def Node.lineCount : Node → Nat
  | .directive _ _ => 1
  | .block _ _ children => Nginx.lineCount children + 2
  | .comment _ => 1
  | .blank => 1

/-- The lines of nodes. -/
def lineCount : List Node → Nat
  | [] => 0
  | node :: nodes => node.lineCount + lineCount nodes

end

/-- The characters that layout adds inside a line. -/
def isMark (c : Char) : Bool :=
  c ∈ [' ', ';', '{', '}', '#', '"', '\\']

variable {c : Char}

theorem charactersOf_append (front back : List Node) :
    charactersOf (front ++ back) = charactersOf front ++ charactersOf back := by
  induction front with
  | nil => rfl
  | cons node front ih => rw [List.cons_append, charactersOf, charactersOf, ih, List.append_assoc]

theorem charactersOf_singleton (node : Node) : charactersOf [node] = node.characters := by
  rw [charactersOf, charactersOf, List.append_nil]

theorem ne_of_isMark (noMark : isMark c = false) {d : Char} (mark : isMark d = true) : d ≠ c := by
  rintro rfl
  rw [mark] at noMark
  cases noMark

/-- Signs do not count. -/
theorem count_marks (noMark : isMark c = false) (signs : List Char)
    (marks : signs.all isMark = true) : signs.count c = 0 :=
  List.count_eq_zero.2 fun inside =>
    ne_of_isMark noMark (List.all_eq_true.1 marks c inside) rfl

/-- Quotes and backslashes are all that is added to an argument. -/
theorem count_quoteArgument (noMark : isMark c = false) (cs : List Char) :
    (quoteArgument cs).count c = cs.count c := by
  have escaped (d : Char) : (escapeQuoted d).count c = [d].count c := by
    rw [escapeQuoted]
    split
    · rw [List.count_cons_of_ne (ne_of_isMark noMark rfl)]
    · rfl
  have escapes : (cs.flatMap escapeQuoted).count c = cs.count c := by
    induction cs with
    | nil => rfl
    | cons d cs ih =>
      rw [List.flatMap_cons, List.count_append, escaped, ih, ← List.count_append,
        List.singleton_append]
  rw [quoteArgument]
  split
  · rw [List.count_cons_of_ne (ne_of_isMark noMark rfl), List.count_append, escapes,
      count_marks noMark ['"'] rfl, Nat.add_zero]
  · rfl

theorem count_writeArguments (noMark : isMark c = false) (args : List String) :
    (writeArguments args).count c = (args.flatMap String.toList).count c := by
  induction args with
  | nil => rfl
  | cons arg args ih =>
    rw [writeArguments] at ih
    rw [writeArguments, List.flatMap_cons, List.flatMap_cons, List.count_append,
      List.count_cons_of_ne (ne_of_isMark noMark rfl), count_quoteArgument noMark, ih,
      List.count_append]

theorem count_indent (noMark : isMark c = false) (depth : Nat) : (indent depth).count c = 0 := by
  refine count_marks noMark _ (List.all_eq_true.2 fun d inside => ?_)
  rw [List.eq_of_mem_replicate inside]
  rfl

/-- A line ends behind some signs. -/
theorem count_ending (noMark : isMark c = false) (signs : List Char)
    (marks : signs.all isMark = true) : (signs ++ ['\n']).count c = ['\n'].count c := by
  rw [List.count_append, count_marks noMark signs marks, Nat.zero_add]

mutual

theorem Node.count_write (noMark : isMark c = false) (depth : Nat) : ∀ node : Node,
    (node.write depth).count c = node.characters.count c + node.lineCount * ['\n'].count c
  | .directive name args => by
    have ending : [';', '\n'].count c = ['\n'].count c := count_ending noMark [';'] rfl
    simp only [Node.write, Node.characters, Node.lineCount, List.count_append, count_indent noMark,
      count_writeArguments noMark, ending]
    ring
  | .block name args children => by
    have opening : [' ', '{', '\n'].count c = ['\n'].count c :=
      count_ending noMark [' ', '{'] rfl
    have closing : ['}', '\n'].count c = ['\n'].count c := count_ending noMark ['}'] rfl
    simp only [Node.write, Node.characters, Node.lineCount, List.count_append, count_indent noMark,
      count_writeArguments noMark, opening, closing, count_writeNodes noMark (depth + 1) children]
    ring
  | .comment text => by
    have lead : ['#', ' '].count c = 0 := count_marks noMark _ rfl
    simp only [Node.write, Node.characters, Node.lineCount, List.count_append, count_indent noMark,
      lead]
    ring
  | .blank => by
    simp only [Node.write, Node.characters, Node.lineCount, List.count_nil]
    ring

/-- A character that layout does not add inside a line stands in the lines of nodes as often as in
their texts; an end of line stands there once more for each line. -/
theorem count_writeNodes (noMark : isMark c = false) (depth : Nat) : ∀ nodes : List Node,
    (writeNodes depth nodes).count c =
      (charactersOf nodes).count c + lineCount nodes * ['\n'].count c
  | [] => by
    rw [writeNodes, charactersOf, lineCount, Nat.zero_mul, Nat.add_zero]
  | node :: nodes => by
    rw [writeNodes, charactersOf, lineCount, List.count_append, List.count_append,
      node.count_write noMark depth, count_writeNodes noMark depth nodes]
    ring

end

namespace Document

variable (document : Document)

/-- The ends of lines in the text of a document whose texts hold none. -/
theorem count_newline_render (none : '\n' ∉ charactersOf document) :
    document.render.toList.count '\n' = lineCount document := by
  rw [render, String.toList_ofList, count_writeNodes (by decide), List.count_eq_zero.2 none,
    List.count_singleton_self, Nat.zero_add, Nat.mul_one]

/-- What layout does not add comes from the texts of a document. -/
theorem mem_render_iff (noMark : isMark c = false) (notEnd : c ≠ '\n') :
    c ∈ document.render.toList ↔ c ∈ charactersOf document := by
  have noEnd : ['\n'].count c = 0 := List.count_eq_zero.2 (by simpa using notEnd)
  rw [← List.count_pos_iff, render, String.toList_ofList, count_writeNodes noMark, noEnd,
    Nat.mul_zero, Nat.add_zero, List.count_pos_iff]

end Document

end ProxyKeeper.Nginx
