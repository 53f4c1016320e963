import Mathlib.Data.List.Forall2
import ProxyKeeper.Proofs.Nginx.ReadBack

/-!
# The printed form of documents

The text of a document says all that the document holds, down to its comments and empty lines: a
reader that takes the words of the text literally gives the document back. It is not the reader that
nginx has, for nginx replaces some backslashes in words without quotes, so two documents with
different texts can be the same to nginx; but no two documents have the same text.

## Main Definitions

* `Node.isLegible`, `areLegible` — names are words without quotes and comments stay on their line
* `PrintedReader` — the reader on its way, one character after another
* `PrintedReader.ReadsAs` — the words of a text and the arguments they stand for
* `Document.readPrinted?` — the document that a text was printed from

## Main Results

* `Document.readPrinted?_directive`, `Document.readPrinted?_block` — lines are read word by word
* `Document.readPrinted?_render` — a printed document is read as what it is
* `Document.render_inj` — different documents have different texts
-/

namespace ProxyKeeper.Nginx

mutual

/-- Whether the names in a node need no quotes and its comments stay on their line. -/
def Node.isLegible : Node → Bool
  | .directive name _ => !needsQuotes name.toList
  | .block name _ children => !needsQuotes name.toList && areLegible children
  | .comment text => !text.toList.contains '\n'
  | .blank => true

/-- Whether nodes are legible. -/
def areLegible : List Node → Bool
  | [] => true
  | node :: nodes => node.isLegible && areLegible nodes

end

mutual

/-- Literal words need no quotes. -/
theorem Node.isLegible_of_isPlain : ∀ (node : Node) (_ : node.isPlain = true),
    node.isLegible = true
  | .directive name args, plain => by
    rw [Node.isPlain, isName, Bool.and_eq_true] at plain
    exact plain.1
  | .block name args children, plain => by
    rw [Node.isPlain, isName, Bool.and_eq_true, Bool.and_eq_true] at plain
    rw [Node.isLegible, plain.1.1, areLegible_of_arePlain children plain.2]
    rfl
  | .comment _, plain => plain
  | .blank, _ => rfl

theorem areLegible_of_arePlain : ∀ (nodes : List Node) (_ : arePlain nodes = true),
    areLegible nodes = true
  | [], _ => rfl
  | node :: nodes, plain => by
    rw [arePlain, Bool.and_eq_true] at plain
    rw [areLegible, node.isLegible_of_isPlain plain.1, areLegible_of_arePlain nodes plain.2]
    rfl

end

/-! ## The reader -/

/-- Where the reader is. The words of a line and the characters of a word are kept last first. -/
inductive PrintedMode where
  /-- In the spaces in front of a line. -/
  | indented
  /-- Right behind the hash sign of a comment. -/
  | hash
  | comment (chars : List Char)
  /-- Behind a space, where a word or the brace of a block begins. -/
  | between (words : List String)
  | bare (words : List String) (chars : List Char)
  /-- In a word between quotes; `escaped` says whether a backslash came just before. -/
  | quoted (words : List String) (chars : List Char) (escaped : Bool)
  /-- Right behind the quote at the end of a word. -/
  | behind (words : List String)
  /-- Where a line has to end. -/
  | ended

/-- The reader on its way: where it is, the nodes of the innermost block so far, last first, and the
blocks that are open, the innermost first. -/
structure PrintedReader where
  mode : PrintedMode := .indented
  nodes : List Node := []
  blocks : List OpenBlock := []

namespace PrintedReader

/-- What the character behind a word does: a space, or the semicolon of a directive. -/
def endWord? (nodes : List Node) (blocks : List OpenBlock) (words : List String) (c : Char) :
    Option PrintedReader :=
  if c = ' ' then some ⟨.between words, nodes, blocks⟩
  else if c = ';' then
    match words.reverse with
    | [] => none
    | name :: args => some ⟨.ended, .directive name args :: nodes, blocks⟩
  else none

/-- Opens a block, under the words in front of its brace. -/
def open? (nodes : List Node) (blocks : List OpenBlock) (words : List String) :
    Option PrintedReader :=
  match words.reverse with
  | [] => none
  | name :: args => some ⟨.ended, [], ⟨name, args, nodes⟩ :: blocks⟩

/-- Closes the innermost block. -/
def close? (nodes : List Node) : List OpenBlock → Option PrintedReader
  | [] => none
  | block :: blocks =>
    some ⟨.ended, .block block.name block.args nodes.reverse :: block.before, blocks⟩

/-- One character more; none when it may not stand there. -/
def step : PrintedReader → Char → Option PrintedReader
  | ⟨.indented, nodes, blocks⟩, c =>
    if c = ' ' then some ⟨.indented, nodes, blocks⟩
    else if c = '\n' then some ⟨.indented, .blank :: nodes, blocks⟩
    else if c = '#' then some ⟨.hash, nodes, blocks⟩
    else if c = '}' then close? nodes blocks
    else some ⟨.bare [] [c], nodes, blocks⟩
  | ⟨.hash, nodes, blocks⟩, c => if c = ' ' then some ⟨.comment [], nodes, blocks⟩ else none
  | ⟨.comment chars, nodes, blocks⟩, c =>
    if c = '\n' then some ⟨.indented, .comment (String.ofList chars.reverse) :: nodes, blocks⟩
    else some ⟨.comment (c :: chars), nodes, blocks⟩
  | ⟨.between words, nodes, blocks⟩, c =>
    if c = '{' then open? nodes blocks words
    else if c = '"' then some ⟨.quoted words [] false, nodes, blocks⟩
    else some ⟨.bare words [c], nodes, blocks⟩
  | ⟨.bare words chars, nodes, blocks⟩, c =>
    if c = ' ' ∨ c = ';' then endWord? nodes blocks (String.ofList chars.reverse :: words) c
    else some ⟨.bare words (c :: chars), nodes, blocks⟩
  | ⟨.quoted words chars true, nodes, blocks⟩, c =>
    some ⟨.quoted words (c :: chars) false, nodes, blocks⟩
  | ⟨.quoted words chars false, nodes, blocks⟩, c =>
    if c = '"' then some ⟨.behind (String.ofList chars.reverse :: words), nodes, blocks⟩
    else if c = '\\' then some ⟨.quoted words chars true, nodes, blocks⟩
    else some ⟨.quoted words (c :: chars) false, nodes, blocks⟩
  | ⟨.behind words, nodes, blocks⟩, c => endWord? nodes blocks words c
  | ⟨.ended, nodes, blocks⟩, c => if c = '\n' then some ⟨.indented, nodes, blocks⟩ else none

/-- Several characters more. -/
def steps (reader : PrintedReader) (cs : List Char) : Option PrintedReader :=
  cs.foldlM step reader

/-- The document at the end of a text; none when a line or a block is not complete. -/
def finish? : PrintedReader → Option Document
  | ⟨.indented, nodes, []⟩ => some nodes.reverse
  | _ => none

variable {nodes : List Node} {blocks : List OpenBlock}

theorem steps_append (reader : PrintedReader) (front back : List Char) :
    reader.steps (front ++ back) = (reader.steps front).bind fun reader => reader.steps back :=
  List.foldlM_append

theorem steps_cons (reader : PrintedReader) (c : Char) (cs : List Char) :
    reader.steps (c :: cs) = (reader.step c).bind fun reader => reader.steps cs :=
  List.foldlM_cons

theorem steps_singleton (reader : PrintedReader) (c : Char) :
    reader.steps [c] = reader.step c := by
  rw [steps_cons]
  cases reader.step c <;> rfl

/-! ## Words -/

/-- What is written between quotes, and what it stands for: a backslash takes the next character as
it is, and a quote needs one in front of it. -/
inductive Escapes : List Char → List Char → Prop where
  | nil : Escapes [] []
  | plain {c : Char} {written cs : List Char} (itself : c ≠ '"' ∧ c ≠ '\\')
    (rest : Escapes written cs) : Escapes (c :: written) (c :: cs)
  | escaped (c : Char) {written cs : List Char} (rest : Escapes written cs) :
    Escapes ('\\' :: c :: written) (c :: cs)

/-- A word as it is written behind a space, and the argument it stands for: a word that begins with
a quote goes on to the next quote without a backslash, any other is taken literally. -/
inductive ReadsAs : List Char → String → Prop where
  | quoted {written cs : List Char} (means : Escapes written cs) :
    ReadsAs ('"' :: (written ++ ['"'])) (String.ofList cs)
  | bare {c : Char} {cs : List Char} (begins : c ≠ '"' ∧ c ≠ '{')
    (inside : ∀ d ∈ c :: cs, ¬ IsStop d) : ReadsAs (c :: cs) (String.ofList (c :: cs))

theorem escapes_escapeQuoted (cs : List Char) : Escapes (cs.flatMap escapeQuoted) cs := by
  induction cs with
  | nil => exact .nil
  | cons c cs ih =>
    rw [List.flatMap_cons, escapeQuoted]
    split_ifs with escaped
    · exact .escaped c ih
    · rw [Bool.or_eq_true, beq_iff_eq, beq_iff_eq, not_or] at escaped
      exact .plain escaped ih

/-- A character that needs no quotes ends no word. -/
theorem not_isStop {c : Char} (plain : isSpecial c = false) : ¬ IsStop c := by
  rintro (rfl | rfl) <;> exact absurd plain (by decide)

/-- The characters of a word without quotes. -/
theorem plain_of_not_needsQuotes {c : Char} {cs : List Char} (h : needsQuotes (c :: cs) = false) :
    isSpecial c = false ∧ ∀ d ∈ c :: cs, ¬ IsStop d := by
  have plain : ∀ d ∈ c :: cs, isSpecial d = false := fun _ => not_isSpecial_of_not_needsQuotes h
  exact ⟨plain c (List.mem_cons_self ..), fun d listed => not_isStop (plain d listed)⟩

/-- What stands for an argument is read as the argument. -/
theorem readsAs_quoteArgument (arg : String) : ReadsAs (quoteArgument arg.toList) arg := by
  have itself : String.ofList arg.toList = arg := String.ofList_toList
  rw [quoteArgument]
  split_ifs with quotes
  · have quoted := ReadsAs.quoted (escapes_escapeQuoted arg.toList)
    rwa [itself] at quoted
  · rw [Bool.not_eq_true] at quotes
    cases chars : arg.toList with
    | nil =>
      rw [chars] at quotes
      cases quotes
    | cons c cs =>
      rw [chars] at quotes itself
      obtain ⟨first, inside⟩ := plain_of_not_needsQuotes quotes
      have begins : c ≠ '"' ∧ c ≠ '{' := by
        constructor <;> (rintro rfl; exact absurd first (by decide))
      have bare := ReadsAs.bare begins inside
      rwa [itself] at bare

/-- Words are taken in, from a reader, up to the character behind them. -/
def Takes (reader : PrintedReader) (written : List Char) (words : List String) : Prop :=
  ∀ d, IsStop d → reader.steps (written ++ [d]) = endWord? reader.nodes reader.blocks words d

/-- A word without quotes goes on to the character behind it. -/
theorem takes_bare (words : List String) (chars : List Char) {cs : List Char}
    (inside : ∀ c ∈ cs, ¬ IsStop c) :
    Takes ⟨.bare words chars, nodes, blocks⟩ cs
      (String.ofList (chars.reverse ++ cs) :: words) := by
  intro d hd
  induction cs generalizing chars with
  | nil =>
    have stop : d = ' ' ∨ d = ';' := hd
    rw [List.nil_append, List.append_nil, steps_singleton, step, if_pos stop]
  | cons c cs ih =>
    obtain ⟨first, others⟩ := List.forall_mem_cons.1 inside
    have goesOn : ¬ (c = ' ' ∨ c = ';') := first
    rw [List.cons_append, steps_cons, step, if_neg goesOn, Option.bind_some, ih _ others,
      List.reverse_cons, List.append_assoc, List.singleton_append]

/-- A name in front of the words of a line. -/
theorem takes_name {name : String} (plain : needsQuotes name.toList = false) :
    Takes ⟨.indented, nodes, blocks⟩ name.toList [name] := by
  intro d hd
  cases chars : name.toList with
  | nil =>
    rw [chars] at plain
    cases plain
  | cons c cs =>
    rw [chars] at plain
    obtain ⟨first, inside⟩ := plain_of_not_needsQuotes plain
    -- no name begins with a sign that means something in front of a line
    have begins : step ⟨.indented, nodes, blocks⟩ c = some ⟨.bare [] [c], nodes, blocks⟩ := by
      rw [step, if_neg, if_neg, if_neg, if_neg] <;>
        (rintro rfl; exact absurd first (by decide))
    have word : name = String.ofList ([c].reverse ++ cs) := by
      rw [List.reverse_singleton, List.singleton_append, ← chars, String.ofList_toList]
    rw [List.cons_append, steps_cons, begins, Option.bind_some,
      takes_bare [] [c] (List.forall_mem_cons.1 inside).2 d hd, ← word]

/-- Between quotes, what is written for characters is taken in as these. -/
theorem steps_escapes (words : List String) {written cs : List Char} (means : Escapes written cs)
    (chars : List Char) :
    steps ⟨.quoted words chars false, nodes, blocks⟩ written =
      some ⟨.quoted words (cs.reverse ++ chars) false, nodes, blocks⟩ := by
  induction means generalizing chars with
  | nil => rfl
  | plain itself _ ih =>
    rw [steps_cons, step, if_neg itself.1, if_neg itself.2, Option.bind_some, ih,
      List.reverse_cons, List.append_assoc, List.singleton_append]
  | escaped c _ ih =>
    have backslash : step ⟨.quoted words chars false, nodes, blocks⟩ '\\' =
        some ⟨.quoted words chars true, nodes, blocks⟩ := rfl
    rw [steps_cons, backslash, Option.bind_some, steps_cons, step, Option.bind_some, ih,
      List.reverse_cons, List.append_assoc, List.singleton_append]

/-- A word behind the space in front of it. -/
theorem takes_word (words : List String) {written : List Char} {arg : String}
    (means : ReadsAs written arg) :
    Takes ⟨.between words, nodes, blocks⟩ written (arg :: words) := by
  intro d hd
  cases means with
  | quoted means =>
    have opening : step ⟨.between words, nodes, blocks⟩ '"' =
        some ⟨.quoted words [] false, nodes, blocks⟩ := rfl
    have closing (chars : List Char) : step ⟨.quoted words chars false, nodes, blocks⟩ '"' =
        some ⟨.behind (String.ofList chars.reverse :: words), nodes, blocks⟩ := rfl
    rw [List.cons_append, steps_cons, opening, Option.bind_some, List.append_assoc, steps_append,
      steps_escapes words means, Option.bind_some, List.singleton_append, steps_cons, closing,
      Option.bind_some, steps_singleton, step, List.append_nil, List.reverse_reverse]
  | @bare c cs begins inside =>
    have first : step ⟨.between words, nodes, blocks⟩ c =
        some ⟨.bare words [c], nodes, blocks⟩ := by
      rw [step, if_neg begins.2, if_neg begins.1]
    rw [List.cons_append, steps_cons, first, Option.bind_some,
      takes_bare words [c] (List.forall_mem_cons.1 inside).2 d hd, List.reverse_singleton,
      List.singleton_append]

/-- The words behind a word. -/
theorem Takes.words {reader : PrintedReader} {written : List Char} {words : List String}
    (first : Takes reader written words) {more : List (List Char)} {args : List String}
    (means : List.Forall₂ ReadsAs more args) :
    Takes reader (written ++ more.flatMap (' ' :: ·)) (args.reverse ++ words) := by
  induction means generalizing written words with
  | nil =>
    rw [List.flatMap_nil, List.append_nil]
    exact first
  | @cons word arg more args means _ ih =>
    have next : Takes reader (written ++ ' ' :: word) (arg :: words) := by
      intro d hd
      have space : endWord? reader.nodes reader.blocks words ' ' =
          some ⟨.between words, reader.nodes, reader.blocks⟩ := rfl
      rw [List.append_cons written, List.append_assoc (written ++ [' ']), steps_append,
        first ' ' (.inl rfl), space, Option.bind_some]
      exact takes_word words means d hd
    rw [List.flatMap_cons, ← List.append_assoc, List.reverse_cons, List.append_assoc args.reverse]
    exact ih next

/-- The arguments of a line are words that stand for them. -/
theorem writeArguments_eq (args : List String) :
    writeArguments args = (args.map (quoteArgument ·.toList)).flatMap (' ' :: ·) :=
  (List.flatMap_map ..).symm

theorem readsAs_arguments (args : List String) :
    List.Forall₂ ReadsAs (args.map (quoteArgument ·.toList)) args := by
  rw [List.forall₂_map_left_iff, List.forall₂_same]
  exact fun arg _ => readsAs_quoteArgument arg

/-! ## Lines -/

theorem steps_indent (depth : Nat) :
    steps ⟨.indented, nodes, blocks⟩ (indent depth) = some ⟨.indented, nodes, blocks⟩ := by
  rw [indent]
  induction 4 * depth with
  | zero => rfl
  | succ n ih =>
    rw [List.replicate_succ, steps_cons]
    exact ih

variable {words : List (List Char)} {args : List String}

/-- The words of a line, in front of the character behind them. -/
theorem steps_line {name : String} (plain : needsQuotes name.toList = false)
    (means : List.Forall₂ ReadsAs words args) (depth : Nat) {d : Char} (hd : IsStop d) :
    steps ⟨.indented, nodes, blocks⟩
        (indent depth ++ name.toList ++ words.flatMap (' ' :: ·) ++ [d]) =
      endWord? nodes blocks (name :: args).reverse d := by
  rw [List.append_assoc, List.append_assoc, steps_append, steps_indent, Option.bind_some,
    ← List.append_assoc, List.reverse_cons]
  exact (takes_name plain).words means d hd

/-- The line of a directive. -/
theorem steps_directive {name : String} (plain : needsQuotes name.toList = false)
    (means : List.Forall₂ ReadsAs words args) (depth : Nat) :
    steps ⟨.indented, nodes, blocks⟩
        (indent depth ++ name.toList ++ words.flatMap (' ' :: ·) ++ [';', '\n']) =
      some ⟨.indented, .directive name args :: nodes, blocks⟩ := by
  have semicolon : endWord? nodes blocks (name :: args).reverse ';' =
      some ⟨.ended, .directive name args :: nodes, blocks⟩ := by
    rw [endWord?, if_neg (by decide), if_pos rfl, List.reverse_reverse]
  rw [List.append_cons _ ';', steps_append, steps_line plain means depth (.inr rfl), semicolon]
  rfl

/-- The first line of a block. -/
theorem steps_opening {name : String} (plain : needsQuotes name.toList = false)
    (means : List.Forall₂ ReadsAs words args) (depth : Nat) :
    steps ⟨.indented, nodes, blocks⟩
        (indent depth ++ name.toList ++ words.flatMap (' ' :: ·) ++ [' ', '{', '\n']) =
      some ⟨.indented, [], ⟨name, args, nodes⟩ :: blocks⟩ := by
  have brace : step ⟨.between (name :: args).reverse, nodes, blocks⟩ '{' =
      some ⟨.ended, [], ⟨name, args, nodes⟩ :: blocks⟩ := by
    rw [step, if_pos rfl, open?, List.reverse_reverse]
  rw [List.append_cons _ ' ', steps_append, steps_line plain means depth (.inl rfl), endWord?,
    if_pos rfl, Option.bind_some, steps_cons, brace]
  rfl

/-- The last line of a block. -/
theorem steps_closing (children : List Node) (name : String) (args : List String) :
    steps ⟨.indented, children.reverse, ⟨name, args, nodes⟩ :: blocks⟩ ['}', '\n'] =
      some ⟨.indented, .block name args children :: nodes, blocks⟩ := by
  rw [steps_cons, step, if_neg (by decide), if_neg (by decide), if_neg (by decide), if_pos rfl,
    close?, List.reverse_reverse]
  rfl

/-- The text of a comment goes on to the end of the line. -/
theorem steps_comment (chars : List Char) {cs : List Char} (stays : '\n' ∉ cs) :
    steps ⟨.comment chars, nodes, blocks⟩ (cs ++ ['\n']) =
      some ⟨.indented, .comment (String.ofList (chars.reverse ++ cs)) :: nodes, blocks⟩ := by
  induction cs generalizing chars with
  | nil => rw [List.nil_append, List.append_nil, steps_singleton, step, if_pos rfl]
  | cons c cs ih =>
    rw [List.mem_cons, not_or] at stays
    rw [List.cons_append, steps_cons, step, if_neg (Ne.symm stays.1), Option.bind_some,
      ih _ stays.2, List.reverse_cons, List.append_assoc, List.singleton_append]

mutual

/-- What is written for a node is read as the node, wherever it stands. -/
theorem steps_write : ∀ (node : Node) (_ : node.isLegible = true) (nodes : List Node)
    (blocks : List OpenBlock) (depth : Nat),
    steps ⟨.indented, nodes, blocks⟩ (node.write depth) = some ⟨.indented, node :: nodes, blocks⟩
  | .directive name args, legible, nodes, blocks, depth => by
    rw [Node.isLegible, Bool.not_eq_true'] at legible
    rw [Node.write, writeArguments_eq, steps_directive legible (readsAs_arguments args)]
  | .block name args children, legible, nodes, blocks, depth => by
    rw [Node.isLegible, Bool.and_eq_true, Bool.not_eq_true'] at legible
    rw [Node.write, writeArguments_eq, List.append_assoc, List.append_assoc, steps_append,
      steps_opening legible.1 (readsAs_arguments args), Option.bind_some, steps_append,
      steps_writeNodes children legible.2, Option.bind_some, steps_append, steps_indent,
      Option.bind_some, List.append_nil, steps_closing]
  | .comment text, legible, nodes, blocks, depth => by
    have stays : '\n' ∉ text.toList := by simpa [Node.isLegible] using legible
    have sign : steps ⟨.indented, nodes, blocks⟩ ['#', ' '] = some ⟨.comment [], nodes, blocks⟩ :=
      rfl
    rw [Node.write, List.append_assoc, List.append_assoc, steps_append, steps_indent,
      Option.bind_some, steps_append, sign, Option.bind_some, steps_comment [] stays,
      List.reverse_nil, List.nil_append, String.ofList_toList]
  | .blank, _, nodes, blocks, depth => rfl

/-- What is written for nodes is read as the nodes, wherever they stand. -/
theorem steps_writeNodes : ∀ (printed : List Node) (_ : areLegible printed = true)
    (nodes : List Node) (blocks : List OpenBlock) (depth : Nat),
    steps ⟨.indented, nodes, blocks⟩ (writeNodes depth printed) =
      some ⟨.indented, printed.reverse ++ nodes, blocks⟩
  | [], _, nodes, blocks, depth => rfl
  | node :: printed, legible, nodes, blocks, depth => by
    rw [areLegible, Bool.and_eq_true] at legible
    rw [writeNodes, steps_append, steps_write node legible.1, Option.bind_some,
      steps_writeNodes printed legible.2, List.reverse_cons, List.append_assoc,
      List.singleton_append]

end

end PrintedReader

/-- The document that a text was printed from. -/
def Document.readPrinted? (text : String) : Option Document :=
  (PrintedReader.steps {} text.toList).bind PrintedReader.finish?

/-- A directive with a plain name, whose words are read as its arguments. -/
theorem Document.readPrinted?_directive {name : String} (plain : needsQuotes name.toList = false)
    {words : List (List Char)} {args : List String}
    (means : List.Forall₂ PrintedReader.ReadsAs words args) :
    Document.readPrinted? (String.ofList (name.toList ++ words.flatMap (' ' :: ·) ++ [';', '\n'])) =
      some [.directive name args] := by
  have line : PrintedReader.steps {}
      (indent 0 ++ name.toList ++ words.flatMap (' ' :: ·) ++ [';', '\n']) =
        some ⟨.indented, [.directive name args], []⟩ :=
    PrintedReader.steps_directive plain means 0
  rw [indent, Nat.mul_zero, List.replicate_zero, List.nil_append] at line
  rw [Document.readPrinted?, String.toList_ofList, line]
  rfl

/-- A block with a plain name and nothing in it, whose words are read as its arguments. -/
theorem Document.readPrinted?_block {name : String} (plain : needsQuotes name.toList = false)
    {words : List (List Char)} {args : List String}
    (means : List.Forall₂ PrintedReader.ReadsAs words args) :
    Document.readPrinted? (String.ofList
        (name.toList ++ words.flatMap (' ' :: ·) ++ [' ', '{', '\n'] ++ ['}', '\n'])) =
      some [.block name args []] := by
  have line : PrintedReader.steps {}
      (indent 0 ++ name.toList ++ words.flatMap (' ' :: ·) ++ [' ', '{', '\n']) =
        some ⟨.indented, [], [⟨name, args, []⟩]⟩ :=
    PrintedReader.steps_opening plain means 0
  have closing : PrintedReader.steps ⟨.indented, [], [⟨name, args, []⟩]⟩ ['}', '\n'] =
      some ⟨.indented, [.block name args []], []⟩ :=
    PrintedReader.steps_closing [] name args
  rw [indent, Nat.mul_zero, List.replicate_zero, List.nil_append] at line
  rw [Document.readPrinted?, String.toList_ofList, PrintedReader.steps_append, line,
    Option.bind_some, closing]
  rfl

/-- A printed document is read as what it is, with its comments and empty lines. -/
theorem Document.readPrinted?_render {document : Document} (legible : areLegible document = true) :
    Document.readPrinted? document.render = some document := by
  rw [Document.readPrinted?, Document.render, String.toList_ofList,
    PrintedReader.steps_writeNodes document legible, Option.bind_some, List.append_nil,
    PrintedReader.finish?, List.reverse_reverse]

/-- Different documents have different texts. -/
theorem Document.render_inj {document other : Document}
    (legible : areLegible document = true) (otherLegible : areLegible other = true) :
    document.render = other.render ↔ document = other := by
  constructor
  · intro same
    have read := congrArg Document.readPrinted? same
    rw [Document.readPrinted?_render legible, Document.readPrinted?_render otherLegible] at read
    exact Option.some.inj read
  · rintro rfl
    rfl

end ProxyKeeper.Nginx
