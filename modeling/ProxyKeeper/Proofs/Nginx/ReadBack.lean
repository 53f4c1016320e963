import ProxyKeeper.Nginx.Reader
import ProxyKeeper.Proofs.Nginx.Quoting

/-!
# Reading a rendered document

What nginx makes of the text of a document. The tokens of a document are a second form of its
tree: reading them gives the tree back without comments and empty lines, and they are the only
tokens that do. So a text is read as the document it was rendered from when the lexer finds
exactly those tokens, and that depends on the arguments alone.

## Main Definitions

* `Node.tokens`, `tokensOf` — the tokens that nodes stand for
* `Node.arguments`, `argumentsOf` — all arguments, at every depth
* `Node.writeWith`, `writeNodesWith` — the text, with arguments written in a given way
* `Node.isPlain`, `arePlain` — names are literal words and comments stay on their line

## Main Results

* `ofTokens?_eq_some_iff` — tokens are read as a document when they are its tokens
* `steps_writeNodesWith` — the lexer finds the tokens when it reads each argument as what it is
* `steps_writeNodes` — so it does in the text of nodes whose arguments are faithful
* `not_prefix_of_writeNodes` — and of no others
* `read?_render_iff` — a text is read as its document exactly when all arguments are faithful
-/

namespace ProxyKeeper.Nginx

/-! ## Tokens of a tree -/

/-- The words of a line. -/
def wordsOf (name : String) (args : List String) : List Token :=
  .word name.toList :: args.map fun arg => .word arg.toList

mutual

/-- The tokens that a node stands for. -/
def Node.tokens : Node → List Token
  | .directive name args => wordsOf name args ++ [.stop]
  | .block name args children =>
    wordsOf name args ++ .opening :: (tokensOf children ++ [.closing])
  | .comment _ => []
  | .blank => []

/-- The tokens that nodes stand for. -/
def tokensOf : List Node → List Token
  | [] => []
  | node :: nodes => node.tokens ++ tokensOf nodes

end

mutual

/-- The arguments of a node, and of the nodes in it. -/
def Node.arguments : Node → List String
  | .directive _ args => args
  | .block _ args children => args ++ argumentsOf children
  | .comment _ => []
  | .blank => []

/-- The arguments of nodes. -/
def argumentsOf : List Node → List String
  | [] => []
  | node :: nodes => node.arguments ++ argumentsOf nodes

end

/-- Whether a name is a literal word. -/
def isName (name : String) : Bool :=
  !needsQuotes name.toList && isLiteral name.toList

mutual

/-- Whether the names in a node are literal words and its comments stay on their line. -/
def Node.isPlain : Node → Bool
  | .directive name _ => isName name
  | .block name _ children => isName name && arePlain children
  | .comment text => !text.toList.contains '\n'
  | .blank => true

/-- Whether nodes are plain. -/
def arePlain : List Node → Bool
  | [] => true
  | node :: nodes => node.isPlain && arePlain nodes

end

theorem tokensOf_append (front back : List Node) :
    tokensOf (front ++ back) = tokensOf front ++ tokensOf back := by
  induction front with
  | nil => rfl
  | cons node nodes ih => rw [List.cons_append, tokensOf, tokensOf, ih, List.append_assoc]

theorem argumentsOf_append (front back : List Node) :
    argumentsOf (front ++ back) = argumentsOf front ++ argumentsOf back := by
  induction front with
  | nil => rfl
  | cons node nodes ih =>
    rw [List.cons_append, argumentsOf, argumentsOf, ih, List.append_assoc]

theorem argumentsOf_singleton (node : Node) : argumentsOf [node] = node.arguments := by
  rw [argumentsOf, argumentsOf, List.append_nil]

theorem arePlain_append (front back : List Node) :
    arePlain (front ++ back) = (arePlain front && arePlain back) := by
  induction front with
  | nil => rfl
  | cons node nodes ih => rw [List.cons_append, arePlain, arePlain, ih, Bool.and_assoc]

mutual

/-- Comments and empty lines have no tokens. -/
theorem Node.tokensOf_effective : ∀ node : Node, tokensOf node.effective = node.tokens
  | .directive name args => by simp [Node.effective, Node.tokens, tokensOf]
  | .block name args children => by
    simp [Node.effective, Node.tokens, tokensOf, tokensOf_effectiveNodes children]
  | .comment text => rfl
  | .blank => rfl

theorem tokensOf_effectiveNodes : ∀ nodes : List Node,
    tokensOf (effectiveNodes nodes) = tokensOf nodes
  | [] => rfl
  | node :: nodes => by
    rw [effectiveNodes, tokensOf_append, node.tokensOf_effective, tokensOf_effectiveNodes nodes,
      tokensOf]

end

/-! ## From tokens to trees -/

namespace Document

/-- Words are collected until a sign comes. -/
theorem ofTokensFrom?_wordsOf (blocks : List OpenBlock) (nodes : List Node) (name : String)
    (args : List String) (rest : List Token) :
    ofTokensFrom? blocks nodes [] (wordsOf name args ++ rest) =
      ofTokensFrom? blocks nodes (name :: args).reverse rest := by
  have collect : ∀ (args words : List String),
      ofTokensFrom? blocks nodes words (args.map (fun arg => .word arg.toList) ++ rest) =
        ofTokensFrom? blocks nodes (args.reverse ++ words) rest := by
    intro args
    induction args with
    | nil => intro words; rfl
    | cons arg args ih =>
      intro words
      rw [List.map_cons, List.cons_append, ofTokensFrom?, ih, String.ofList_toList]
      simp
  have := collect (name :: args) []
  simpa [wordsOf] using this

mutual

/-- The tokens of a node are read as the node, wherever they stand. -/
theorem ofTokensFrom?_tokens (blocks : List OpenBlock) (before : List Node) (rest : List Token) :
    ∀ node : Node, ofTokensFrom? blocks before [] (node.tokens ++ rest) =
      ofTokensFrom? blocks (node.effective.reverse ++ before) [] rest
  | .directive name args => by
    rw [Node.tokens, List.append_assoc, ofTokensFrom?_wordsOf, List.singleton_append,
      ofTokensFrom?, List.reverse_reverse]
    rfl
  | .block name args children => by
    rw [Node.tokens, List.append_assoc, ofTokensFrom?_wordsOf, List.cons_append, ofTokensFrom?,
      List.reverse_reverse]
    simp only [List.append_assoc]
    rw [ofTokensFrom?_tokensOf _ [] _ children, List.singleton_append, ofTokensFrom?]
    simp [Node.effective]
  | .comment text => rfl
  | .blank => rfl

theorem ofTokensFrom?_tokensOf (blocks : List OpenBlock) (before : List Node)
    (rest : List Token) : ∀ nodes : List Node,
    ofTokensFrom? blocks before [] (tokensOf nodes ++ rest) =
      ofTokensFrom? blocks ((effectiveNodes nodes).reverse ++ before) [] rest
  | [] => rfl
  | node :: nodes => by
    rw [tokensOf, List.append_assoc, ofTokensFrom?_tokens blocks before _ node,
      ofTokensFrom?_tokensOf blocks _ rest nodes, effectiveNodes, List.reverse_append,
      List.append_assoc]

end

/-- The tokens read so far, where some blocks are open. -/
def openTokens : List OpenBlock → List Token
  | [] => []
  | block :: blocks =>
    openTokens blocks ++ tokensOf block.before.reverse ++
      wordsOf block.name block.args ++ [.opening]

/-- Reading loses no token: those read so far and those to come are the tokens of the document. -/
theorem tokens_of_ofTokensFrom? {blocks : List OpenBlock} {nodes : List Node}
    {words : List String} {tokens : List Token} {document : Document}
    (h : ofTokensFrom? blocks nodes words tokens = some document) :
    openTokens blocks ++ tokensOf nodes.reverse ++
      words.reverse.map (fun word => .word word.toList) ++ tokens = tokensOf document := by
  fun_induction ofTokensFrom? blocks nodes words tokens with
  | case1 blocks nodes words closed =>
    rw [Bool.and_eq_true, List.isEmpty_iff, List.isEmpty_iff] at closed
    obtain ⟨rfl, rfl⟩ := closed
    obtain rfl := Option.some.inj h
    simp [openTokens]
  | case2 => cases h
  | case3 blocks nodes words chars tokens ih =>
    rw [← ih h]
    simp
  | case4 => cases h
  | case5 blocks nodes words tokens name args line ih =>
    rw [← ih h, line, List.reverse_cons, tokensOf_append]
    simp [tokensOf, Node.tokens, wordsOf]
  | case6 => cases h
  | case7 blocks nodes words tokens name args line ih =>
    rw [← ih h, line]
    simp [openTokens, tokensOf, wordsOf]
  | case8 nodes tokens block blocks ih =>
    rw [← ih h, List.reverse_cons, tokensOf_append]
    simp [openTokens, tokensOf, Node.tokens, wordsOf]
  | case9 => cases h

/-- Tokens are read as a document without comments and empty lines when they are its tokens. -/
theorem ofTokens?_eq_some_iff {tokens : List Token} {document : Document} :
    ofTokens? tokens = some document.effective ↔ tokens = tokensOf document := by
  constructor
  · intro h
    have := tokens_of_ofTokensFrom? h
    rwa [effective, tokensOf_effectiveNodes] at this
  · rintro rfl
    have := ofTokensFrom?_tokensOf [] [] [] document
    rw [List.append_nil] at this
    rw [ofTokens?, this, ofTokensFrom?]
    simp [effective]

/-- A text is read as a document without comments and empty lines when the lexer finds the tokens
of the document. -/
theorem read?_eq_some_iff {text : String} {document : Document} :
    read? text = some document.effective ↔
      Token.scan? text.toList = some (tokensOf document) := by
  rw [read?, Option.bind_eq_some_iff]
  constructor
  · rintro ⟨tokens, scanned, made⟩
    rw [scanned, ofTokens?_eq_some_iff.1 made]
  · intro scanned
    exact ⟨_, scanned, ofTokens?_eq_some_iff.2 rfl⟩

end Document

/-! ## Arguments written in some way -/

mutual

/-- The lines of a node whose arguments are written in a given way. -/
def Node.writeWith (written : String → List Char) (depth : Nat) : Node → List Char
  | .directive name args =>
    indent depth ++ name.toList ++ args.flatMap (' ' :: written ·) ++ [';', '\n']
  | .block name args children =>
    indent depth ++ name.toList ++ args.flatMap (' ' :: written ·) ++ [' ', '{', '\n'] ++
      writeNodesWith written (depth + 1) children ++ indent depth ++ ['}', '\n']
  | .comment text => indent depth ++ ['#', ' '] ++ text.toList ++ ['\n']
  | .blank => ['\n']

/-- The lines of several nodes whose arguments are written in a given way. -/
def writeNodesWith (written : String → List Char) (depth : Nat) : List Node → List Char
  | [] => []
  | node :: rest => node.writeWith written depth ++ writeNodesWith written depth rest

end

mutual

theorem Node.writeWith_quoteArgument (depth : Nat) : ∀ node : Node,
    node.writeWith (quoteArgument ·.toList) depth = node.write depth
  | .directive _ _ => rfl
  | .block name args children => by
    rw [Node.writeWith, writeNodesWith_quoteArgument (depth + 1) children]
    rfl
  | .comment _ => rfl
  | .blank => rfl

/-- The text of a document has its arguments in quotes where they need them. -/
theorem writeNodesWith_quoteArgument (depth : Nat) : ∀ nodes : List Node,
    writeNodesWith (quoteArgument ·.toList) depth nodes = writeNodes depth nodes
  | [] => rfl
  | node :: nodes => by
    rw [writeNodesWith, node.writeWith_quoteArgument depth,
      writeNodesWith_quoteArgument depth nodes]
    rfl

end

/-! ## From text to tokens -/

/-- Whether every argument of a line is faithful. -/
def AllFaithful (args : List String) : Prop :=
  ∀ arg ∈ args, isFaithful arg.toList = true

theorem AllFaithful.writes {args : List String} (faithful : AllFaithful args) :
    ∀ arg ∈ args, Writes (quoteArgument arg.toList) arg.toList :=
  fun arg listed => writes_quoteArgument (faithful arg listed)

namespace Lexer

/-- A line is read word by word, up to the character behind it. -/
theorem steps_words {written : String → List Char} {cs word : List Char} (first : Writes cs word)
    {args : List String} (each : ∀ arg ∈ args, Writes (written arg) arg.toList)
    (tokens : List Token) {d : Char} (hd : IsStop d) :
    steps ⟨.between, tokens⟩ (cs ++ args.flatMap (' ' :: written ·) ++ [d]) =
      some (begin ⟨.between,
        (.word word :: args.map fun arg => .word arg.toList).reverse ++ tokens⟩ d) := by
  induction args generalizing cs word tokens with
  | nil => simpa using first tokens d hd
  | cons arg args ih =>
    have next := ih (each arg (by simp)) (fun a ha => each a (by simp [ha]))
      (.word word :: tokens)
    calc
      steps ⟨.between, tokens⟩ (cs ++ (arg :: args).flatMap (' ' :: written ·) ++ [d])
      _ = steps ⟨.between, tokens⟩
            ((cs ++ [' ']) ++ (written arg ++ args.flatMap (' ' :: written ·) ++ [d])) := by
        simp
      _ = steps ⟨.between, .word word :: tokens⟩
            (written arg ++ args.flatMap (' ' :: written ·) ++ [d]) := by
        rw [steps_append, first tokens ' ' (.inl rfl)]
        rfl
      _ = _ := by
        rw [next]
        simp

/-- In a line with an argument that is not faithful, the lexer never finds its words. -/
theorem not_prefix_of_writeArguments {written word : List Char} (first : Writes written word)
    {args : List String} (unfaithful : ¬ AllFaithful args) {tokens : List Token} {d : Char}
    (hd : IsStop d) {rest : List Char} {all : List Token}
    (scanned : scanFrom? ⟨.between, tokens⟩ (written ++ writeArguments args ++ d :: rest) =
      some all) :
    ¬ tokens.reverse ++ (.word word :: args.map fun arg => .word arg.toList) <+: all := by
  induction args generalizing written word tokens with
  | nil => exact absurd (fun arg h => absurd h (by simp)) unfaithful
  | cons arg args ih =>
    rw [show written ++ writeArguments (arg :: args) ++ d :: rest =
        (written ++ [' ']) ++ (quoteArgument arg.toList ++ (writeArguments args ++ d :: rest))
      by simp [writeArguments], scanFrom?_append, first tokens ' ' (.inl rfl)] at scanned
    replace scanned : scanFrom? ⟨.between, .word word :: tokens⟩
      (quoteArgument arg.toList ++ (writeArguments args ++ d :: rest)) = some all := scanned
    cases hf : isFaithful arg.toList with
    | true =>
      have others : ¬ AllFaithful args := fun h =>
        unfaithful fun a ha => by
          rcases List.mem_cons.1 ha with rfl | ha
          · exact hf
          · exact h a ha
      rw [← List.append_assoc] at scanned
      simpa using ih (writes_quoteArgument hf) others scanned
    | false =>
      -- What follows the argument is a space or the sign that ends the line.
      obtain ⟨e, more, he, split⟩ : ∃ e more, IsStop e ∧ writeArguments args ++ d :: rest =
          e :: more := by
        cases args with
        | nil => exact ⟨d, rest, hd, rfl⟩
        | cons b bs =>
          exact ⟨' ', quoteArgument b.toList ++ (writeArguments bs ++ d :: rest), .inl rfl,
            by simp [writeArguments]⟩
      rw [split] at scanned
      intro whole
      refine not_prefix_of_unfaithful hf he scanned (List.IsPrefix.trans ?_ whole)
      simp

/-- White space between words has no tokens. -/
theorem steps_indent (tokens : List Token) (depth : Nat) :
    steps ⟨.between, tokens⟩ (indent depth) = some ⟨.between, tokens⟩ := by
  rw [indent]
  induction 4 * depth with
  | zero => rfl
  | succ n ih => rw [List.replicate_succ, steps_cons]; exact ih

/-- A comment has no tokens. -/
theorem steps_comment (tokens : List Token) {text : List Char} (h : '\n' ∉ text) :
    steps ⟨.comment, tokens⟩ (text ++ ['\n']) = some ⟨.between, tokens⟩ := by
  induction text with
  | nil => rfl
  | cons c cs ih =>
    rw [List.mem_cons, not_or] at h
    rw [List.cons_append, steps_cons, step]
    simp only [Ne.symm h.1, if_false, Option.bind_some]
    exact ih h.2

/-- A name is read as the word it is. -/
theorem writes_name {name : String} (h : isName name = true) : Writes name.toList name.toList := by
  rw [isName, Bool.and_eq_true, Bool.not_eq_true'] at h
  exact writes_of_isLiteral h.1 h.2

section Written

variable {written : String → List Char}

/-- The words of a line, in front of the character behind it. -/
theorem steps_line {name : String} (plain : isName name = true) {args : List String}
    (each : ∀ arg ∈ args, Writes (written arg) arg.toList) (tokens : List Token) (depth : Nat)
    {d : Char} (hd : IsStop d) :
    steps ⟨.between, tokens⟩
        (indent depth ++ name.toList ++ args.flatMap (' ' :: written ·) ++ [d]) =
      some (begin ⟨.between, (wordsOf name args).reverse ++ tokens⟩ d) := by
  rw [List.append_assoc, List.append_assoc, steps_append, steps_indent, Option.bind_some,
    ← List.append_assoc]
  exact steps_words (writes_name plain) each tokens hd

/-- The first line of a block. -/
theorem steps_opening {name : String} (plain : isName name = true) {args : List String}
    (each : ∀ arg ∈ args, Writes (written arg) arg.toList) (tokens : List Token) (depth : Nat) :
    steps ⟨.between, tokens⟩
        (indent depth ++ name.toList ++ args.flatMap (' ' :: written ·) ++ [' ', '{', '\n']) =
      some ⟨.between, .opening :: ((wordsOf name args).reverse ++ tokens)⟩ := by
  rw [show [' ', '{', '\n'] = [' '] ++ ['{', '\n'] from rfl, ← List.append_assoc, steps_append,
    steps_line plain each tokens depth (.inl rfl)]
  rfl

mutual

/-- The lexer finds the tokens of a node when its arguments are read as what they are. -/
theorem steps_writeWith : ∀ (node : Node) (_ : node.isPlain = true)
    (_ : ∀ arg ∈ node.arguments, Writes (written arg) arg.toList) (tokens : List Token)
    (depth : Nat),
    steps ⟨.between, tokens⟩ (node.writeWith written depth) =
      some ⟨.between, node.tokens.reverse ++ tokens⟩
  | .directive name args, plain, each, tokens, depth => by
    have line : steps _ (indent depth ++ name.toList ++ args.flatMap (' ' :: written ·) ++ [';']) =
        _ := steps_line plain each tokens depth (.inr rfl)
    rw [Node.writeWith, show [';', '\n'] = [';'] ++ ['\n'] from rfl, ← List.append_assoc,
      steps_append, line, Option.bind_some, Node.tokens, List.reverse_append]
    rfl
  | .block name args children, plain, each, tokens, depth => by
    rw [Node.isPlain, Bool.and_eq_true] at plain
    have inLine : ∀ arg ∈ args, Writes (written arg) arg.toList :=
      fun a ha => each a (by simp [Node.arguments, ha])
    have inBlock : ∀ arg ∈ argumentsOf children, Writes (written arg) arg.toList :=
      fun a ha => each a (by simp [Node.arguments, ha])
    rw [Node.writeWith, List.append_assoc, List.append_assoc, steps_append,
      steps_opening plain.1 inLine tokens depth, Option.bind_some, steps_append,
      steps_writeNodesWith children plain.2 inBlock, Option.bind_some, steps_append, steps_indent,
      Node.tokens]
    simp [steps, step, begin, separate?, isSeparator, emit]
  | .comment text, plain, _, tokens, depth => by
    have stays : '\n' ∉ ' ' :: text.toList := by simpa [Node.isPlain] using plain
    rw [Node.writeWith, List.append_assoc, List.append_assoc, steps_append, steps_indent]
    have read := steps_comment tokens stays
    exact read
  | .blank, _, _, tokens, depth => rfl

/-- The lexer finds the tokens of nodes when their arguments are read as what they are. -/
theorem steps_writeNodesWith : ∀ (nodes : List Node) (_ : arePlain nodes = true)
    (_ : ∀ arg ∈ argumentsOf nodes, Writes (written arg) arg.toList) (tokens : List Token)
    (depth : Nat),
    steps ⟨.between, tokens⟩ (writeNodesWith written depth nodes) =
      some ⟨.between, (tokensOf nodes).reverse ++ tokens⟩
  | [], _, _, tokens, depth => rfl
  | node :: nodes, plain, each, tokens, depth => by
    rw [arePlain, Bool.and_eq_true] at plain
    have first : ∀ arg ∈ node.arguments, Writes (written arg) arg.toList :=
      fun a ha => each a (by simp [argumentsOf, ha])
    have others : ∀ arg ∈ argumentsOf nodes, Writes (written arg) arg.toList :=
      fun a ha => each a (by simp [argumentsOf, ha])
    rw [writeNodesWith, steps_append, steps_writeWith node plain.1 first, Option.bind_some,
      steps_writeNodesWith nodes plain.2 others, tokensOf, List.reverse_append, List.append_assoc]

end

end Written

/-- The lexer finds the tokens of a node whose arguments are faithful. -/
theorem steps_write (node : Node) (plain : node.isPlain = true)
    (faithful : AllFaithful node.arguments) (tokens : List Token) (depth : Nat) :
    steps ⟨.between, tokens⟩ (node.write depth) =
      some ⟨.between, node.tokens.reverse ++ tokens⟩ := by
  rw [← Node.writeWith_quoteArgument]
  exact steps_writeWith node plain faithful.writes tokens depth

/-- The lexer finds the tokens of nodes whose arguments are faithful. -/
theorem steps_writeNodes (nodes : List Node) (plain : arePlain nodes = true)
    (faithful : AllFaithful (argumentsOf nodes)) (tokens : List Token) (depth : Nat) :
    steps ⟨.between, tokens⟩ (writeNodes depth nodes) =
      some ⟨.between, (tokensOf nodes).reverse ++ tokens⟩ := by
  rw [← writeNodesWith_quoteArgument]
  exact steps_writeNodesWith nodes plain faithful.writes tokens depth

/-- A line with an argument that is not faithful, up to the character behind it. -/
theorem not_prefix_of_line {name : String} (plain : isName name = true) {args : List String}
    (unfaithful : ¬ AllFaithful args) {tokens : List Token} {depth : Nat} {d : Char}
    (hd : IsStop d) {rest : List Char} {all : List Token}
    (scanned : scanFrom? ⟨.between, tokens⟩
      (indent depth ++ name.toList ++ writeArguments args ++ d :: rest) = some all) :
    ¬ tokens.reverse ++ wordsOf name args <+: all := by
  rw [List.append_assoc, List.append_assoc, scanFrom?_append, steps_indent, Option.bind_some,
    ← List.append_assoc] at scanned
  exact not_prefix_of_writeArguments (writes_name plain) unfaithful hd scanned

mutual

/-- In a node with an argument that is not faithful, the lexer never finds its tokens. -/
theorem not_prefix_of_write : ∀ (node : Node) (_ : node.isPlain = true)
    (_ : ¬ AllFaithful node.arguments) (tokens : List Token) (depth : Nat) (rest : List Char)
    (all : List Token) (_ : scanFrom? ⟨.between, tokens⟩ (node.write depth ++ rest) = some all),
    ¬ tokens.reverse ++ node.tokens <+: all
  | .directive name args, plain, unfaithful, tokens, depth, rest, all, scanned => by
    rw [Node.write, List.append_assoc] at scanned
    intro whole
    refine not_prefix_of_line plain unfaithful (.inr rfl) scanned (List.IsPrefix.trans ?_ whole)
    rw [Node.tokens, ← List.append_assoc]
    exact List.prefix_append _ _
  | .block name args children, plain, unfaithful, tokens, depth, rest, all, scanned => by
    rw [Node.isPlain, Bool.and_eq_true] at plain
    intro whole
    by_cases inLine : AllFaithful args
    · -- The line is read as it should be, so the argument is one of the block's content.
      have inBlock : ¬ AllFaithful (argumentsOf children) := by
        intro h
        refine unfaithful fun a ha => ?_
        rcases List.mem_append.1 ha with ha | ha
        · exact inLine a ha
        · exact h a ha
      rw [Node.write, List.append_assoc, List.append_assoc, List.append_assoc, scanFrom?_append,
        writeArguments, steps_opening plain.1 inLine.writes tokens depth, Option.bind_some]
        at scanned
      refine not_prefix_of_writeNodes children plain.2 inBlock _ _ _ _ scanned
        (List.IsPrefix.trans ?_ whole)
      simp [Node.tokens]
    · rw [Node.write, List.append_assoc, List.append_assoc, List.append_assoc,
        show [' ', '{', '\n'] = ' ' :: ['{', '\n'] from rfl, List.append_assoc _ (' ' :: _),
        List.cons_append] at scanned
      refine not_prefix_of_line plain.1 inLine (.inl rfl) scanned (List.IsPrefix.trans ?_ whole)
      rw [Node.tokens, ← List.append_assoc]
      exact List.prefix_append _ _
  | .comment _, _, unfaithful, _, _, _, _, _ =>
    absurd (fun _ h => absurd h List.not_mem_nil) unfaithful
  | .blank, _, unfaithful, _, _, _, _, _ =>
    absurd (fun _ h => absurd h List.not_mem_nil) unfaithful

/-- In nodes with an argument that is not faithful, the lexer never finds their tokens. -/
theorem not_prefix_of_writeNodes : ∀ (nodes : List Node) (_ : arePlain nodes = true)
    (_ : ¬ AllFaithful (argumentsOf nodes)) (tokens : List Token) (depth : Nat)
    (rest : List Char) (all : List Token)
    (_ : scanFrom? ⟨.between, tokens⟩ (writeNodes depth nodes ++ rest) = some all),
    ¬ tokens.reverse ++ tokensOf nodes <+: all
  | [], _, unfaithful, _, _, _, _, _ => absurd (fun _ h => absurd h List.not_mem_nil) unfaithful
  | node :: nodes, plain, unfaithful, tokens, depth, rest, all, scanned => by
    rw [arePlain, Bool.and_eq_true] at plain
    rw [writeNodes, List.append_assoc] at scanned
    intro whole
    by_cases first : AllFaithful node.arguments
    · have others : ¬ AllFaithful (argumentsOf nodes) := by
        intro h
        refine unfaithful fun a ha => ?_
        rcases List.mem_append.1 ha with ha | ha
        · exact first a ha
        · exact h a ha
      rw [scanFrom?_append, steps_write node plain.1 first, Option.bind_some] at scanned
      refine not_prefix_of_writeNodes nodes plain.2 others _ _ _ _ scanned ?_
      rw [List.reverse_append, List.reverse_reverse, List.append_assoc]
      exact whole
    · refine not_prefix_of_write node plain.1 first _ _ _ _ scanned (List.IsPrefix.trans ?_ whole)
      rw [tokensOf, ← List.append_assoc]
      exact List.prefix_append _ _

end

end Lexer

/-- A document with plain names and comments is read from a text in which each argument is read as
what it is. -/
theorem Document.read?_writeNodesWith {written : String → List Char} {document : Document}
    (plain : arePlain document = true)
    (each : ∀ arg ∈ argumentsOf document, Writes (written arg) arg.toList) :
    Document.read? (String.ofList (writeNodesWith written 0 document)) =
      some document.effective := by
  rw [Document.read?_eq_some_iff, String.toList_ofList, Token.scan?]
  have all := Lexer.steps_writeNodesWith document plain each [] 0
  rw [List.append_nil] at all
  refine Eq.trans (congrArg (Option.bind · Lexer.finish?) all) ?_
  rw [Option.bind_some, Lexer.finish?, List.reverse_reverse]

/-- The text of a document with plain names and comments is read as the document exactly when all
its arguments are faithful. -/
theorem Document.read?_render_iff {document : Document} (plain : arePlain document = true) :
    Document.read? document.render = some document.effective ↔
      AllFaithful (argumentsOf document) := by
  have all : Token.scan? (writeNodes 0 document) =
      Lexer.scanFrom? ⟨.between, []⟩ (writeNodes 0 document) := rfl
  rw [Document.read?_eq_some_iff, Document.render, String.toList_ofList, all]
  constructor
  · intro scanned
    by_contra unfaithful
    rw [← List.append_nil (writeNodes 0 document)] at scanned
    refine Lexer.not_prefix_of_writeNodes document plain unfaithful _ _ _ _ scanned ?_
    exact List.prefix_rfl
  · intro faithful
    rw [Lexer.scanFrom?, Lexer.steps_writeNodes document plain faithful, Option.bind_some,
      List.append_nil, Lexer.finish?, List.reverse_reverse]

end ProxyKeeper.Nginx
