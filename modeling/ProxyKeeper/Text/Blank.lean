/-!
# White space

The Unicode property `White_Space`, and the text operations that are defined by it: trimming,
telling a blank text from one with content, and cutting a text into words.

All operations are on `List Char`; the functions on `String` are the same ones behind
`String.toList`.

## Main Definitions

* `isBlank`: the characters of the property.
* `trimStart`, `trimEnd`, `trim`: a text without its outer white space.
* `words`: the maximal runs of other characters, in order.
-/

namespace ProxyKeeper.Text

/-- The 25 characters with the Unicode property `White_Space`. -/
def isBlank (c : Char) : Bool :=
  let n := c.toNat
  (0x09 ≤ n && n ≤ 0x0D) || n == 0x20 || n == 0x85 || n == 0xA0 || n == 0x1680 ||
    (0x2000 ≤ n && n ≤ 0x200A) || n == 0x2028 || n == 0x2029 || n == 0x202F || n == 0x205F ||
    n == 0x3000

/-- The text from its first character that is not white space. -/
def trimStart (cs : List Char) : List Char :=
  cs.dropWhile isBlank

/-- The text up to its last character that is not white space. -/
def trimEnd (cs : List Char) : List Char :=
  (cs.reverse.dropWhile isBlank).reverse

/-- The text without white space at either end. -/
def trim (cs : List Char) : List Char :=
  trimEnd (trimStart cs)

/-- Splits a text into words from the left, with the characters of the current word reversed in
`word`. -/
def wordsFrom (word : List Char) : List Char → List (List Char)
  | [] => if word.isEmpty then [] else [word.reverse]
  | c :: cs =>
    if isBlank c then
      if word.isEmpty then wordsFrom [] cs else word.reverse :: wordsFrom [] cs
    else
      wordsFrom (c :: word) cs

/-- The words of a text: its maximal runs of characters that are not white space. -/
def words (cs : List Char) : List (List Char) :=
  wordsFrom [] cs

/-- `trimEnd` on strings. -/
def trimEndString (s : String) : String :=
  String.ofList (trimEnd s.toList)

/-- A string that is empty or holds only white space. -/
def isBlankString (s : String) : Bool :=
  s.toList.all isBlank

end ProxyKeeper.Text
