import ProxyKeeper.Text.Replace

/-!
# Styles of text

Bold, dimmed and colored text for terminals. A styled text begins with the codes of its style and
ends with the code that takes all styles back. Where the text itself takes all styles back, its own
style is begun again.

## Main Definitions

* `Style`: the styles of the reports.
* `Palette`: whether styles are shown; `Palette.paint` shows one.
-/

namespace ProxyKeeper.Cli

/-- A style of text. -/
inductive Style where
  | bold
  | dimmed
  | red
  | green
  | yellow
  | boldRed
  | boldGreen
  | boldYellow
deriving DecidableEq

/-- The numbers of a style. -/
def Style.numbers : Style → String
  | bold => "1"
  | dimmed => "2"
  | red => "31"
  | green => "32"
  | yellow => "33"
  | boldRed => "1;31"
  | boldGreen => "1;32"
  | boldYellow => "1;33"

/-- The code that begins a style. -/
def Style.code (style : Style) : List Char :=
  '\x1b' :: '[' :: (style.numbers.toList ++ ['m'])

/-- What stands after the escape character in the code that takes all styles back. -/
def resetTail : List Char := ['[', '0', 'm']

/-- The code that takes all styles back. -/
def resetCode : List Char := '\x1b' :: resetTail

/-- Whether styles are shown. -/
inductive Palette where
  | plain
  | colored
deriving DecidableEq

/-- A text in a style. -/
def Palette.paint (palette : Palette) (style : Style) (s : String) : String :=
  match palette with
  | plain => s
  | colored =>
    let content := Text.replaceAll '\x1b' resetTail (resetCode ++ style.code) s.toList
    String.ofList (style.code ++ content ++ resetCode)

end ProxyKeeper.Cli
