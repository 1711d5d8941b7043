/-
# Blank characters and trimming

The white space of Unicode: tab, the line breaks, the spaces and the two separators.

Key definitions: `Text.blanks`, `Text.isBlank`, `Text.trim`.
-/
import ViperFrontend.Text.Charset

namespace Viper
namespace Text

/-- The characters with the property White_Space. -/
def blanks : Charset :=
  [(0x0009, 0x000d), (0x0020, 0x0020), (0x0085, 0x0085), (0x00a0, 0x00a0), (0x1680, 0x1680),
   (0x2000, 0x200a), (0x2028, 0x2029), (0x202f, 0x202f), (0x205f, 0x205f), (0x3000, 0x3000)]

example : Charset.isAscending blanks = true := by decide +kernel

/-- White space of Unicode. -/
def isBlank (c : Char) : Bool :=
  blanks.contains c

/-- The text without the blanks at its two ends. -/
def trim (text : String) : String :=
  let inner := text.toList.dropWhile isBlank
  String.ofList (inner.reverse.dropWhile isBlank).reverse

end Text
end Viper
