/-
# Quoted text

Diagnostics, token listings and the printed tree show a text between quotes, so that any
text fits on one line. A character is written as itself if it has a shape of its own;
the delimiter, the backslash and the common controls are written with a backslash, and
every other character by its code point.

Key definitions: `Text.escape`, `Text.quoteString`, `Text.quoteChar`.
-/
import ViperFrontend.Text.Combining
import ViperFrontend.Text.Unprintable

namespace Viper
namespace Text

/-- A character that can be written as itself. -/
def isShown (c : Char) : Bool :=
  (' ' ≤ c && c ≤ '~') ||
    ('~' < c && !unprintable.contains c && !combining.contains c)

/-- A character by its code point: a backslash, `u` and the hexadecimal number in braces. -/
def escapeCode (c : Char) : List Char :=
  ['\\', 'u', '{'] ++ Nat.toDigits 16 c.toNat ++ ['}']

/-- How a character is written between two of the `delimiter`. -/
def escape (delimiter c : Char) : List Char :=
  if c = '\x00' then ['\\', '0']
  else if c = '\t' then ['\\', 't']
  else if c = '\r' then ['\\', 'r']
  else if c = '\n' then ['\\', 'n']
  else if c = '\\' ∨ c = delimiter then ['\\', c]
  else if isShown c then [c]
  else escapeCode c

/-- The text between two of the `delimiter`. -/
def quote (delimiter : Char) (text : List Char) : String :=
  String.ofList (delimiter :: text.flatMap (escape delimiter) ++ [delimiter])

/-- A text between double quotes. -/
def quoteString (text : String) : String :=
  quote '"' text.toList

/-- A character between single quotes. -/
def quoteChar (c : Char) : String :=
  quote '\'' [c]

example : quoteString "a\n\"b\"" = "\"a\\n\\\"b\\\"\"" := by decide +kernel
example : quoteString "e\u0301'" = "\"e\\u\x7b301\x7d'\"" := by decide +kernel
example : quoteChar '"' = "'\"'" := by decide +kernel
example : quoteChar '\'' = "'\\''" := by decide +kernel

end Text
end Viper
