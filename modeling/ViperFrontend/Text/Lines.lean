/-
# The lines of a text

Lines are numbered from 1 and end at a line feed. The carriage returns before a line feed
belong to the line break.

Key definitions: `Text.dropLines`, `Text.line?`.
-/
namespace Viper
namespace Text

/-- What follows the first `n` line feeds, if there are that many. -/
def dropLines : Nat → List Char → Option (List Char)
  | 0, cs => some cs
  | n + 1, cs =>
    match cs.dropWhile (· ≠ '\n') with
    | [] => none
    | _ :: rest => dropLines n rest

/-- Without the carriage returns at the end. -/
def dropReturns (line : List Char) : List Char :=
  (line.reverse.dropWhile (· = '\r')).reverse

/-- The line with the given number, without its line break. -/
def line? (text : String) (number : UInt32) : Option String :=
  if number = 0 then none
  else
    (dropLines (number.toNat - 1) text.toList).map fun rest =>
      String.ofList (dropReturns (rest.takeWhile (· ≠ '\n')))

end Text
end Viper
