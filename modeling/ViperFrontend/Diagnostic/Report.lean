/-
# Reports

A diagnostic is reported with the line of the source it is about, behind a gutter that is
as wide as the line's number:

    Error: MissingComma (separate list items with `,`)
    -> sum.viper
        |
    117 | print(total count);
        | expected `,` between list items, found identifier

Key definitions: `Diagnostic.report`.
-/
import ViperFrontend.Diagnostic.Basic
import ViperFrontend.Source
import ViperFrontend.Text.Blank
import ViperFrontend.Text.Lines

namespace Viper
namespace Diagnostic

/-- The first line: the name of the cause and the tip. -/
def headline (d : Diagnostic) : String :=
  match d.fault.tip? with
  | none => "Error: " ++ d.fault.name
  | some tip => "Error: " ++ d.fault.name ++ " (" ++ tip ++ ")"

/-- The number of the line, in decimal. -/
def lineNumber (d : Diagnostic) : List Char :=
  Nat.toDigits 10 d.line.toNat

/-- The bar beside a line without a number. -/
def gutter (d : Diagnostic) : String :=
  String.ofList (List.replicate (d.lineNumber.length + 1) ' ' ++ ['|'])

/-- The line the diagnostic is about, if the source has it. -/
def excerpt (d : Diagnostic) (source : Source) : String :=
  match Text.line? source.content d.line with
  | none => ""
  | some text => String.ofList d.lineNumber ++ " | " ++ Text.trim text ++ "\n"

/-- The report of a diagnostic about a source. -/
def report (d : Diagnostic) (source : Source) : String :=
  d.headline ++ "\n" ++ "-> " ++ source.name ++ "\n" ++ d.gutter ++ "\n" ++ d.excerpt source ++
    d.gutter ++ " " ++ d.fault.message ++ "\n"

end Diagnostic
end Viper
