/-
# The command line

The program takes the path of a source and two options: to list the tokens first, and to
leave out the tree. It prints the tree, reports the diagnostics on the error stream and
fails if there are any, or if the file cannot be read.

Key definitions: `CommandLine.Options`, `CommandLine.Options.ofArgs?`, `CommandLine.run`.
-/
import ViperFrontend.Ast.Outline
import ViperFrontend.Diagnostic.Report
import ViperFrontend.Parsed

namespace Viper
namespace CommandLine

/-- What the arguments ask for. -/
structure Options where
  path : String
  listTokens : Bool
  quiet : Bool
deriving DecidableEq, Repr

/-- The options given so far, with at most one path. -/
structure Given where
  path? : Option String
  listTokens : Bool
  quiet : Bool

/-- Adds an argument. An unknown option and a second path are refused. -/
def Given.add? (given : Given) (arg : String) : Option Given :=
  if arg = "--tokens" then some { given with listTokens := true }
  else if arg = "--quiet" ∨ arg = "-q" then some { given with quiet := true }
  else if arg.startsWith "-" ∧ arg ≠ "-" then none
  else
    match given.path? with
    | some _ => none
    | none => some { given with path? := some arg }

/-- The options of a list of arguments. -/
def Options.ofArgs? (args : List String) : Option Options := do
  let given ← args.foldlM Given.add? ⟨none, false, false⟩
  let path ← given.path?
  return ⟨path, given.listTokens, given.quiet⟩

/-- The way to call the program. -/
def usage : String :=
  "Usage: viper [--tokens] [--quiet] <SOURCE>\n"

/-- What a run prints, and its exit code. -/
structure Outcome where
  status : UInt32
  stdout : String
  stderr : String
deriving DecidableEq, Repr

/-- The listing of the tokens of a source. -/
def tokenListing (source : Source) : String :=
  source.tokenize.1.foldl (fun text token => text ++ token.listing ++ "\n") ""

/-- The reports of all diagnostics. -/
def reports (source : Source) (errors : Array Diagnostic) : String :=
  errors.foldl (fun text d => text ++ d.report source) ""

/-- Parses a source and prints what the options ask for. -/
def runSource (options : Options) (source : Source) : Outcome :=
  let parsed := source.parse
  let listing := if options.listTokens then tokenListing source else ""
  let tree := if options.quiet then "" else parsed.ast.outline
  let reports := reports source parsed.errors
  if parsed.isOk then ⟨0, listing ++ tree, reports⟩
  else
    let count := String.ofList (Nat.toDigits 10 parsed.errors.size)
    ⟨1, listing ++ tree,
      reports ++ "Error: " ++ source.name ++ " produced " ++ count ++ " diagnostic(s)\n"⟩

/-- A run on what reading the file gave. -/
def run (options : Options) (read : Except ReadFailure Source) : Outcome :=
  match read with
  | .ok source => runSource options source
  | .error failure =>
    ⟨1, "", "Error: failed to read " ++ options.path ++ "\n\nCaused by:\n    " ++
      failure.message ++ "\n"⟩

end CommandLine
end Viper
