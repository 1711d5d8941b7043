/-
# Parsing a source

The result of a parse is a tree and all diagnostics, of the text and of the syntax, in the
order in which they were found.

Key definitions: `Parsed`, `maxNesting`, `Source.parseWith`, `Source.parse`.
-/
import ViperFrontend.Parser.Item

namespace Viper

/-- A tree and the diagnostics of its source. -/
structure Parsed where
  ast : Ast
  errors : Array Diagnostic

namespace Parsed

/-- What a parse has come to. -/
def ofState (s : Parser.State) : Parsed :=
  ⟨s.ast, s.errors⟩

/-- Nothing is wrong with the source. -/
def isOk (parsed : Parsed) : Bool :=
  parsed.errors.isEmpty

end Parsed

/-- How deep constructs may nest. -/
def maxNesting : Nat := 256

namespace Source

/-- Parses a source whose constructs may nest `limit` levels deep. -/
def parseWith (limit : Nat) (source : Source) : Parsed :=
  .ofState ((Item.program (Statement.Inner.ofRoom limit)).run (Parser.State.start limit source)).2

/-- Parses a source. -/
def parse (source : Source) : Parsed :=
  source.parseWith maxNesting

end Source
end Viper
