/-
# Data types

A data type is written as a name or as `void`.

Key definitions: `DataType.token`, `DataType.parse`.
-/
import ViperFrontend.Parser.Recovery

namespace Viper
namespace DataType

open Viper.Parser

/-- The token of a data type. Nothing is passed if there is none. -/
def token : Attempt Token := do
  let token ← current
  match token.kind with
  | .identifier | .kwVoid => advance
  | found => throw ⟨.expectedDataType found token.text, token.line⟩

/-- A data type. -/
def parse : Attempt NodeId := do
  let token ← token
  alloc (.dataType token.text) token

/-- A data type where one is required: an invalid node if there is none. -/
def parseOrInvalid : Parser NodeId :=
  recover parse

end DataType
end Viper
