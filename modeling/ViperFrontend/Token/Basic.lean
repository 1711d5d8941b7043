/-
# Tokens

A token is a kind, the text it was read from and the line it starts on. The text is what
the source holds, but for a string literal, whose quotes are left out.

Key definitions: `Token`, `Token.listing`.
-/
import ViperFrontend.Token.Kind
import ViperFrontend.Text.Quoted

namespace Viper

/-- A piece of a source with its kind and the number of its first line. -/
structure Token where
  kind : TokenKind
  text : String
  line : UInt32
deriving DecidableEq, Repr, Inhabited

namespace Token

/-- The token that ends a file whose last line is `line`. -/
def endOfFile (line : UInt32) : Token :=
  ⟨.eof, "", line⟩

/-- The token that stands in for one that is missing: of the kind asked for and without
text. -/
def missing (kind : TokenKind) (line : UInt32) : Token :=
  ⟨kind, "", line⟩

/-- A number in decimal, on the right of a column that is four wide. -/
def lineColumn (line : UInt32) : String :=
  let digits := Nat.toDigits 10 line.toNat
  String.ofList (List.replicate (4 - digits.length) ' ' ++ digits)

/-- The line of a token listing: the line number, the kind and the quoted text. -/
def listing (t : Token) : String :=
  lineColumn t.line ++ " " ++ t.kind.name ++ " " ++ Text.quoteString t.text

end Token
end Viper
