/-
# Token streams

Scanning a source gives its tokens in order, each with the fault of its text, and the line
on which the file ends. `Lexer` hands out the same tokens one at a time and keeps the
diagnostics of those it has handed out until they are taken.

Key definitions: `Cursor`, `Scanned`, `TokenStream`, `Source.scan`, `Source.tokenize`, `Lexer`.
Key theorems: `Cursor.length_rest_read?`.
-/
import ViperFrontend.Source
import ViperFrontend.Token.Layout
import ViperFrontend.Token.Lexeme

namespace Viper

/-- A token, and what is wrong with its text. -/
structure Scanned where
  token : Token
  fault? : Option LexicalFault
deriving DecidableEq, Repr, Inhabited

/-- The diagnostic of a token whose text is at fault. -/
def Scanned.diagnostic? (file : String) (s : Scanned) : Option Diagnostic :=
  s.fault?.map fun fault => ⟨.lexical fault, s.token.line, file⟩

/-- A place in a text: the line it is on and the text after it. -/
structure Cursor where
  line : UInt32
  rest : List Char

namespace Cursor

/-- The place of the next character that is no layout. -/
def skipLayout (c : Cursor) : Cursor :=
  let place := Layout.skip c.line c.rest
  ⟨place.1, place.2⟩

/-- The next token and the place after it. -/
def read? (c : Cursor) : Option (Scanned × Cursor) :=
  let start := c.skipLayout
  match start.rest with
  | [] => none
  | first :: others =>
    let lexeme := Lexeme.read first others
    some (⟨⟨lexeme.kind, lexeme.text, start.line⟩, lexeme.fault?⟩,
      ⟨Layout.lineAfter start.line lexeme.source, lexeme.rest⟩)

theorem length_rest_read? {c c' : Cursor} {s : Scanned} (h : c.read? = some (s, c')) :
    c'.rest.length < c.rest.length := by
  have skipped := Layout.length_skip_le c.line c.rest
  unfold read? skipLayout at h
  dsimp only at h
  split at h
  · cases h
  · rename_i first others eq
    cases h
    have := Lexeme.length_rest_read first others
    rw [eq, List.length_cons] at skipped
    exact Nat.lt_of_le_of_lt this skipped

end Cursor

/-- The tokens of a source, and the line on which it ends. -/
structure TokenStream where
  scanned : List Scanned
  endLine : UInt32

/-- The tokens from a place on, behind those already read. -/
def Cursor.scan (c : Cursor) (read : Array Scanned) : TokenStream :=
  match _next : c.read? with
  | none => ⟨read.toList, c.skipLayout.line⟩
  | some (s, c') => c'.scan (read.push s)
termination_by c.rest.length
decreasing_by exact Cursor.length_rest_read? _next

namespace TokenStream

/-- The tokens with the one that ends the file. -/
def tokens (stream : TokenStream) : List Token :=
  stream.scanned.map (·.token) ++ [Token.endOfFile stream.endLine]

/-- The diagnostics of the tokens whose text is at fault. -/
def diagnostics (file : String) (stream : TokenStream) : List Diagnostic :=
  stream.scanned.filterMap (·.diagnostic? file)

end TokenStream

namespace Source

/-- The start of a source. -/
def start (source : Source) : Cursor :=
  ⟨1, source.content.toList⟩

/-- All tokens of a source. -/
def scan (source : Source) : TokenStream :=
  source.start.scan #[]

/-- The tokens of a source, the end of the file last, and the diagnostics of its text. -/
def tokenize (source : Source) : List Token × List Diagnostic :=
  let stream := source.scan
  (stream.tokens, stream.diagnostics source.name)

end Source

/-- Hands out the tokens of a source one at a time. -/
structure Lexer where
  file : String
  cursor : Cursor
  pending : Array Diagnostic

namespace Lexer

/-- A lexer at the start of a source. -/
def ofSource (source : Source) : Lexer :=
  ⟨source.name, source.start, #[]⟩

/-- The next token; at the end of the file, the token that ends it, again and again. -/
def next (lexer : Lexer) : Token × Lexer :=
  match lexer.cursor.read? with
  | none => (Token.endOfFile lexer.cursor.skipLayout.line, lexer)
  | some (s, cursor) =>
    (s.token, ⟨lexer.file, cursor, lexer.pending ++ (s.diagnostic? lexer.file).toArray⟩)

/-- The diagnostics since they were last taken. -/
def takeDiagnostics (lexer : Lexer) : Array Diagnostic × Lexer :=
  (lexer.pending, { lexer with pending := #[] })

end Lexer
end Viper
