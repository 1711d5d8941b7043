/-
# Items of a file

A file is a list of procedures, structs and `let` declarations. What is no item is passed
token by token and reported once for each run of such tokens.

Key definitions: `Item.procedure`, `Item.struct`, `Item.program`.
-/
import ViperFrontend.Parser.Statement

namespace Viper
namespace Item

open Viper.Parser
open Statement (Inner beforeBoundary? blockOrInvalid not_boundary)

variable (inner : Inner)

/-- `name: type`. -/
def parameter : Parser NodeId := do
  let name ← eat .identifier
  let _ ← eat .colon
  match ← DataType.token.run with
  | .ok type => alloc (.procParameter name.text type) name
  | .error e =>
    let token ← current
    record e
    alloc (.procParameter name.text (Token.missing .identifier token.line)) name

/-- `proc name(parameter, ...): type body`, or the same with `define`. -/
def procedure : Parser NodeId := do
  let start ← advance
  let name ← eat .identifier
  let _ ← eat .openParen
  let parameters ← commaList parameter
  let _ ← eat .closeParen
  let _ ← eat .colon
  let type ← DataType.parseOrInvalid
  let body ← blockOrInvalid inner
  alloc (.procDecl name.text parameters type body) start

/-- `name :: type;`. -/
def field : Parser NodeId := do
  let name ← advance
  let _ ← eat .doubleColon
  let type ← DataType.parseOrInvalid
  let _ ← eat .semicolon
  alloc (.structField name.text type) name

/-- The members of a struct. -/
structure Members where
  fields : Array NodeId
  methods : Array NodeId

/-- One more member, or a token that starts none. -/
def memberRound (token : Token) (members : Members) : Parser Members :=
  match token.kind with
  | .identifier => do
    let id ← field
    return { members with fields := members.fields.push id }
  | .kwProc | .kwDefine => do
    let id ← procedure inner
    return { members with methods := members.methods.push id }
  | found => do
    record ⟨.expectedStructMember found token.text, token.line⟩
    let _ ← advance
    return members

theorem moves_memberRound (token : Token) (members : Members) (s : State)
    (h : beforeBoundary? s = some token) : (memberRound inner token members).Moves s := by
  have some := ahead_ne_nil_of_not_boundary (not_boundary h)
  unfold memberRound
  split
  · exact ((moves_advance some).bind _).bind _
  · exact ((moves_advance some).bind _).bind _
  · exact ((moves_advance some).bind _).bind _
  · exact moves_bind ((moves_advance (s := s.record _) some).bind _)

/-- The members before a boundary. -/
def members : Parser Members :=
  foldWhile beforeBoundary? (memberRound inner) (moves_memberRound inner) ⟨#[], #[]⟩

/-- `struct name { member ... }`. -/
def struct : Parser NodeId := do
  let start ← advance
  let name ← eat .identifier
  let _ ← eat .openCurly
  let members ← members inner
  let _ ← eat .closeCurly
  alloc (.structDecl name.text members.fields.toList members.methods.toList) start

/-- The parser of the item that a token starts. -/
def ofToken? (token : Token) : Option (Parser NodeId) :=
  match token.kind with
  | .kwProc | .kwDefine => some (procedure inner)
  | .kwStruct => some (struct inner)
  | .kwLet => some (Statement.varDecl inner)
  | _ => none

/-- Reports a token that starts no item, unless it is in a run that is being skipped. -/
def reportStray (token : Token) (skipping : Bool) : Parser Unit :=
  if skipping then pure ()
  else record ⟨.expectedTopLevelItem token.kind token.text, token.line⟩

/-- One more item, or a token that starts none. `skipping` tells whether the token before
started none either. -/
def programRound (token : Token) (skipping : Bool) : Parser Bool :=
  match ofToken? inner token with
  | some item => do
    let id ← item
    pushRoot id
    return false
  | none => do
    reportStray token skipping
    let _ ← advance
    return true

/-- The current token, unless the file ends. -/
def beforeEnd? (s : State) : Option Token :=
  if s.current.kind = .eof then none else some s.current

theorem moves_ofToken? {token : Token} {item : Parser NodeId} {s : State} (h : s.ahead ≠ [])
    (starts : ofToken? inner token = some item) : item.Moves s := by
  unfold ofToken? at starts
  split at starts <;> cases starts <;> exact (moves_advance h).bind _

theorem moves_programRound (token : Token) (skipping : Bool) (s : State)
    (h : beforeEnd? s = some token) : (programRound inner token skipping).Moves s := by
  have some : s.ahead ≠ [] := by
    apply State.ahead_ne_nil
    intro eof
    simp [beforeEnd?, eof] at h
  unfold programRound
  split
  · exact (moves_ofToken? inner some ‹_›).bind _
  · apply moves_bind
    apply (moves_advance _).bind
    cases skipping <;> exact some

/-- All items up to the end of the file. -/
def program : Parser Unit := do
  let _ ← foldWhile beforeEnd? (programRound inner) (moves_programRound inner) false

end Item
end Viper
