/-
# The state of a parse

Parsing goes through the tokens of a source once, from left to right. A state holds the
tokens still ahead, the tree built so far and the diagnostics recorded so far. It changes in
four ways only: the current token is passed, a syntax error is recorded, a node is made, an
item is added to the file. `State.Reaches` is the order of states that these steps span, so
whatever each step keeps, every parse keeps.

The parser reads one token beyond the current one, and the fault of a token's text is
recorded as soon as the token is read.

Key definitions: `State`, `State.current`, `State.peek`, `State.advance`, `State.Reaches`.
Key theorems: `State.Reaches.ahead_suffix`.
-/
import ViperFrontend.Ast.Basic
import ViperFrontend.Token.Stream

namespace Viper

/-- A syntax error at a line of the file that is being parsed. -/
structure SyntaxError where
  fault : SyntaxFault
  line : UInt32
deriving DecidableEq, Repr, Inhabited

namespace Parser

/-- The state of a parse. -/
structure State where
  /-- the name of the file -/
  file : String
  /-- how deep constructs may nest -/
  limit : Nat
  /-- the tokens from the current one on, without the end of the file -/
  ahead : List Scanned
  /-- the line on which the file ends -/
  endLine : UInt32
  /-- the tree built so far -/
  ast : Ast
  /-- the diagnostics recorded so far -/
  errors : Array Diagnostic

namespace State

/-- The token that ends the file. -/
def endToken (s : State) : Token :=
  Token.endOfFile s.endLine

/-- The current token: the end of the file when no token is ahead. -/
def current (s : State) : Token :=
  match s.ahead with
  | [] => s.endToken
  | t :: _ => t.token

/-- The token after the current one. -/
def peek (s : State) : Token :=
  match s.ahead with
  | _ :: t :: _ => t.token
  | _ => s.endToken

/-- Adds the diagnostic of a token that is read. -/
def noteFault (file : String) (read : Option Scanned) (errors : Array Diagnostic) :
    Array Diagnostic :=
  match read.bind (·.diagnostic? file) with
  | none => errors
  | some d => errors.push d

/-- The state before the first token, with the first two tokens read. -/
def start (limit : Nat) (source : Source) : State :=
  let stream := source.scan
  { file := source.name, limit, ahead := stream.scanned, endLine := stream.endLine
    ast := Ast.empty
    errors := noteFault source.name stream.scanned[1]?
      (noteFault source.name stream.scanned[0]? #[]) }

/-- Passes the current token and reads one more. The end of the file is never passed. -/
def advance (s : State) : State :=
  match s.ahead with
  | [] => s
  | _ :: rest => { s with ahead := rest, errors := noteFault s.file rest[1]? s.errors }

/-- Records a syntax error. -/
def record (e : SyntaxError) (s : State) : State :=
  { s with errors := s.errors.push ⟨.syntactic e.fault, e.line, s.file⟩ }

/-- Makes a node. -/
def alloc (construct : Construct) (token : Token) (s : State) : NodeId × State :=
  let made := s.ast.alloc construct token
  (made.1, { s with ast := made.2 })

/-- Adds an item to the file. -/
def pushRoot (id : NodeId) (s : State) : State :=
  { s with ast := s.ast.pushRoot id }

/-- The states that come after `s` in a parse. -/
inductive Reaches (s : State) : State → Prop
  | refl : Reaches s s
  | advance {t : State} : Reaches s t → Reaches s t.advance
  | record {t : State} (e : SyntaxError) : Reaches s t → Reaches s (t.record e)
  | alloc {t : State} (construct : Construct) (token : Token) :
      Reaches s t → Reaches s (t.alloc construct token).2
  | pushRoot {t : State} (id : NodeId) : Reaches s t → Reaches s (t.pushRoot id)

theorem Reaches.trans {s t u : State} (h : Reaches s t) (k : Reaches t u) : Reaches s u := by
  induction k with
  | refl => exact h
  | advance _ ih => exact ih.advance
  | record e _ ih => exact ih.record e
  | alloc construct token _ ih => exact ih.alloc construct token
  | pushRoot id _ ih => exact ih.pushRoot id

theorem ahead_advance (s : State) : s.advance.ahead = s.ahead.tail := by
  unfold advance
  split <;> simp_all

/-- Tokens are only ever passed, never put back. -/
theorem Reaches.ahead_suffix {s t : State} (h : Reaches s t) : t.ahead <:+ s.ahead := by
  induction h with
  | refl => exact List.suffix_refl _
  | advance _ ih => exact (ahead_advance _ ▸ List.tail_suffix _).trans ih
  | record _ _ ih => exact ih
  | alloc _ _ _ ih => exact ih
  | pushRoot _ _ ih => exact ih

/-- A state has no more tokens ahead than the states before it. -/
theorem Reaches.length_ahead_le {s t : State} (h : Reaches s t) :
    t.ahead.length ≤ s.ahead.length :=
  h.ahead_suffix.length_le

/-- The line on which the file ends stays the same. -/
theorem Reaches.endLine_eq {s t : State} (h : Reaches s t) : t.endLine = s.endLine := by
  induction h with
  | refl => rfl
  | advance _ ih =>
    refine Eq.trans ?_ ih
    unfold State.advance
    split <;> rfl
  | record _ _ ih => exact ih
  | alloc _ _ _ ih => exact ih
  | pushRoot _ _ ih => exact ih

/-- While no token is passed the current token stays the same. -/
theorem Reaches.current_eq {s t : State} (h : Reaches s t) (same : t.ahead = s.ahead) :
    t.current = s.current := by
  simp only [current, endToken, same, h.endLine_eq]

/-- Without tokens ahead the current token is the end of the file. -/
theorem ahead_ne_nil {s : State} (h : s.current.kind ≠ .eof) : s.ahead ≠ [] := by
  intro none
  simp [current, none, endToken, Token.endOfFile] at h

end State
end Parser
end Viper
