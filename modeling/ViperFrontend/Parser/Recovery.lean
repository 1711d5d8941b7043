/-
# Recovery from syntax errors

A parse never stops at an error. A token that is not the one required is passed, but for the
end of the file and a `}`, which the constructs around may still need; a construct that
could not be parsed is recorded and stands in the tree as an invalid node; a construct that
is nested too deeply is skipped as a whole.

Key definitions: `Parser.expect`, `Parser.eat`, `Parser.recover`, `Parser.skipConstruct`,
`Parser.nested`, `Parser.commaList`.
-/
import ViperFrontend.Parser.Basic

namespace Viper

/-- The tokens that recovery never passes: `}` and the end of the file. -/
def TokenKind.isBoundary : TokenKind → Bool
  | .closeCurly | .eof => true
  | _ => false

namespace Parser

theorem ahead_ne_nil_of_not_boundary {s : State} (h : s.current.kind.isBoundary = false) :
    s.ahead ≠ [] :=
  State.ahead_ne_nil fun eof => by simp [eof, TokenKind.isBoundary] at h

/-- The error that a token is there and one of another kind was required. -/
def unexpected (expected : TokenKind) (found : Token) : SyntaxError :=
  ⟨.unexpectedToken expected found.kind found.text, found.line⟩

/-- Passes the current token unless it is a boundary. -/
def passOffending : Parser Unit := do
  let token ← current
  if token.kind.isBoundary then return () else
    let _ ← advance
    return ()

/-- Passes the current token. If it is not of the kind required that is an error, and a
boundary stays. -/
def expect (expected : TokenKind) : Attempt Token := do
  let token ← current
  if token.kind = expected then advance
  else
    passOffending
    throw (unexpected expected token)

/-- Passes a token of the kind required, or records that there is none and gives an empty
one in its place. -/
def eat (expected : TokenKind) : Parser Token := do
  let token ← current
  match ← (expect expected).run with
  | .ok found => return found
  | .error e =>
    record e
    return Token.missing expected token.line

/-- The node of an attempt. If it fails, the error is recorded and an invalid node stands at
the token where it failed. -/
def recover (attempt : Attempt NodeId) : Parser NodeId := do
  match ← attempt.run with
  | .ok id => return id
  | .error e =>
    record e
    let token ← current
    alloc .invalid token

/-! ## Nesting -/

/-- The number of brackets that are open after a token. -/
def balanceAfter (opened : Nat) (passed : TokenKind) : Nat :=
  if passed.isOpening then opened + 1
  else if passed.isClosing then opened - 1
  else opened

/-- Whether a skipped construct ends with the token just passed, `opened` brackets being open
before it: at the bracket that closes the first one, or at a `;` outside brackets. -/
def endsSkip (opened : Nat) (passed : TokenKind) : Bool :=
  (passed.isClosing && balanceAfter opened passed == 0) || (passed = .semicolon && opened == 0)

/-- Passes one token of a skipped construct. Outside brackets the construct also ends before
a closing bracket. -/
def skipRound (opened : Nat) : Parser (Round Nat Unit) := do
  let passed ← advance
  let next ← current
  let balance := balanceAfter opened passed.kind
  if endsSkip opened passed.kind then return .done ()
  else if next.kind = .eof || (balance == 0 && next.kind.isClosing) then return .done ()
  else return .again balance

theorem progresses_skipRound : Progresses skipRound := by
  intro x s y h
  have moved : s.advance.ahead ≠ [] := by
    apply State.ahead_ne_nil
    intro eof
    simp only [skipRound, run_bind, run_advance, run_current, eof] at h
    split at h <;> simp at h
  apply (moves_advance _).bind
  intro none
  exact moved (by rw [State.ahead_advance, none]; rfl)

/-- Passes the current token and, if it opens a bracket, everything up to the one that closes
it; otherwise everything up to the next `;` or to a closing bracket of a construct around. -/
def skipConstruct : Parser Unit :=
  loop skipRound progresses_skipRound 0

/-- Skips a construct for which there is no room. A boundary stays. -/
def tooDeep : Attempt NodeId := do
  let token ← current
  let limit ← nestingLimit
  if token.kind.isBoundary then throw ⟨.nestingTooDeep limit, token.line⟩
  else
    skipConstruct
    throw ⟨.nestingTooDeep limit, token.line⟩

/-- Parses one level further in, with one level less of room. -/
def nested : Nat → (Nat → Attempt NodeId) → Attempt NodeId
  | 0, _ => tooDeep
  | room + 1, attempt => attempt room

theorem moves_skipConstruct {s : State} (h : s.ahead ≠ []) : skipConstruct.Moves s := by
  rw [skipConstruct, loop_eq]
  exact ((moves_advance h).bind _).bind _

theorem moves_tooDeep {s : State} (h : s.current.kind.isBoundary = false) :
    tooDeep.run.Moves s := by
  have moved := moves_skipConstruct (ahead_ne_nil_of_not_boundary h)
  have run : (tooDeep.run.run s).2 = (skipConstruct.run s).2 := by
    simp [tooDeep, h]
  unfold Moves
  rw [run]
  exact moved

/-! ## Lists -/

/-- One item of a list and what follows it: a comma, the end of the list, or an error. -/
def listRound (item : Parser NodeId) (items : Array NodeId) :
    Parser (Round (Array NodeId) (List NodeId)) := do
  let token ← current
  if token.kind = .closeParen ∨ token.kind = .eof then return .done items.toList
  else
    let id ← item
    let next ← current
    if next.kind = .comma then
      let _ ← advance
      return .again (items.push id)
    else if next.kind = .closeParen ∨ next.kind = .eof then return .done (items.push id).toList
    else
      record ⟨.missingComma next.kind, next.line⟩
      return .done (items.push id).toList

theorem progresses_listRound (item : Parser NodeId) : Progresses (listRound item) := by
  intro x s y h
  unfold listRound at h ⊢
  apply moves_bind
  rw [run_bind] at h
  split at h
  · cases h
  · rename_i more
    rw [if_neg more]
    rw [run_bind] at h
    apply moves_bind
    rw [run_bind] at h
    apply moves_bind
    split at h
    · rename_i comma
      rw [if_pos comma]
      apply (moves_advance _).bind
      apply State.ahead_ne_nil
      rw [show (current.run _).2.current.kind = .comma from comma]
      decide
    · split at h <;> cases h

/-- The items up to a `)`, between commas; a comma may also follow the last one. Without a
comma after an item the list ends. -/
def commaList (item : Parser NodeId) : Parser (List NodeId) :=
  loop (listRound item) (progresses_listRound item) #[]

/-! ## What passes a token -/

theorem moves_eat {expected : TokenKind} {s : State} (h : s.current.kind.isBoundary = false) :
    (eat expected).Moves s := by
  have moved := moves_advance (ahead_ne_nil_of_not_boundary h)
  unfold eat
  apply moves_bind
  apply Moves.bind
  have run : ((expect expected).run.run s).2 = (advance.run s).2 := by
    by_cases same : s.current.kind = expected
    · simp [expect, same]
    · simp [expect, same, passOffending, h]
  unfold Moves
  rw [run_current, run]
  exact moved

end Parser
end Viper
