/-
# Skipping a construct for which there is no room

A construct that is nested too deeply is skipped: its first token, and if that opens a bracket everything up
to where the bracket is closed; otherwise everything up to a `;` or to a bracket that a construct around
closes. On the way open brackets are counted, brackets of all kinds alike. So in the tokens that are skipped
no bracket is closed more often than it was opened, and at the end none is open unless the file ends
(`Parser.settles_skipConstruct`).

The count knows nothing of kinds, and the first token is passed before anything is counted. So there are two
ways, and no others, to pass a closing bracket that is not due: to start with `)` or `]`, and to close a
bracket by one of another kind (`Parser.skipped_brackets_iff`). Either may take what a construct around
was waiting for.

A skip is meant to do otherwise: "Consumes the current token and, if it opens a bracket, everything up to the
matching close. Otherwise stops after the next `;` or before a closing bracket of an enclosing group." That the
current token is consumed makes no exception for brackets: it is meant to be the first token of a construct,
and no construct starts with a closing bracket. Where the construct is missing altogether, a `}` or the end of
the file is left in its place and nothing is skipped, and a `)` or `]` there is of an enclosing group just as
the `}` is. Nor is a `}` the matching close of a `(`.

Key definitions: `Token.bracket`, `Token.brackets`, `Covered`, `Parser.ClosesItsOwn`.
Key theorems: `brackets_of_covered`, `Parser.settles_skipConstruct`, `Parser.skipped_brackets_iff`.
-/
import ViperFrontend.Proofs.Parser.Nesting
import ViperFrontend.Proofs.Parser.Reading

namespace Viper

open Viper.Parser

/-! ### Brackets in a list of tokens -/

/-- The bracket that closes an opening one. -/
def TokenKind.closer? : TokenKind → Option TokenKind
  | .openParen => some .closeParen
  | .openBracket => some .closeBracket
  | .openCurly => some .closeCurly
  | _ => none

/-- What can be wrong with a closing bracket. -/
inductive BracketFault where
  /-- no bracket is open -/
  | stray
  /-- the innermost open bracket is of another kind -/
  | crossed
deriving DecidableEq, Repr

/-- A closing bracket closes the innermost open one, if that is of its kind. -/
def TokenKind.close (kind : TokenKind) : List TokenKind → Except BracketFault (List TokenKind)
  | [] => .error .stray
  | closer :: due => if kind = closer then .ok due else .error .crossed

/-- The closing brackets that are due behind a token, the innermost first. -/
def Token.bracket (due : List TokenKind) (token : Token) : Except BracketFault (List TokenKind) :=
  match token.kind.closer? with
  | some closer => .ok (closer :: due)
  | none => if token.kind.isClosing then token.kind.close due else .ok due

/-- The closing brackets that are due behind some tokens. -/
def Token.brackets (due : List TokenKind) (read : List Token) : Except BracketFault (List TokenKind) :=
  read.foldlM Token.bracket due

/-- The number of opening brackets. -/
def openings (read : List Token) : Nat :=
  read.countP (·.kind.isOpening)

/-- The number of closing brackets. -/
def closings (read : List Token) : Nat :=
  read.countP (·.kind.isClosing)

/-- With some brackets open before, no bracket is closed that is not open, whatever its kind. -/
def Covered (opened : Nat) (read : List Token) : Prop :=
  ∀ before, before <+: read → closings before ≤ opened + openings before

theorem TokenKind.isSome_closer? (kind : TokenKind) : kind.closer?.isSome = kind.isOpening := by
  cases kind <;> rfl

theorem TokenKind.isClosing_eq_false_of_isOpening {kind : TokenKind} (h : kind.isOpening = true) :
    kind.isClosing = false := by
  revert h
  cases kind <;> decide

theorem TokenKind.cases_of_isClosing {kind : TokenKind} (h : kind.isClosing = true) :
    kind = .closeParen ∨ kind = .closeBracket ∨ kind.isBoundary = true := by
  cases kind <;> simp_all [isClosing, isBoundary]

section Counting

variable {token : Token} {read : List Token} {due : List TokenKind} {opened : Nat}

/-- A token that closes no bracket in vain changes the count as it should. -/
theorem counts_cons (read : List Token) (backed : token.kind.isClosing = true → 0 < opened) :
    balanceAfter opened token.kind + openings read + closings (token :: read) =
      opened + openings (token :: read) + closings read := by
  unfold balanceAfter openings closings
  rw [List.countP_cons, List.countP_cons]
  by_cases opens : token.kind.isOpening = true
  · simp only [opens, TokenKind.isClosing_eq_false_of_isOpening opens, if_true, Bool.false_eq_true, if_false]
    omega
  · by_cases closes : token.kind.isClosing = true
    · have := backed closes
      simp only [opens, closes, if_true, Bool.false_eq_true, if_false]
      omega
    · simp only [opens, closes, Bool.false_eq_true, if_false]
      omega

theorem covered_cons_iff : Covered opened (token :: read) ↔
    (token.kind.isClosing = true → 0 < opened) ∧ Covered (balanceAfter opened token.kind) read := by
  constructor
  · intro h
    have backed : token.kind.isClosing = true → 0 < opened := by
      intro closes
      have first := h [token] (List.prefix_append [token] read)
      have other : ¬ token.kind.isOpening = true := fun opens => by
        simp [TokenKind.isClosing_eq_false_of_isOpening opens] at closes
      have counts : closings [token] = 1 ∧ openings [token] = 0 := by
        simp [closings, openings, closes, other]
      omega
    refine ⟨backed, fun before inside => ?_⟩
    have whole := h (token :: before) ((List.prefix_cons_inj token).2 inside)
    have counts := counts_cons before backed
    omega
  · rintro ⟨backed, h⟩ before inside
    rcases List.prefix_cons_iff.1 inside with rfl | ⟨rest, rfl, behind⟩
    · exact Nat.zero_le _
    · have tail := h rest behind
      have counts := counts_cons rest backed
      omega

theorem covered_nil : Covered opened [] := by
  intro before inside
  rw [List.prefix_nil.1 inside]
  exact Nat.zero_le _

/-- A token that closes no bracket in vain is a stray bracket to nobody. -/
theorem bracket_of_open (backed : token.kind.isClosing = true → 0 < due.length) :
    token.bracket due = .error .crossed ∨
      ∃ due', token.bracket due = .ok due' ∧ due'.length = balanceAfter due.length token.kind := by
  have opens := token.kind.isSome_closer?
  unfold Token.bracket balanceAfter
  cases closer : token.kind.closer? with
  | some next =>
    rw [closer] at opens
    exact .inr ⟨next :: due, rfl, by simp [← opens]⟩
  | none =>
    rw [closer] at opens
    by_cases closes : token.kind.isClosing = true
    · obtain ⟨next, rest, rfl⟩ := List.exists_cons_of_length_pos (backed closes)
      by_cases same : token.kind = next
      · exact .inr ⟨rest, by simp [TokenKind.close, same ▸ closes, same], by simp [← opens, closes]⟩
      · exact .inl (by simp [TokenKind.close, closes, same])
    · exact .inr ⟨due, by simp [closes], by simp [← opens, closes]⟩

/-- **Where no bracket is closed in vain**, the only thing that can be wrong with a bracket is its kind; and if
nothing is, as many are due as the count says. -/
theorem brackets_of_covered (h : Covered due.length read) :
    Token.brackets due read = .error .crossed ∨
      ∃ due', Token.brackets due read = .ok due' ∧
        due'.length + closings read = due.length + openings read := by
  induction read generalizing due with
  | nil => exact .inr ⟨due, rfl, rfl⟩
  | cons token read ih =>
    obtain ⟨backed, rest⟩ := covered_cons_iff.1 h
    unfold Token.brackets at ih ⊢
    rw [List.foldlM_cons]
    rcases bracket_of_open backed with crossed | ⟨next, given, length⟩
    · exact .inl (by rw [crossed]; rfl)
    · rw [given]
      have inside : Covered next.length read := by rwa [length]
      rcases ih inside with crossed | ⟨due', behind, counts⟩
      · exact .inl crossed
      · refine .inr ⟨due', behind, ?_⟩
        have step := counts_cons read backed
        omega

end Counting

/-! ### What is skipped -/

namespace Parser

variable {s : State}

/-- A round of a skip passes a token and decides whether that was the last one. -/
theorem run_skipRound_eq (opened : Nat) (s : State) :
    (skipRound opened).run s =
      (if endsSkip opened s.current.kind then .done ()
        else if s.advance.current.kind = .eof ∨
            balanceAfter opened s.current.kind = 0 ∧ s.advance.current.kind.isClosing = true then .done ()
        else .again (balanceAfter opened s.current.kind), s.advance) := by
  unfold skipRound
  rw [run_bind, run_advance, run_bind, run_current]
  dsimp only
  simp only [Bool.or_eq_true, Bool.and_eq_true, beq_iff_eq, decide_eq_true_eq]
  split_ifs <;> rfl

/-- From `s` to `t` some tokens are passed. With some brackets open before, none is closed in vain, and none
is open in the end unless the file ends there. -/
def Settles (opened : Nat) (s t : State) : Prop :=
  ∃ read, s.tokens = read ++ t.tokens ∧ Covered opened read ∧
    (closings read = opened + openings read ∨ t.current.kind = .eof)

/-- A token that leaves no bracket open, or is the last one. -/
theorem settles_advance {opened : Nat} (here : s.current.kind ≠ .eof)
    (backed : s.current.kind.isClosing = true → 0 < opened)
    (ends : balanceAfter opened s.current.kind = 0 ∨ s.advance.current.kind = .eof) :
    Settles opened s s.advance := by
  refine ⟨[s.current], State.tokens_eq_cons (State.ahead_ne_nil here),
    covered_cons_iff.2 ⟨backed, covered_nil⟩, ?_⟩
  refine ends.imp_left fun none => ?_
  have counts := counts_cons [] backed
  have empty : openings [] = 0 ∧ closings [] = 0 := ⟨rfl, rfl⟩
  omega

theorem Settles.cons {opened : Nat} {t : State} (here : s.current.kind ≠ .eof)
    (backed : s.current.kind.isClosing = true → 0 < opened)
    (h : Settles (balanceAfter opened s.current.kind) s.advance t) : Settles opened s t := by
  obtain ⟨read, split, covered, ends⟩ := h
  refine ⟨s.current :: read, ?_, covered_cons_iff.2 ⟨backed, covered⟩, ends.imp_left fun closed => ?_⟩
  · rw [State.tokens_eq_cons (State.ahead_ne_nil here), split, List.cons_append]
  · have counts := counts_cons read backed
    omega

theorem balanceAfter_of_endsSkip {opened : Nat} {kind : TokenKind} (h : endsSkip opened kind = true) :
    balanceAfter opened kind = 0 := by
  simp only [endsSkip, Bool.or_eq_true, Bool.and_eq_true, beq_iff_eq, decide_eq_true_eq] at h
  rcases h with ⟨-, none⟩ | ⟨rfl, rfl⟩
  · exact none
  · rfl

/-- From the middle of a skip on, with some brackets open: the rest of it settles them. A closing bracket is
the next token only where a bracket is open. -/
theorem settles_skipping (opened : Nat) (s : State) :
    (loop skipRound progresses_skipRound opened).Ensures s fun _ t =>
      s.current.kind ≠ .eof → (s.current.kind.isClosing = true → 0 < opened) → Settles opened s t := by
  refine loop_rule (motive := fun opened s _ t => s.current.kind ≠ .eof →
    (s.current.kind.isClosing = true → 0 < opened) → Settles opened s t) (fun opened s => ?_) opened s
  unfold Ensures
  rw [run_skipRound_eq]
  by_cases ends : endsSkip opened s.current.kind = true
  · rw [if_pos ends]
    exact fun here backed => settles_advance here backed (.inl (balanceAfter_of_endsSkip ends))
  · rw [if_neg ends]
    by_cases last : s.advance.current.kind = .eof ∨
        balanceAfter opened s.current.kind = 0 ∧ s.advance.current.kind.isClosing = true
    · rw [if_pos last]
      exact fun here backed => settles_advance here backed (last.symm.imp_left And.left)
    · rw [if_neg last]
      intro _ t _ rest here backed
      refine Settles.cons here backed (rest (fun eof => last (.inl eof)) fun closes => ?_)
      exact Nat.pos_of_ne_zero fun none => last (.inr ⟨none, closes⟩)

/-- **A skip settles its brackets**, if it does not start at a closing one. -/
theorem settles_skipConstruct (here : s.current.kind ≠ .eof)
    (inside : s.current.kind.isClosing = false) : Settles 0 s (skipConstruct.run s).2 :=
  settles_skipping 0 s here fun closes => absurd closes (by simp [inside])

/-- A closing bracket at the start is all that is skipped. -/
theorem run_skipConstruct_of_closing (closes : s.current.kind.isClosing = true) :
    (skipConstruct.run s).2 = s.advance := by
  have ends : endsSkip 0 s.current.kind = true := by
    revert closes
    cases s.current.kind <;> decide
  rw [skipConstruct, loop_eq, run_bind, run_skipRound_eq, if_pos ends]
  rfl

/-- Of the tokens read up to `t` each closing bracket closes the innermost bracket that was opened among them,
which is of its own kind, and none is left open unless the file ends. -/
def ClosesItsOwn (read : List Token) (t : State) : Prop :=
  ∃ due, Token.brackets [] read = .ok due ∧ (due = [] ∨ t.current.kind = .eof)

theorem not_closesItsOwn {read : List Token} {t : State} {fault : BracketFault}
    (faulty : Token.brackets [] read = .error fault) : ¬ ClosesItsOwn read t := by
  rintro ⟨due, own, -⟩
  rw [faulty] at own
  cases own

/-- Only one list of tokens is passed from `s` to `t`, so a fault in it is the end of the matter. -/
theorem not_exists_closesItsOwn {tokens : List Token} {t : State} {fault : BracketFault}
    (passed : s.tokens = tokens ++ t.tokens) (faulty : Token.brackets [] tokens = .error fault) :
    ¬ ∃ read, s.tokens = read ++ t.tokens ∧ ClosesItsOwn read t := by
  rintro ⟨read, split, own⟩
  have same : read = tokens := List.append_cancel_right (split.symm.trans passed)
  exact not_closesItsOwn faulty (same ▸ own)

theorem snd_run_tooDeep (s : State) :
    (tooDeep.run.run s).2 = if s.current.kind.isBoundary then s else (skipConstruct.run s).2 := by
  by_cases boundary : s.current.kind.isBoundary = true <;> simp [tooDeep, boundary]

/-- **What a refusal skips.** If the construct starts with `)` or `]`, that token alone. If it does not, the
brackets that it opens, which are counted without regard to their kinds, are all closed in the end unless the
file ends, and nothing is closed that was not opened. So each closing bracket that is skipped closes one of
its own kind that was opened in the same skip, unless the skip starts with a closing bracket or comes to one
where a bracket of another kind is to be closed. -/
theorem skipped_brackets_iff (attempt : Nat → Attempt NodeId) (s : State) :
    let t := ((nested 0 attempt).run.run s).2
    let closes := s.current.kind = .closeParen ∨ s.current.kind = .closeBracket
    ∃ read, s.tokens = read ++ t.tokens ∧
      (ClosesItsOwn read t ↔ ¬ closes ∧ Token.brackets [] read ≠ .error .crossed) ∧
      (closes → read = [s.current]) ∧
      (¬ closes → Covered 0 read ∧ (closings read = openings read ∨ t.current.kind = .eof)) := by
  intro t closes
  have run : t = if s.current.kind.isBoundary then s else (skipConstruct.run s).2 := snd_run_tooDeep s
  by_cases start : closes
  · have closing : s.current.kind.isClosing = true := by
      rcases start with kind | kind <;> rw [kind] <;> rfl
    have inside : s.current.kind.isBoundary = false := by
      rcases start with kind | kind <;> rw [kind] <;> rfl
    rw [inside, if_neg Bool.false_ne_true, run_skipConstruct_of_closing closing] at run
    have stray : Token.brackets [] [s.current] = .error .stray := by
      have none : s.current.kind.closer? = none := by
        rcases start with kind | kind <;> rw [kind] <;> rfl
      simp [Token.brackets, Token.bracket, none, closing, TokenKind.close]
    refine ⟨[s.current], ?_, ?_, fun _ => rfl, fun other => (other start).elim⟩
    · rw [run]
      exact State.tokens_eq_cons (ahead_ne_nil_of_not_boundary inside)
    · exact iff_of_false (not_closesItsOwn stray) fun both => both.1 start
  · have settled : Settles 0 s t := by
      rw [run]
      split
      · exact ⟨[], rfl, covered_nil, .inl rfl⟩
      · rename_i inside
        refine settles_skipConstruct (fun eof => inside (by rw [eof]; rfl)) (Bool.eq_false_iff.2 fun closing => ?_)
        rcases TokenKind.cases_of_isClosing closing with paren | bracket | boundary
        · exact start (.inl paren)
        · exact start (.inr bracket)
        · exact inside boundary
    obtain ⟨read, split, covered, ends⟩ := settled
    rw [Nat.zero_add] at ends
    refine ⟨read, split, ?_, fun other => (start other).elim, fun _ => ⟨covered, ends⟩⟩
    have inside : Covered ([] : List TokenKind).length read := covered
    rcases brackets_of_covered inside with crossed | ⟨due, own, counts⟩
    · exact iff_of_false (not_closesItsOwn crossed) fun both => both.2 crossed
    · refine iff_of_true ⟨due, own, ends.imp_left fun same => ?_⟩ ⟨start, by rw [own]; nofun⟩
      exact List.eq_nil_of_length_eq_zero (by rw [List.length_nil] at counts; omega)

/-- The bracket that the index is to end with starts no construct, and is skipped. And a parenthesis that is
still open where its block ends is closed, as far as the count goes, by the bracket of the block. -/
theorem skipped_bracket_of_index :
    (let s := State.start maxNesting ⟨"s.viper", "] x"⟩
    let t := ((nested 0 fun _ => tooDeep).run.run s).2
    s.current.kind = .closeBracket ∧ s.tokens = [s.current] ++ t.tokens ∧
      ¬ ∃ read, s.tokens = read ++ t.tokens ∧ ClosesItsOwn read t) ∧
    (let s := State.start maxNesting ⟨"s.viper", "(1; \x7d x"⟩
    let t := ((nested 0 fun _ => tooDeep).run.run s).2
    s.tokens = [⟨.openParen, "(", 1⟩, ⟨.integer, "1", 1⟩, ⟨.semicolon, ";", 1⟩, ⟨.closeCurly, "\x7d", 1⟩] ++
        t.tokens ∧
      ¬ ∃ read, s.tokens = read ++ t.tokens ∧ ClosesItsOwn read t) := by
  constructor
  · intro s t
    have passed : s.tokens = [s.current] ++ t.tokens := by decide +kernel
    have here : s.current = ⟨.closeBracket, "]", 1⟩ := by decide +kernel
    have stray : Token.brackets [] [s.current] = .error .stray := by
      rw [here]
      rfl
    exact ⟨by rw [here], passed, not_exists_closesItsOwn passed stray⟩
  · intro s t
    have passed : s.tokens = [⟨.openParen, "(", 1⟩, ⟨.integer, "1", 1⟩, ⟨.semicolon, ";", 1⟩,
        ⟨.closeCurly, "\x7d", 1⟩] ++ t.tokens := by decide +kernel
    have crossed : Token.brackets [] [⟨.openParen, "(", 1⟩, ⟨.integer, "1", 1⟩, ⟨.semicolon, ";", 1⟩,
        ⟨.closeCurly, "\x7d", 1⟩] = .error .crossed := rfl
    exact ⟨passed, not_exists_closesItsOwn passed crossed⟩

/-- Where the index is one level further in than there is room for, the parse misses its bracket and every
token that it waits for after that; with more room there is one error. -/
example :
    (Source.parseWith 3 ⟨"s.viper", "let x: int = (a[]);"⟩).errors.map (·.fault) =
        #[.syntactic (.expectedExpression .closeBracket "]")] ∧
      (Source.parseWith 2 ⟨"s.viper", "let x: int = (a[]);"⟩).errors.map (·.fault) =
        #[.syntactic (.nestingTooDeep 2), .syntactic (.unexpectedToken .closeBracket .closeParen ")"),
          .syntactic (.unexpectedToken .closeParen .semicolon ";"),
          .syntactic (.unexpectedToken .semicolon .eof "")] := by
  decide +kernel

/-- Where the parenthesis is one level further in than there is room for, the block of the first procedure does
not end at its bracket, and takes in the second procedure; with more room there are two procedures. -/
example :
    let source : Source := ⟨"s.viper", "proc f(): void { x = (1; } proc g(): void { }"⟩
    (source.parseWith 2).ast.roots.size = 2 ∧ (source.parseWith 1).ast.roots.size = 1 := by
  decide +kernel

end Parser
end Viper
