/-
# Lexers under any schedule

Whoever holds a lexer asks it for tokens and takes its diagnostics in any order (`Lexer.Call`). The
order makes no difference: the tokens are those of the source, and what has been taken together with
what still waits are the diagnostics of the tokens that have been handed out (`Lexer.Trace.At`, which
every call keeps).

Of these each belongs to one illegal token and says what is wrong with its text
(`LexicalFault.Explains`). A string literal or a block comment that does not end takes the rest of the
file, so nothing but the end of the file follows it, and no other is reported.

Key definitions: `LexicalFault.Explains`, `Lexer.Trace`, `Scanned.Explained`.
Key theorems: `Source.explained_scan`, `Lexer.Trace.at_ofCalls`, `Lexer.Trace.diagnostics_paired`.
-/
import Mathlib.Data.List.Forall2
import ViperFrontend.Proofs.Token.Faults
import ViperFrontend.Proofs.Token.Pull

namespace Viper

/-! ### What a fault says of its token -/

namespace LexicalFault

/-- The fault is that of a token that should end and does not. -/
def isOpen : LexicalFault → Bool
  | .unterminatedString | .unterminatedComment => true
  | _ => false

/-- The fault says what is wrong with an illegal token of this text. -/
def Explains : LexicalFault → String → Prop
  | .illegalCharacter c, text => text.toList = [c]
  | .malformedNumber literal, text => literal = text ∧ 2 ≤ text.toList.count '.'
  | .unterminatedString, _ => True
  | .unterminatedComment, text => text = "/*"

end LexicalFault

/-- An illegal lexeme has a fault that explains it, and takes the rest of the text if it should end and
does not. -/
def Lexeme.Explained (lexeme : Lexeme) : Prop :=
  lexeme.kind = .illegal ∧ ∃ fault, lexeme.fault? = some fault ∧ fault.Explains lexeme.text ∧
    (fault.isOpen = true → lexeme.rest = [])

namespace Lexeme

theorem explained_string (cs : List Char) : (string cs).Plain ∨ (string cs).Explained := by
  unfold string
  dsimp only
  split
  · exact .inr ⟨rfl, _, rfl, trivial, fun _ => rfl⟩
  · exact .inl ⟨TokenKind.noConfusion, rfl⟩

theorem explained_number (c : Char) (cs : List Char) :
    (number c cs).Plain ∨ (number c cs).Explained := by
  unfold number
  dsimp only
  split
  · exact .inl ⟨TokenKind.noConfusion, rfl⟩
  · exact .inl ⟨TokenKind.noConfusion, rfl⟩
  · rename_i some several
    refine .inr ⟨rfl, _, rfl, ⟨rfl, ?_⟩, fun opened => by cases opened⟩
    rw [String.toList_ofList]
    exact Nat.lt_of_le_of_ne (Nat.pos_of_ne_zero some) (Ne.symm several)

theorem explained_illegal (c : Char) (cs : List Char) : (illegal c cs).Explained :=
  ⟨rfl, _, rfl, String.toList_ofList, fun opened => by cases opened⟩

theorem explained_openComment (cs : List Char) : (openComment cs).Explained :=
  ⟨rfl, _, rfl, rfl, fun _ => rfl⟩

/-- **What is read is a token or explained.** -/
theorem explained_read (c : Char) (cs : List Char) :
    (read c cs).Plain ∨ (read c cs).Explained := by
  unfold read
  split
  · exact explained_string cs
  split
  · exact explained_number c cs
  split
  · rcases TokenKind.getD_ofReserved? (word c cs).text with name | keyword
    · exact .inl ⟨fun illegal => TokenKind.noConfusion (name.symm.trans illegal), rfl⟩
    · exact .inl (plain_of_symbol? keyword rfl)
  split
  · exact .inr (explained_openComment cs)
  split
  · rename_i first starts
    exact .inl (plain_of_symbol? (TokenKind.isSome_symbol?_extend cs
      (TokenKind.isSome_symbol?_of_ofChar? starts)) rfl)
  · exact .inr (explained_illegal c cs)

end Lexeme

namespace Scanned

/-- A legal token with nothing wrong, or an illegal one with a fault that explains it; `ended` is to hold
if it should end and does not. -/
def ExplainedIf (ended : Prop) (x : Scanned) : Prop :=
  (x.token.kind ≠ .illegal ∧ x.fault? = none) ∨
    x.token.kind = .illegal ∧ ∃ fault, x.fault? = some fault ∧ fault.Explains x.token.text ∧
      (fault.isOpen = true → ended)

/-- Every token of a list is explained, and one that should end and does not is the last. -/
inductive Explained : List Scanned → Prop
  | nil : Explained []
  | cons {x : Scanned} {xs : List Scanned} (first : x.ExplainedIf (xs = [])) (rest : Explained xs) :
      Explained (x :: xs)

theorem Explained.getElem? {xs : List Scanned} (h : Explained xs) {i : Nat} {x : Scanned}
    (here : xs[i]? = some x) : x.ExplainedIf (xs.length = i + 1) := by
  induction h generalizing i with
  | nil => simp at here
  | @cons y ys first rest ih =>
    cases i with
    | zero =>
      obtain rfl : y = x := by simpa using here
      exact first.imp_right fun ⟨kind, fault, given, explains, last⟩ =>
        ⟨kind, fault, given, explains, fun opened => by simp [last opened]⟩
    | succ i =>
      have later : ys[i]? = some x := by simpa using here
      exact (ih later).imp_right fun ⟨kind, fault, given, explains, last⟩ =>
        ⟨kind, fault, given, explains, fun opened => by simp [last opened]⟩

/-- The token should end and does not. -/
def isOpen (x : Scanned) : Bool :=
  x.fault?.any (·.isOpen)

/-- At most one token of a list does not end. -/
theorem Explained.countP_isOpen_le {xs : List Scanned} (h : Explained xs) :
    xs.countP isOpen ≤ 1 := by
  induction h with
  | nil => simp
  | @cons x xs first rest ih =>
    by_cases opened : x.isOpen = true
    · rcases first with ⟨-, none⟩ | ⟨-, fault, some, -, last⟩
      · simp [isOpen, none] at opened
      · rw [isOpen, some] at opened
        rw [last opened]
        exact List.countP_le_length
    · rwa [List.countP_cons_of_neg opened]

end Scanned

theorem Cursor.explained_scan (c : Cursor) : Scanned.Explained (c.scan #[]).scanned := by
  induction length : c.rest.length using Nat.strongRecOn generalizing c with
  | ind n ih =>
    cases next : c.read? with
    | none =>
      rw [scanned_scan_of_none next]
      exact .nil
    | some r =>
      have rest := ih _ (length ▸ length_rest_read? next) r.2 rfl
      rw [scanned_scan_of_some next]
      refine .cons ?_ rest
      unfold read? at next
      dsimp only at next
      split at next
      · cases next
      · rename_i first others _
        cases next
        refine (Lexeme.explained_read first others).imp_right ?_
        rintro ⟨kind, fault, some, explains, last⟩
        refine ⟨kind, fault, some, explains, fun opened => ?_⟩
        dsimp only
        rw [last opened, Word.scanned_nil]

/-- **Every token of a source is explained.** -/
theorem Source.explained_scan (source : Source) : Scanned.Explained source.scan.scanned :=
  source.start.explained_scan

/-! ### Calls in any order -/

namespace Lexer

/-- What a lexer is asked for: its next token, or the diagnostics that wait. -/
inductive Call where
  | next
  | take
deriving DecidableEq, Repr

/-- A lexer and what it has given so far. -/
structure Trace where
  lexer : Lexer
  tokens : List Token
  drained : List (List Diagnostic)

namespace Trace

/-- Nothing has been asked for. -/
def start (source : Source) : Trace :=
  ⟨Lexer.ofSource source, [], []⟩

/-- One more call. -/
def call (trace : Trace) : Call → Trace
  | .next =>
    let read := trace.lexer.next
    { trace with lexer := read.2, tokens := trace.tokens ++ [read.1] }
  | .take =>
    let taken := trace.lexer.takeDiagnostics
    { trace with lexer := taken.2, drained := trace.drained ++ [taken.1.toList] }

/-- The calls, one after the other. -/
def ofCalls (source : Source) (calls : List Call) : Trace :=
  calls.foldl call (start source)

/-- The diagnostics that have been taken, and those that wait. -/
def reported (trace : Trace) : List Diagnostic :=
  trace.drained.flatten ++ trace.lexer.pending.toList

/-- The first `n` tokens of a source have been handed out, and their diagnostics reported. -/
structure At (trace : Trace) (source : Source) (n : Nat) : Prop where
  stands : trace.lexer.Stands source n
  tokens_eq : trace.tokens = (List.range n).map source.tokenAt
  reported_eq : trace.reported = source.diagnosticsOfFirst n

variable {trace : Trace} {source : Source} {n : Nat}

theorem at_start (source : Source) : (start source).At source 0 where
  stands := stands_ofSource source
  tokens_eq := rfl
  reported_eq := rfl

theorem At.next (h : trace.At source n) : (trace.call .next).At source (n + 1) := by
  obtain ⟨token, stands, pending⟩ := h.stands.next
  refine ⟨stands, ?_, ?_⟩
  · rw [List.range_succ, List.map_append, ← h.tokens_eq, List.map_singleton, ← token]
    rfl
  · show trace.drained.flatten ++ trace.lexer.next.2.pending.toList = _
    rw [pending, source.diagnosticsOfFirst_succ, ← h.reported_eq, reported]
    simp

theorem At.take (h : trace.At source n) : (trace.call .take).At source n := by
  refine ⟨h.stands.take, h.tokens_eq, ?_⟩
  rw [← h.reported_eq]
  simp [reported, call, takeDiagnostics]

theorem At.calls (h : trace.At source n) (calls : List Call) :
    (calls.foldl call trace).At source (n + calls.count .next) := by
  induction calls generalizing trace n with
  | nil => exact h
  | cons c calls ih =>
    cases c with
    | next =>
      rw [List.count_cons_self, Nat.add_comm _ 1, ← Nat.add_assoc]
      exact ih h.next
    | take =>
      rw [List.count_cons_of_ne (by decide)]
      exact ih h.take

/-- **Whatever the order of the calls**, a lexer has handed out as many tokens as it was asked for. -/
theorem at_ofCalls (source : Source) (calls : List Call) :
    (ofCalls source calls).At source (calls.count .next) := by
  simpa [ofCalls] using (at_start source).calls calls

end Trace
end Lexer

/-! ### Diagnostics and illegal tokens -/

namespace Source

variable (source : Source)

/-- The places of the illegal tokens among the first `n`. -/
def illegalPlaces (n : Nat) : List Nat :=
  (List.range n).filter fun i => (source.tokenAt i).kind = .illegal

/-- The diagnostic is that of the token at place `i`, behind which the file ends if the token should end
and does not. -/
structure Reports (i : Nat) (d : Diagnostic) : Prop where
  line_eq : d.line = (source.tokenAt i).line
  file_eq : d.file = source.name
  explained : ∃ fault, d.fault = .lexical fault ∧ fault.Explains (source.tokenAt i).text ∧
    (fault.isOpen = true → source.tokenAt (i + 1) = Token.endOfFile source.scan.endLine)

theorem illegalPlaces_succ (n : Nat) :
    source.illegalPlaces (n + 1) = source.illegalPlaces n ++
      if (source.tokenAt n).kind = .illegal then [n] else [] := by
  simp only [illegalPlaces, List.range_succ, List.filter_append, List.filter_cons, List.filter_nil,
    decide_eq_true_eq]

variable {source} in
theorem tokenAt_of_length_le {i : Nat} (behind : source.scan.scanned.length ≤ i) :
    source.tokenAt i = Token.endOfFile source.scan.endLine := by
  rw [tokenAt_eq, List.getElem?_eq_none behind]
  rfl

/-- One more token gives a diagnostic if it is illegal, and none if it is not. -/
theorem reports_tokenAt (n : Nat) :
    List.Forall₂ source.Reports (if (source.tokenAt n).kind = .illegal then [n] else [])
      (source.scan.scanned[n]?.bind (·.diagnostic? source.name)).toList := by
  cases here : source.scan.scanned[n]? with
  | none =>
    have token : source.tokenAt n = Token.endOfFile source.scan.endLine := by
      rw [tokenAt_eq, here]
      rfl
    rw [token, if_neg (by simp [Token.endOfFile])]
    exact .nil
  | some x =>
    have token : source.tokenAt n = x.token := by
      rw [tokenAt_eq, here]
      rfl
    rw [token]
    rcases source.explained_scan.getElem? here with
      ⟨legal, none⟩ | ⟨illegal, fault, some, explains, last⟩
    · rw [if_neg legal]
      simp [Scanned.diagnostic?, none]
    · rw [if_pos illegal]
      simp only [Option.bind_some, Scanned.diagnostic?, some, Option.map_some, Option.toList_some]
      refine .cons ⟨congrArg Token.line token.symm, rfl, fault, rfl, token ▸ explains, ?_⟩ .nil
      exact fun opened => tokenAt_of_length_le (Nat.le_of_eq (last opened))

/-- **One diagnostic for each illegal token.** -/
theorem diagnosticsOfFirst_paired (n : Nat) :
    List.Forall₂ source.Reports (source.illegalPlaces n) (source.diagnosticsOfFirst n) := by
  induction n with
  | zero => exact .nil
  | succ n ih =>
    rw [illegalPlaces_succ, diagnosticsOfFirst_succ]
    exact List.rel_append ih (source.reports_tokenAt n)

end Source

/-- The diagnostic is that of a token that should end and does not. -/
def Diagnostic.isOpen (d : Diagnostic) : Bool :=
  match d.fault with
  | .lexical fault => fault.isOpen
  | .syntactic _ => false

theorem Source.countP_isOpen_le (source : Source) (n : Nat) :
    (source.diagnosticsOfFirst n).countP Diagnostic.isOpen ≤ 1 := by
  have opened : (fun x : Scanned =>
      ((x.diagnostic? source.name).map Diagnostic.isOpen).getD false) = Scanned.isOpen := by
    funext ⟨token, fault?⟩
    cases fault? <;> rfl
  rw [diagnosticsOfFirst, List.countP_filterMap, opened]
  exact Nat.le_trans ((List.take_sublist n _).countP_le) source.explained_scan.countP_isOpen_le

/-- **Diagnostics and illegal tokens go together under any schedule.** Whatever order tokens are asked
for and diagnostics are taken in, the tokens handed out are those of the source, from the first on and
with the end of the file again and again behind the last. What has been taken and what waits is one
diagnostic for each illegal token among them, in their order: on the line of the token, for its single
character, its text with two points or more, or because it does not end. This happens at most once,
and the end of the file follows the token at once. -/
theorem Lexer.Trace.diagnostics_paired (source : Source) (calls : List Lexer.Call) :
    let trace := ofCalls source calls
    let n := calls.count .next
    trace.tokens = (List.range n).map source.tokenAt ∧
    List.Forall₂ source.Reports (source.illegalPlaces n) trace.reported ∧
    trace.reported.countP Diagnostic.isOpen ≤ 1 := by
  intro trace n
  have reached : trace.At source n := at_ofCalls source calls
  rw [reached.reported_eq]
  exact ⟨reached.tokens_eq, source.diagnosticsOfFirst_paired n, source.countP_isOpen_le n⟩

end Viper
