/-
# Tokens on demand

Whoever reads a source token by token through a `Lexer` sees the tokens that scanning it at once
gives, and behind the last of them the token that ends the file again and again
(`Source.tokenAt`). The diagnostics that have been taken from the lexer are those of the tokens
that it has handed out, none lost and none twice.

A `Window` is a lexer with the last two tokens it has handed out, the current one and the one
after it. After `i` steps these are the tokens at the places `i` and `i + 1`, and the diagnostics
of the first `i + 2` tokens have been taken (`Window.at_after`).

Key definitions: `Source.tokenAt`, `Source.diagnosticsOfFirst`, `Window`.
Key theorems: `Lexer.Stands.next`, `Window.at_after`.
-/
import ViperFrontend.Proofs.Token.Scan

namespace Viper

namespace Source

/-- The token at a place of a source: behind the last one, the token that ends the file. -/
def tokenAt (source : Source) (i : Nat) : Token :=
  source.tokenize.1.getD i (Token.endOfFile source.scan.endLine)

/-- The diagnostics of the first `n` tokens. -/
def diagnosticsOfFirst (source : Source) (n : Nat) : List Diagnostic :=
  (source.scan.scanned.take n).filterMap (·.diagnostic? source.name)

theorem tokenAt_eq (source : Source) (i : Nat) :
    source.tokenAt i =
      (source.scan.scanned[i]?.map (·.token)).getD (Token.endOfFile source.scan.endLine) := by
  simp only [tokenAt, tokenize, TokenStream.tokens, List.getD_eq_getElem?_getD, List.getElem?_append,
    List.length_map, List.getElem?_map]
  split
  · rfl
  · rename_i behind
    have none : source.scan.scanned[i]? = none := List.getElem?_eq_none (Nat.le_of_not_lt behind)
    rw [none]
    cases i - source.scan.scanned.length <;> rfl

theorem tokenAt_mem (source : Source) (i : Nat) : source.tokenAt i ∈ source.tokenize.1 := by
  rw [tokenAt, List.getD_eq_getElem?_getD]
  cases found : source.tokenize.1[i]? with
  | none => exact List.mem_append_right _ List.mem_cons_self
  | some t => exact List.mem_of_getElem? found

theorem diagnosticsOfFirst_succ (source : Source) (n : Nat) :
    source.diagnosticsOfFirst (n + 1) = source.diagnosticsOfFirst n ++
      (source.scan.scanned[n]?.bind (·.diagnostic? source.name)).toList :=
  filterMap_take_succ _ _ n

/-- Those of all tokens are what scanning at once reports. -/
theorem diagnosticsOfFirst_of_length_le {source : Source} {n : Nat}
    (all : source.scan.scanned.length ≤ n) : source.diagnosticsOfFirst n = source.tokenize.2 := by
  rw [diagnosticsOfFirst, List.take_of_length_le all]
  rfl

end Source

/-! ### Lexers -/

/-- The lexer has handed out the first `i` tokens of a source. -/
structure Lexer.Stands (lexer : Lexer) (source : Source) (i : Nat) : Prop where
  file_eq : lexer.file = source.name
  scanned_eq : (lexer.cursor.scan #[]).scanned = source.scan.scanned.drop i
  endLine_eq : (lexer.cursor.scan #[]).endLine = source.scan.endLine

namespace Lexer

theorem stands_ofSource (source : Source) : (ofSource source).Stands source 0 :=
  ⟨rfl, rfl, rfl⟩

variable {lexer : Lexer} {source : Source} {i : Nat}

/-- **The next token** is that of the place, and its diagnostic waits to be taken. -/
theorem Stands.next (h : lexer.Stands source i) :
    lexer.next.1 = source.tokenAt i ∧ lexer.next.2.Stands source (i + 1) ∧
      lexer.next.2.pending = lexer.pending ++
        (source.scan.scanned[i]?.bind (·.diagnostic? source.name)).toArray := by
  have here : source.scan.scanned[i]? = (lexer.cursor.scan #[]).scanned[0]? := by
    rw [h.scanned_eq, List.getElem?_drop, Nat.add_zero]
  have after : source.scan.scanned.drop (i + 1) = (lexer.cursor.scan #[]).scanned.tail := by
    rw [h.scanned_eq, List.tail_drop]
  rw [Source.tokenAt_eq, ← h.endLine_eq, here]
  unfold Lexer.next
  cases read : lexer.cursor.read? with
  | none =>
    have none := Cursor.scanned_scan_of_none read
    have ended := Cursor.endLine_scan_of_none read
    refine ⟨by simp [none, ended], ⟨h.file_eq, ?_, h.endLine_eq⟩, by simp [none]⟩
    rw [after, none]
    rfl
  | some r =>
    have some := Cursor.scanned_scan_of_some read
    have same := Cursor.endLine_scan_of_some read
    refine ⟨by simp [some], ⟨h.file_eq, ?_, same.symm.trans h.endLine_eq⟩, by simp [some, h.file_eq]⟩
    rw [after, some]
    rfl

theorem Stands.take (h : lexer.Stands source i) : lexer.takeDiagnostics.2.Stands source i :=
  ⟨h.file_eq, h.scanned_eq, h.endLine_eq⟩

end Lexer

/-! ### The current token and the one after it -/

/-- A lexer, the last two tokens it has handed out, and the diagnostics taken from it. -/
structure Window where
  lexer : Lexer
  current : Token
  peek : Token
  taken : Array Diagnostic

namespace Window

/-- The first two tokens of a source. -/
def start (source : Source) : Window :=
  let first := (Lexer.ofSource source).next
  let second := first.2.next
  let diagnostics := second.2.takeDiagnostics
  ⟨diagnostics.2, first.1, second.1, diagnostics.1⟩

/-- One token further. -/
def advance (w : Window) : Window :=
  let read := w.lexer.next
  let diagnostics := read.2.takeDiagnostics
  ⟨diagnostics.2, w.peek, read.1, w.taken ++ diagnostics.1⟩

/-- The window after a number of steps. -/
def after (source : Source) : Nat → Window
  | 0 => start source
  | i + 1 => (after source i).advance

/-- The window shows the tokens at the places `i` and `i + 1` of a source. -/
structure At (w : Window) (source : Source) (i : Nat) : Prop where
  current_eq : w.current = source.tokenAt i
  peek_eq : w.peek = source.tokenAt (i + 1)
  taken_eq : w.taken.toList = source.diagnosticsOfFirst (i + 2)
  stands : w.lexer.Stands source (i + 2)
  none_pending : w.lexer.pending = #[]

theorem at_start (source : Source) : (start source).At source 0 := by
  obtain ⟨first, stands, pending⟩ := (Lexer.stands_ofSource source).next
  obtain ⟨second, stands', pending'⟩ := stands.next
  refine ⟨first, second, ?_, stands'.take, rfl⟩
  show ((Lexer.ofSource source).next.2.next.2.pending).toList = _
  rw [pending', pending, source.diagnosticsOfFirst_succ 1, source.diagnosticsOfFirst_succ 0]
  simp [Lexer.ofSource, Source.diagnosticsOfFirst]

theorem At.advance {w : Window} {source : Source} {i : Nat} (h : w.At source i) :
    w.advance.At source (i + 1) := by
  obtain ⟨next, stands, pending⟩ := h.stands.next
  refine ⟨h.peek_eq, next, ?_, stands.take, rfl⟩
  show (w.taken ++ w.lexer.next.2.pending).toList = _
  rw [pending, h.none_pending, source.diagnosticsOfFirst_succ (i + 2), ← h.taken_eq]
  simp

/-- **After `i` steps** the window shows the tokens at the places `i` and `i + 1`, and the
diagnostics of the tokens up to there have been taken. -/
theorem at_after (source : Source) : ∀ i : Nat, (after source i).At source i
  | 0 => at_start source
  | i + 1 => (at_after source i).advance

end Window
end Viper
