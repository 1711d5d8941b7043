/-
# Lines of a result

A parse makes up no lines: each node, each type of a parameter and each diagnostic has the line of some
token, that of the end of the file included. For a renaming of lines that leaves the lines of the
tokens as they are leaves the whole parse as it is (`Source.parsed_relined`), whatever it does to other
lines; so there are no others (`Source.linesIn_parseWith`).

Since the lines of tokens are exact, there is a text for every line that a result refers to.

Key definitions: `Parsed.LinesIn`.
Key theorems: `Source.parsed_relined`, `Source.linesIn_parseWith`, `Source.lines_exact`.
-/
import ViperFrontend.Proofs.Parser.Lockstep
import ViperFrontend.Proofs.Token.Lines

namespace Viper

open Viper.Parser

/-- All lines of a result are allowed: those of the tokens of nodes, of the types of parameters and of
diagnostics. -/
structure Parsed.LinesIn (allowed : UInt32 → Prop) (p : Parsed) : Prop where
  tokens : ∀ n ∈ p.ast.nodes, allowed n.token.line
  types : ∀ n ∈ p.ast.nodes, ∀ name type, n.construct = .procParameter name type → allowed type.line
  errors : ∀ d ∈ p.errors, allowed d.line

theorem Parsed.LinesIn.imp {allowed allowed' : UInt32 → Prop} {p : Parsed} (h : p.LinesIn allowed)
    (more : ∀ line, allowed line → allowed' line) : p.LinesIn allowed' where
  tokens n mem := more _ (h.tokens n mem)
  types n mem name type isParameter := more _ (h.types n mem name type isParameter)
  errors d mem := more _ (h.errors d mem)

theorem eq_of_map_eq_self {α : Type} {f : α → α} {xs : Array α} (h : xs.map f = xs) :
    ∀ x ∈ xs, f x = x := by
  intro x mem
  obtain ⟨i, bound, rfl⟩ := Array.getElem_of_mem mem
  have here := congrArg (fun made : Array α => made[i]?) h
  simpa [bound] using here

namespace Source

variable {source : Source}

theorem mem_tokenize_of_mem_scan {x : Scanned} (mem : x ∈ source.scan.scanned) :
    x.token ∈ source.tokenize.1 :=
  List.mem_append_left _ (List.mem_map_of_mem mem)

theorem endOfFile_mem_tokenize (source : Source) :
    Token.endOfFile source.scan.endLine ∈ source.tokenize.1 :=
  List.mem_append_right _ List.mem_cons_self

/-- **A renaming that keeps the lines of the tokens changes nothing in a parse.** -/
theorem parsed_relined {line : UInt32 → UInt32}
    (keeps : ∀ t ∈ source.tokenize.1, line t.line = t.line) (limit : Nat) :
    (Renaming.relined line Ast.empty).parsed (source.parseWith limit) = source.parseWith limit := by
  have ahead : source.scan.scanned.map (Renaming.relined line Ast.empty).scanned =
      source.scan.scanned := by
    refine (List.map_congr_left fun x mem => ?_).trans (List.map_id _)
    rw [Renaming.scanned_relined, keeps x.token (mem_tokenize_of_mem_scan mem), id]
  have ended : (Renaming.relined line Ast.empty).line source.scan.endLine = source.scan.endLine :=
    keeps _ source.endOfFile_mem_tokenize
  have tree : (Renaming.relined line Ast.empty).ast Ast.empty = Ast.empty := by
    rw [Renaming.ast_of_empty (Renaming.relined line Ast.empty) rfl]
    simp [Ast.empty]
  have started : (Renaming.relined line Ast.empty).state (State.start limit source) =
      State.start limit source := by
    rw [Renaming.state_start, ahead, ended, tree]
    rfl
  have parsed := (Renaming.relined line Ast.empty).run_program limit (State.start limit source)
  rw [started] at parsed
  exact congrArg Parsed.ofState parsed.symm

/-- The lines of a result are kept by every renaming that keeps those of the tokens. -/
theorem linesIn_of_keeps {line : UInt32 → UInt32}
    (keeps : ∀ t ∈ source.tokenize.1, line t.line = t.line) (limit : Nat) :
    (source.parseWith limit).LinesIn fun l => line l = l := by
  have fixed := parsed_relined keeps limit
  have trees := congrArg Parsed.ast fixed
  simp only [Renaming.parsed, Renaming.ast_of_empty (Renaming.relined line Ast.empty) rfl] at trees
  have nodes : (source.parseWith limit).ast.nodes.map (Renaming.relined line Ast.empty).entry =
      (source.parseWith limit).ast.nodes :=
    congrArg Ast.nodes trees
  have errors := congrArg Parsed.errors fixed
  simp only [Renaming.parsed, Renaming.filterMap_relined] at errors
  constructor
  · exact fun n mem => congrArg (·.token.line) (eq_of_map_eq_self nodes n mem)
  · intro n mem name type isParameter
    have construct := congrArg Node.construct (eq_of_map_eq_self nodes n mem)
    simp only [Renaming.entry, isParameter, Renaming.construct, Construct.procParameter.injEq]
      at construct
    exact congrArg Token.line construct.2
  · exact fun d mem => congrArg Diagnostic.line (eq_of_map_eq_self errors d mem)

/-- **Every line of a result is the line of some token** of its source. -/
theorem linesIn_parseWith (source : Source) (limit : Nat) :
    (source.parseWith limit).LinesIn fun l => ∃ t ∈ source.tokenize.1, t.line = l := by
  let lines := source.tokenize.1.map (·.line)
  -- lines of no token are taken to that of the end of the file
  let line : UInt32 → UInt32 := fun l => if l ∈ lines then l else source.scan.endLine
  have keeps : ∀ t ∈ source.tokenize.1, line t.line = t.line := fun t mem =>
    if_pos (List.mem_map_of_mem mem)
  refine (linesIn_of_keeps keeps limit).imp fun l kept => ?_
  by_cases isLine : l ∈ lines
  · simpa [lines] using isLine
  · have last : source.scan.endLine = l := by simpa [line, isLine] using kept
    exact ⟨_, source.endOfFile_mem_tokenize, last⟩

/-- **Lines are exact**, and there is a text for each of them, in a source with fewer line feeds than
lines can be counted. The line of a token is one more than the line feeds before its first character,
so lines never decrease; the lines that can be asked for are as many as the line feeds and one more; the
text of a token that is on one line can be read there; and every line of a result is that of a token. -/
theorem lines_exact (source : Source)
    (few : source.content.toList.count '\n' < UInt32.size - 1) :
    List.Forall₂ (Token.StandsAt source.content.toList) source.tokenize.1 source.start.starts ∧
    (source.tokenize.1.Pairwise fun t u => t.line ≤ u.line) ∧
    (∀ line : UInt32, (Text.line? source.content line).isSome = true ↔
      1 ≤ line.toNat ∧ line.toNat ≤ 1 + source.content.toList.count '\n') ∧
    (∀ t ∈ source.tokenize.1, '\n' ∉ t.text.toList → '\r' ∉ t.text.toList →
      ∃ line, Text.line? source.content t.line = some line ∧ t.text.toList <:+: line.toList) ∧
    source.parse.LinesIn fun l =>
      (∃ t ∈ source.tokenize.1, t.line = l) ∧ (Text.line? source.content l).isSome = true := by
  refine ⟨tokens_stand few, source.pairwise_line_le few, Text.isSome_line? source.content,
    fun t mem => exists_line_of_token few mem, ?_⟩
  refine (source.linesIn_parseWith maxNesting).imp ?_
  rintro _ ⟨t, mem, rfl⟩
  exact ⟨⟨t, mem, rfl⟩, isSome_line?_of_token few mem⟩

/-- A string literal over two lines: its line is the first, and what follows it is on the second. -/
theorem lines_exact_string :
    let source : Source := ⟨"a.vp", "let x: int =\n\"a\nb\" c;"⟩
    source.content.toList.count '\n' < UInt32.size - 1 ∧
    source.tokenize.1.map (·.line) = [1, 1, 1, 1, 1, 2, 3, 3, 3] ∧
    (source.tokenize.1.Pairwise fun t u => t.line ≤ u.line) ∧
    (Text.line? source.content 3).isSome = true ∧
    (∃ line, Text.line? source.content 3 = some line ∧ "c".toList <:+: line.toList) ∧
    source.parse.LinesIn fun l =>
      (∃ t ∈ source.tokenize.1, t.line = l) ∧ (Text.line? source.content l).isSome = true := by
  intro source
  have few : source.content.toList.count '\n' < UInt32.size - 1 := by decide +kernel
  obtain ⟨-, sorted, lines, words, result⟩ := lines_exact source few
  have name : (⟨.identifier, "c", 3⟩ : Token) ∈ source.tokenize.1 := by decide +kernel
  exact ⟨few, by decide +kernel, sorted, (lines 3).2 (by decide +kernel),
    words _ name (by decide) (by decide), result⟩

end Source
end Viper
