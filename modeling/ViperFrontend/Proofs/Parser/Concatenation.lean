/-
# Parsing two sources one after the other

A source that is parsed without a diagnostic, a line feed and any other source: parsing them
together gives the nodes and items of the first and behind them those of the second, and the
diagnostics of the second. What comes from the second is numbered on from the first and stands as
many lines further down as the first has line feeds, and one more (`Source.parse_append`).

The parse of the first is shared to its last item (`Sharing`). From there on the parse of both is that
of the second, renamed (`Lockstep`): no state is carried over but the tree. That holds of any two
streams of tokens (`TokenStream.parse_concat`), and scanning the two sources gives two such streams.
Lines are counted in 32 bits, and as long as there are fewer than 2^32 - 1 line feeds no line is so far
down that it would start again from 0 (`Parsed.LinesBelow`).

Key definitions: `Renaming.shift`, `TokenStream.parse`, `Parsed.LinesBelow`.
Key theorems: `Source.scan_append`, `TokenStream.parse_concat`, `Source.linesBelow_parse`,
`Source.parse_append`.
-/
import ViperFrontend.Proofs.Parser.Lines
import ViperFrontend.Proofs.Parser.Session
import ViperFrontend.Proofs.Parser.Sharing
import ViperFrontend.Proofs.Token.Concatenation

namespace Viper

open Viper.Parser

/-! ### Tokens -/

/-- Puts lines further down and nodes behind those of a tree. -/
def Renaming.shift (lines : Nat) (base : Ast) : Renaming :=
  .relined (· + UInt32.ofNat lines) base

namespace Source

/-- The number of line feeds. -/
def lineFeeds (text : String) : Nat :=
  text.toList.count '\n'

/-- The tokens of a source as spots of its text, also where the text starts further down. -/
theorem exists_spots (source : Source) :
    ∃ spots : List Layout.Spot, (∀ spot ∈ spots, spot.before <+: source.content.toList) ∧
      source.scan = ⟨spots.map (·.scanned 1), Layout.lineAfter 1 source.content.toList⟩ ∧
      ∀ line, (⟨line, source.content.toList⟩ : Cursor).scan #[] =
        ⟨spots.map (·.scanned line), Layout.lineAfter line source.content.toList⟩ := by
  obtain ⟨spots, within, scanned⟩ := Cursor.exists_spots source.content.toList
  exact ⟨spots, within, scanned 1, scanned⟩

theorem endLine_scan (source : Source) :
    source.scan.endLine = 1 + UInt32.ofNat (lineFeeds source.content) := by
  obtain ⟨spots, -, here, -⟩ := source.exists_spots
  rw [lineFeeds, ← Layout.lineAfter_eq, here]

/-- A text that starts further down has the same tokens, further down. -/
theorem scan_lower (lines : Nat) (base : Ast) (source : Source) :
    (⟨1 + UInt32.ofNat lines, source.content.toList⟩ : Cursor).scan #[] =
      ⟨source.scan.scanned.map (Renaming.shift lines base).scanned,
        (Renaming.shift lines base).line source.scan.endLine⟩ := by
  obtain ⟨spots, -, here, scanned⟩ := source.exists_spots
  have lower : ∀ text : List Char, Layout.lineAfter (1 + UInt32.ofNat lines) text =
      Layout.lineAfter 1 text + UInt32.ofNat lines := by
    intro text
    rw [Layout.lineAfter_eq, Layout.lineAfter_eq, UInt32.add_assoc, UInt32.add_assoc]
    congr 1
    exact UInt32.add_comm _ _
  rw [scanned, here, lower]
  simp only [Renaming.shift, List.map_map]
  congr 1
  refine List.map_congr_left fun spot _ => ?_
  simp only [Function.comp_apply, Renaming.scanned_relined, Layout.Spot.scanned, lower]

/-- The tokens of two sources, if nothing is wrong with the texts of the first. -/
theorem scan_append (name a b : String) (base : Ast)
    (clean : ∀ x ∈ (⟨name, a⟩ : Source).scan.scanned, x.fault? = none) :
    let ρ := Renaming.shift (1 + lineFeeds a) base
    (⟨name, a ++ "\n" ++ b⟩ : Source).scan =
      ⟨(⟨name, a⟩ : Source).scan.scanned ++ (⟨name, b⟩ : Source).scan.scanned.map ρ.scanned,
        ρ.line (⟨name, b⟩ : Source).scan.endLine⟩ := by
  intro ρ
  have text : (a ++ "\n" ++ b).toList = a.toList ++ '\n' :: b.toList := by
    simp
  have line : (⟨name, a⟩ : Source).scan.endLine + 1 = 1 + UInt32.ofNat (1 + lineFeeds a) := by
    rw [endLine_scan, UInt32.ofNat_add, UInt32.add_assoc]
    congr 1
    exact UInt32.add_comm _ _
  have lower : (⟨(⟨name, a⟩ : Source).scan.endLine + 1, b.toList⟩ : Cursor).scan #[] =
      ⟨(⟨name, b⟩ : Source).scan.scanned.map ρ.scanned, ρ.line (⟨name, b⟩ : Source).scan.endLine⟩ := by
    rw [line]
    exact scan_lower (1 + lineFeeds a) base ⟨name, b⟩
  have both := Cursor.scan_append (⟨name, a⟩ : Source).start b.toList clean
  dsimp only at both
  rw [show (⟨name, a⟩ : Source).start.scan #[] = (⟨name, a⟩ : Source).scan from rfl, lower] at both
  show (⟨1, (a ++ "\n" ++ b).toList⟩ : Cursor).scan #[] = _
  rw [text]
  exact both

end Source

/-! ### Parsing a stream of tokens -/

namespace Parser.State

/-- The state before the first token of a stream, with the first two tokens read. -/
def opening (limit : Nat) (file : String) (stream : TokenStream) : State where
  file := file
  limit := limit
  ahead := stream.scanned
  endLine := stream.endLine
  ast := Ast.empty
  errors := noteFault file stream.scanned[1]? (noteFault file stream.scanned[0]? #[])

variable {limit : Nat} {file : String}

/-- Nothing is reported before the first token but the faults of the first two. -/
theorem toList_errors_opening (limit : Nat) (file : String) (stream : TokenStream) :
    (opening limit file stream).errors.toList =
      (stream.scanned.take 2).filterMap (·.diagnostic? file) := by
  rw [filterMap_take_succ _ _ 1, filterMap_take_succ _ _ 0]
  show (noteFault _ _ (noteFault _ _ #[])).toList = _
  rw [toList_noteFault, toList_noteFault]
  simp

theorem toList_errors_start (limit : Nat) (source : Source) :
    (start limit source).errors.toList =
      (source.scan.scanned.take 2).filterMap (·.diagnostic? source.name) :=
  toList_errors_opening limit source.name source.scan

/-- The parse of two streams starts as that of the first, with the tokens of the second behind. -/
theorem shares_opening {first second : TokenStream}
    (legal : ∀ x ∈ first.scanned, x.fault? = none) :
    Shares second.scanned second.endLine (opening limit file first)
      (opening limit file ⟨first.scanned ++ second.scanned, second.endLine⟩) := by
  refine ⟨rfl, rfl, rfl, rfl, rfl, legal, ?_⟩
  have shared : (first.scanned.take 2).filterMap (·.diagnostic? file) = [] := by
    refine List.filterMap_eq_nil_iff.2 fun x mem => ?_
    simp [Scanned.diagnostic?, legal x (List.mem_of_mem_take mem)]
  rw [toList_errors_opening, List.take_append, List.filterMap_append]
  exact (congrArg (· ++ _) shared).trans (List.nil_append _)

/-- Where the first parse has no token left, the parse of both stands at the start of the second,
renamed. -/
theorem eq_state_opening {line : UInt32 → UInt32} {stream : TokenStream} {t t' : State}
    (shared : Shares (stream.scanned.map (Renaming.relined line t.ast).scanned) (line stream.endLine) t t')
    (ended : t.ahead = []) (here : t.file = file) (levels : t.limit = limit) :
    t' = (Renaming.relined line t.ast).state (opening limit file stream) := by
  let ρ := Renaming.relined line t.ast
  have ast : t'.ast = ρ.ast Ast.empty := by
    rw [shared.ast_eq]
    simp [ρ, Renaming.ast, Ast.empty, Renaming.relined]
  have ahead : t'.ahead = stream.scanned.map ρ.scanned := by
    rw [shared.ahead_eq, ended, List.nil_append]
  have errors : t'.errors = (opening limit file stream).errors.filterMap ρ.diagnostic? := by
    apply Array.toList_inj.1
    rw [shared.errors_eq, ended, List.length_nil, opening, ρ.filterMap_noteFault,
      ρ.filterMap_noteFault, toList_noteFault, toList_noteFault, ← List.getElem?_map,
      ← List.getElem?_map, filterMap_take_succ _ _ 1, filterMap_take_succ _ _ 0, shared.file_eq, here]
    rfl
  show State.mk t'.file t'.limit t'.ahead t'.endLine t'.ast t'.errors = _
  rw [errors, ast, ahead, shared.endLine_eq, shared.file_eq, shared.limit_eq, here, levels]
  rfl

/-- Where nothing is recorded, nothing is wrong with the tokens that have been read. -/
theorem Reaches.legal_of_clean {s t : State} (h : s.Reaches t) (clean : t.errors = #[]) :
    ∀ x ∈ s.ahead.drop 2, x ∈ t.ahead.drop 2 ∨ x.fault? = none := by
  induction h with
  | refl => exact fun x mem => .inl mem
  | @advance t _ ih =>
    intro x mem
    have before := Reaches.refl.advance.errors_eq_empty clean
    have quiet := toList_errors_advance t
    rw [clean, before, noted] at quiet
    rw [ahead_advance, List.drop_tail]
    refine (ih before x mem).elim (fun ahead => ?_) .inr
    match tokens : t.ahead with
    | [] | [_] | [_, _] =>
      rw [tokens] at ahead
      cases ahead
    | _ :: _ :: third :: others =>
      rw [tokens] at ahead quiet
      rcases List.mem_cons.1 ahead with rfl | later
      · exact .inr (by simpa [Scanned.diagnostic?] using quiet)
      · exact .inl later
  | record e _ _ => simp [State.record] at clean
  | alloc construct token _ ih => exact ih clean
  | pushRoot id _ ih => exact ih clean

end Parser.State

namespace TokenStream

/-- Parses a stream of tokens. -/
def parse (file : String) (stream : TokenStream) : Parsed :=
  .ofState ((Item.program (Statement.Inner.ofRoom maxNesting)).run (.opening maxNesting file stream)).2

variable {file : String} {first : TokenStream}

/-- A stream without the token that ends a file among its tokens is read to its end. -/
theorem ahead_program (tokens : ∀ x ∈ first.scanned, x.token.kind ≠ .eof) (limit room : Nat) :
    ((Item.program (Statement.Inner.ofRoom room)).run (.opening limit file first)).2.ahead = [] := by
  have reached := (Item.program (Statement.Inner.ofRoom room)).reaches (.opening limit file first)
  have ended := Item.kind_current_program (.ofRoom room) (.opening limit file first)
  cases ahead : ((Item.program (Statement.Inner.ofRoom room)).run (.opening limit file first)).2.ahead with
  | nil => rfl
  | cons x others =>
    have mem : x ∈ first.scanned := reached.ahead_suffix.subset (by simp [ahead])
    simp only [State.current, ahead] at ended
    exact absurd ended (tokens x mem)

/-- Nothing is wrong with the texts of tokens that are parsed without a diagnostic. -/
theorem fault_eq_none_of_clean (tokens : ∀ x ∈ first.scanned, x.token.kind ≠ .eof)
    (clean : (first.parse file).errors = #[]) : ∀ x ∈ first.scanned, x.fault? = none := by
  have reached := (Item.program (Statement.Inner.ofRoom maxNesting)).reaches
    (.opening maxNesting file first)
  intro x mem
  rw [← List.take_append_drop 2 first.scanned] at mem
  rcases List.mem_append.1 mem with early | later
  · have quiet := State.toList_errors_opening maxNesting file first
    rw [reached.errors_eq_empty clean] at quiet
    have diagnosed := List.filterMap_eq_nil_iff.1 quiet.symm x early
    simpa [Scanned.diagnostic?] using diagnosed
  · refine (reached.legal_of_clean clean x later).elim (fun ahead => ?_) id
    rw [ahead_program tokens] at ahead
    cases ahead

/-- **Behind tokens that are parsed without a diagnostic** the others are parsed as on their own, with
their lines changed in any way. -/
theorem parse_concat (tokens : ∀ x ∈ first.scanned, x.token.kind ≠ .eof)
    (clean : (first.parse file).errors = #[]) (line : UInt32 → UInt32) (second : TokenStream) :
    let ρ := Renaming.relined line (first.parse file).ast
    (⟨first.scanned ++ second.scanned.map ρ.scanned, ρ.line second.endLine⟩ : TokenStream).parse file =
      ρ.parsed (second.parse file) := by
  intro ρ
  let items := Item.items (Statement.Inner.ofRoom maxNesting) false
  let renamed : TokenStream := ⟨second.scanned.map ρ.scanned, ρ.line second.endLine⟩
  let both : TokenStream := ⟨first.scanned ++ renamed.scanned, renamed.endLine⟩
  have reached := items.reaches (.opening maxNesting file first)
  have started : Shares renamed.scanned renamed.endLine (.opening maxNesting file first)
      (.opening maxNesting file both) := State.shares_opening (fault_eq_none_of_clean tokens clean)
  obtain ⟨t', shared, onward⟩ :=
    Item.shares_items (Statement.follows_sharing _ _ maxNesting) started clean
  have place : t' = ρ.state (.opening maxNesting file second) :=
    State.eq_state_opening shared (ahead_program tokens maxNesting maxNesting) reached.file_eq
      reached.limit_eq
  calc both.parse file
      = .ofState (items.run (.opening maxNesting file both)).2 := rfl
    _ = .ofState (items.run t').2 := by rw [onward]
    _ = .ofState (items.run (ρ.state (.opening maxNesting file second))).2 := by rw [place]
    _ = .ofState (ρ.state (items.run (.opening maxNesting file second)).2) :=
        congrArg Parsed.ofState (ρ.run_program maxNesting (.opening maxNesting file second))

end TokenStream

theorem Source.parse_eq_scan (source : Source) : source.parse = source.scan.parse source.name := rfl

/-! ### Lines -/

/-- All lines of a result are below a bound: those of the tokens of nodes, of the types of parameters
and of diagnostics. -/
structure Parsed.LinesBelow (bound : Nat) (p : Parsed) : Prop where
  tokens : ∀ n ∈ p.ast.nodes, n.token.line.toNat < bound
  types : ∀ n ∈ p.ast.nodes, ∀ name type, n.construct = .procParameter name type →
    type.line.toNat < bound
  errors : ∀ d ∈ p.errors, d.line.toNat < bound

namespace Source

variable {source : Source} {bound : Nat}

theorem toNat_lineAfter_lt {text whole : List Char} (h : text <+: whole)
    (few : whole.count '\n' + 1 < bound) :
    (Layout.lineAfter 1 text).toNat < bound := by
  have fewer : text.count '\n' ≤ whole.count '\n' := h.sublist.count_le '\n'
  rw [Layout.lineAfter_eq, UInt32.toNat_add, UInt32.toNat_ofNat']
  have one : (1 : UInt32).toNat = 1 := rfl
  rw [one]
  omega

/-- The lines of the tokens of a source go no further than its line feeds. -/
theorem lines_lt (few : lineFeeds source.content + 1 < bound) :
    (∀ x ∈ source.scan.scanned, x.token.line.toNat < bound) ∧ source.scan.endLine.toNat < bound := by
  obtain ⟨spots, within, here, -⟩ := source.exists_spots
  rw [here]
  constructor
  · simp only [List.forall_mem_map]
    exact fun spot mem => toNat_lineAfter_lt (within spot mem) few
  · exact toNat_lineAfter_lt (List.prefix_refl _) few

/-- **The lines of a result go no further than the line feeds of its source.** -/
theorem linesBelow_parse (few : lineFeeds source.content + 1 < bound) :
    source.parse.LinesBelow bound := by
  obtain ⟨tokens, ended⟩ := lines_lt few
  have below : ∀ t ∈ source.tokenize.1, t.line.toNat < bound := by
    intro t mem
    rcases List.mem_append.1 mem with isToken | isEnd
    · obtain ⟨x, within, rfl⟩ := List.mem_map.1 isToken
      exact tokens x within
    · obtain rfl := List.mem_singleton.1 isEnd
      exact ended
  have lines : source.parse.LinesIn fun line => line.toNat < bound := by
    refine (source.linesIn_parseWith maxNesting).imp ?_
    rintro _ ⟨t, mem, rfl⟩
    exact below t mem
  exact ⟨lines.tokens, lines.types, lines.errors⟩

/-! ### Both sources -/

/-- Nothing is wrong with the texts of a source that is parsed without a diagnostic. -/
theorem fault_eq_none_of_clean (clean : source.parse.errors = #[]) :
    ∀ x ∈ source.scan.scanned, x.fault? = none :=
  TokenStream.fault_eq_none_of_clean source.kind_ne_eof_of_mem_scan clean

/-- What the parse of both comes to, as the parse of the second renamed. -/
theorem parse_append_eq {name a : String} (b : String)
    (clean : (⟨name, a⟩ : Source).parse.errors = #[]) :
    (⟨name, a ++ "\n" ++ b⟩ : Source).parse =
      (Renaming.shift (1 + lineFeeds a) (⟨name, a⟩ : Source).parse.ast).parsed
        (⟨name, b⟩ : Source).parse := by
  rw [parse_eq_scan, scan_append name a b (⟨name, a⟩ : Source).parse.ast (fault_eq_none_of_clean clean)]
  exact TokenStream.parse_concat (kind_ne_eof_of_mem_scan ⟨name, a⟩) clean _ _

/-- **Parsing two sources one after the other.** If nothing is wrong with the first, then for any second
the nodes, items and diagnostics of both are those of the first and behind them those of the second,
with their numbers counted on from the first and their lines put down by its line feeds and one more;
and with fewer than 2^32 - 1 line feeds in all, no line is put down so far that it would start again
from 0. -/
theorem parse_append {name a b : String} (clean : (⟨name, a⟩ : Source).parse.errors = #[])
    (few : lineFeeds (a ++ "\n" ++ b) < UInt32.size - 1) :
    let first := (⟨name, a⟩ : Source).parse
    let second := (⟨name, b⟩ : Source).parse
    let whole := (⟨name, a ++ "\n" ++ b⟩ : Source).parse
    let lines := 1 + lineFeeds a
    whole.ast.nodes =
        first.ast.nodes ++ second.ast.nodes.map (Renaming.shift lines first.ast).entry ∧
      whole.ast.roots = first.ast.roots ++ second.ast.roots.map (· + first.ast.size) ∧
      whole.errors = second.errors.map (fun d => { d with line := d.line + UInt32.ofNat lines }) ∧
      second.LinesBelow (UInt32.size - lines) := by
  intro first second whole lines
  have both : whole = (Renaming.shift lines first.ast).parsed second := parse_append_eq b clean
  refine ⟨congrArg (·.ast.nodes) both, congrArg (·.ast.roots) both, ?_, ?_⟩
  · rw [both]
    exact Renaming.filterMap_relined _ _ _
  · have count : lineFeeds (a ++ "\n" ++ b) = lineFeeds a + 1 + lineFeeds b := by
      simp [lineFeeds, List.count_append]
      omega
    rw [count] at few
    exact linesBelow_parse (by simp only [lines]; omega)

/-- A struct, and behind it an illegal character and a declaration without its value. -/
theorem parse_append_malformed :
    let a := "struct p \x7b x :: int; \x7d"
    let b := "@ let n: int ="
    let first := (⟨"f.viper", a⟩ : Source).parse
    let second := (⟨"f.viper", b⟩ : Source).parse
    let whole := (⟨"f.viper", a ++ "\n" ++ b⟩ : Source).parse
    let lines := 1 + lineFeeds a
    (lines = 1 ∧ first.ast.size = 3 ∧ second.ast.size = 3 ∧ second.errors.size = 4) ∧
      whole.ast.nodes =
        first.ast.nodes ++ second.ast.nodes.map (Renaming.shift lines first.ast).entry ∧
      whole.ast.roots = first.ast.roots ++ second.ast.roots.map (· + first.ast.size) ∧
      whole.errors = second.errors.map (fun d => { d with line := d.line + UInt32.ofNat lines }) ∧
      second.LinesBelow (UInt32.size - lines) := by
  intro a b first second whole lines
  have clean : first.errors = #[] := by decide +kernel
  have few : lineFeeds (a ++ "\n" ++ b) < UInt32.size - 1 := by decide +kernel
  exact ⟨by decide +kernel, parse_append clean few⟩

end Source
end Viper
