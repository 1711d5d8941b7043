/-
# A parse depends on the kinds of tokens only

Which nodes a parse makes, how it links them and which syntax errors it records depends on the
kinds of the tokens, and of their texts on one thing only: whether an integer literal is below
2^64. Two sources that agree in this have trees of the same shape and the same syntax errors,
up to lines, texts and literals (`Parsed.SameShape`).

If the texts of the tokens agree too, nothing is left to differ but lines
(`Parsed.SameButLines`): layout and comments leave no trace. There is one exception. What is
wrong with an illegal token can be told from its text, but not whether a quote stood before it:
`@` and a string literal with the text `@` and no closing quote are the same token
(`Source.parse_open_string`).

Key definitions: `Renaming.shape`, `Renaming.unlined`, `Parsed.SameShape`,
`Parsed.SameButLines`.
Key theorems: `Source.parse_kinds`.
-/
import ViperFrontend.Proofs.Parser.Lockstep
import ViperFrontend.Proofs.Token.Faults
import ViperFrontend.Proofs.Token.Numerals

namespace Viper

open Viper.Parser (State)

/-! ### Two renamings -/

namespace Renaming

/-- Of a text only its range is left: whether it is too large for an integer literal. -/
def rangeOf (literal : String) : String :=
  if (Literal.integer? literal).isSome then "0" else "18446744073709551616"

theorem integer?_rangeOf (literal : String) :
    Literal.integer? (rangeOf literal) = (Literal.integer? literal).map fun _ => 0 := by
  have small : Literal.integer? "0" = some 0 := by decide +kernel
  have large : Literal.integer? "18446744073709551616" = none := by decide +kernel
  unfold rangeOf
  cases Literal.integer? literal with
  | some value => exact small
  | none => exact large

theorem float?_rangeOf (literal : String) : Literal.float? (rangeOf literal) = none := by
  unfold rangeOf
  split <;> decide +kernel

/-- Forgets lines, names, texts and the values of literals, and keeps whether an integer literal
is too large. -/
def shape : Renaming where
  file _ := ""
  line _ := 0
  text _ := ""
  digits := rangeOf
  points literal := if (Literal.float? literal).isSome then "0." else rangeOf literal
  integer _ := 0
  float _ := ⟨0⟩
  fault _ := none
  base := Ast.empty
  text_empty := rfl
  integer?_digits := integer?_rangeOf
  float?_points literal := by
    have zero : Literal.float? "0." = some ⟨0⟩ := by decide +kernel
    cases Literal.float? literal with
    | some value => exact zero
    | none => exact float?_rangeOf literal
  points_eq_digits literal none := by simp [none]

/-- Forgets lines, and changes faults of texts by a function. -/
def unlined (change : LexicalFault → LexicalFault) : Renaming :=
  { relined (fun _ => 0) Ast.empty with
    file := fun _ => ""
    fault := fun fault => some (change fault) }

/-- Where a renaming forgets lines and makes the tokens of two sources the same, it makes their
results the same. -/
theorem parsed_eq (ρ : Renaming) {a b : Source} (files : ρ.file a.name = ρ.file b.name)
    (lines : ∀ line line', ρ.line line = ρ.line line')
    (tokens : a.scan.scanned.map ρ.scanned = b.scan.scanned.map ρ.scanned) :
    ρ.parsed a.parse = ρ.parsed b.parse := by
  have started : ρ.state (State.start maxNesting a) = ρ.state (State.start maxNesting b) := by
    rw [ρ.state_start, ρ.state_start, files, tokens, lines a.scan.endLine b.scan.endLine]
  have ended := ρ.run_program maxNesting (State.start maxNesting a)
  rw [started, ρ.run_program] at ended
  exact congrArg Parsed.ofState ended.symm

end Renaming

/-! ### What two results have in common -/

/-- A construct without its names and the values of its literals; its parts, operator, branch and
truth value stay. -/
def Construct.shape (c : Construct) : Construct :=
  Renaming.shape.construct c

/-- A syntax fault without texts and literals; the kinds of tokens it names stay. -/
def SyntaxFault.shape (fault : SyntaxFault) : SyntaxFault :=
  Renaming.shape.syntaxFault fault

/-- A node without lines: nothing else is lost of its construct and its token. -/
def Node.unlined (n : Node) : Node :=
  (Renaming.unlined id).entry n

def Fault.syntactic? : Fault → Option SyntaxFault
  | .lexical _ => none
  | .syntactic fault => some fault

/-- Two faults are the same, or both are of texts and one of them is that of a string literal
without its closing quote. -/
def Fault.Agree (f g : Fault) : Prop :=
  f = g ∨ ∃ l m, f = .lexical l ∧ g = .lexical m ∧ (l = .unterminatedString ∨ m = .unterminatedString)

namespace Parsed

/-- The syntax errors, in order. -/
def syntaxFaults (p : Parsed) : List SyntaxFault :=
  p.errors.toList.filterMap (·.fault.syntactic?)

/-- The same nodes up to names and literals, linked in the same way, and the same syntax errors up
to texts and literals. -/
structure SameShape (p q : Parsed) : Prop where
  size_eq : p.ast.size = q.ast.size
  roots_eq : p.ast.roots = q.ast.roots
  constructs_eq : ∀ id : NodeId,
    p.ast.nodes[id]?.map (·.construct.shape) = q.ast.nodes[id]?.map (·.construct.shape)
  children_eq : ∀ id : NodeId, p.ast.children id = q.ast.children id
  parent_eq : ∀ id : NodeId, p.ast.parent id = q.ast.parent id
  kinds_eq : ∀ id : NodeId, p.ast.nodes[id]?.map (·.token.kind) = q.ast.nodes[id]?.map (·.token.kind)
  faults_eq : p.syntaxFaults.map SyntaxFault.shape = q.syntaxFaults.map SyntaxFault.shape

/-- The same nodes up to lines, and the same faults in the same order, as far as texts tell. -/
structure SameButLines (p q : Parsed) : Prop where
  nodes_eq : p.ast.nodes.map Node.unlined = q.ast.nodes.map Node.unlined
  faults_agree : List.Forall₂ (fun d e => d.fault.Agree e.fault) p.errors.toList q.errors.toList

end Parsed

namespace Renaming

variable (ρ : Renaming)

theorem syntaxFaults_parsed (p : Parsed) :
    (ρ.parsed p).syntaxFaults = p.syntaxFaults.map ρ.syntaxFault := by
  simp only [parsed, Parsed.syntaxFaults, Array.toList_filterMap, List.filterMap_filterMap,
    List.map_filterMap]
  congr 1
  funext d
  cases fault : d.fault with
  | lexical l => cases renamed : ρ.fault l <;> simp [diagnostic?, anyFault, fault, renamed, Fault.syntactic?]
  | syntactic s => simp [diagnostic?, anyFault, fault, Fault.syntactic?]

end Renaming

theorem Parsed.sameShape_of_eq {p q : Parsed}
    (h : Renaming.shape.parsed p = Renaming.shape.parsed q) : p.SameShape q := by
  have keeps : Renaming.shape.node = id := Renaming.node_of_empty _ rfl
  have trees : (⟨p.ast.nodes.map Renaming.shape.entry, p.ast.roots⟩ : Ast) =
      ⟨q.ast.nodes.map Renaming.shape.entry, q.ast.roots⟩ := by
    rw [← Renaming.ast_of_empty _ rfl, ← Renaming.ast_of_empty _ rfl]
    exact congrArg Parsed.ast h
  obtain ⟨nodes, roots⟩ := Ast.mk.inj trees
  -- whatever a renamed node shows, the nodes have in common
  have shown : ∀ {α : Type} (view : Node → α) (id : NodeId),
      p.ast.nodes[id]?.map (fun n => view (Renaming.shape.entry n)) =
        q.ast.nodes[id]?.map (fun n => view (Renaming.shape.entry n)) := by
    intro α view id
    have entry := congrArg (fun made : Array Node => made[id]?.map view) nodes
    simpa [Function.comp_def] using entry
  have children : ∀ id : NodeId, p.ast.nodes[id]?.map (·.construct.children) =
      q.ast.nodes[id]?.map (·.construct.children) := by
    intro id
    have made := shown (·.construct.children) id
    simpa only [Renaming.entry, Renaming.children_construct, keeps, List.map_id] using made
  have parent : ∀ id : NodeId, p.ast.nodes[id]?.map (·.parent) = q.ast.nodes[id]?.map (·.parent) := by
    intro id
    have linked := shown (·.parent) id
    simpa only [Renaming.entry, keeps, Option.map_id_apply] using linked
  constructor
  case size_eq =>
    simpa [Ast.size] using congrArg Array.size nodes
  case roots_eq => exact roots
  case constructs_eq => exact shown (·.construct)
  case children_eq =>
    intro id
    have made := children id
    unfold Ast.children
    cases first : p.ast.nodes[id]? <;> cases second : q.ast.nodes[id]? <;> simp_all
  case parent_eq =>
    intro id
    have linked := parent id
    unfold Ast.parent
    cases first : p.ast.nodes[id]? <;> cases second : q.ast.nodes[id]? <;> simp_all
  case kinds_eq => exact shown (·.token.kind)
  case faults_eq =>
    have faults := congrArg Parsed.syntaxFaults h
    rwa [Renaming.syntaxFaults_parsed, Renaming.syntaxFaults_parsed] at faults

/-! ### Tokens of two sources -/

namespace Source

variable {a b : Source}

/-- The tokens before the end of the file have in common what all tokens have. -/
theorem map_scanned_of_map_tokenize {α : Type} (view : Token → α)
    (h : a.tokenize.1.map view = b.tokenize.1.map view) :
    a.scan.scanned.map (fun x => view x.token) = b.scan.scanned.map (fun x => view x.token) := by
  have split : ∀ source : Source, source.tokenize.1.map view =
      source.scan.scanned.map (fun x => view x.token) ++
        [view (Token.endOfFile source.scan.endLine)] := by
    intro source
    simp [tokenize, TokenStream.tokens, Function.comp_def]
  rw [split, split] at h
  exact (List.append_inj' h rfl).1

/-- Integer literals in the same place are both below 2^64, or neither. -/
def SameRange (a b : Source) : Prop :=
  ∀ pair ∈ a.tokenize.1.zip b.tokenize.1, pair.1.kind = .integer →
    (Literal.decimalValue pair.1.text.toList < UInt64.size ↔
      Literal.decimalValue pair.2.text.toList < UInt64.size)

theorem shape_token_eq {t u : Token} (kind : t.kind = u.kind)
    (range : t.kind = .integer → (Literal.decimalValue t.text.toList < UInt64.size ↔
      Literal.decimalValue u.text.toList < UInt64.size))
    (pointed : t.kind = .float → Literal.IsPointed t.text)
    (pointed' : u.kind = .float → Literal.IsPointed u.text) :
    Renaming.shape.token t = Renaming.shape.token u := by
  have text : Renaming.shape.textOf t.kind t.text = Renaming.shape.textOf u.kind u.text := by
    rw [← kind] at pointed' ⊢
    unfold Renaming.textOf
    split
    · rename_i isInteger
      have same : (Literal.integer? t.text).isSome = (Literal.integer? u.text).isSome := by
        have both := range isInteger
        simp only [Literal.integer?]
        grind
      simp only [Renaming.shape, Renaming.rangeOf, same]
    · rename_i isFloat
      have value := Literal.isSome_float?_iff.2 (pointed isFloat)
      have value' := Literal.isSome_float?_iff.2 (pointed' isFloat)
      simp only [Renaming.shape, value, value', if_true]
    · rfl
  show Token.mk _ _ _ = Token.mk _ _ _
  rw [text, kind]
  rfl

/-- Tokens of the same kinds and ranges have the same shape. -/
theorem map_shape_scanned (kinds : a.tokenize.1.map (·.kind) = b.tokenize.1.map (·.kind))
    (ranges : SameRange a b) :
    a.scan.scanned.map Renaming.shape.scanned = b.scan.scanned.map Renaming.shape.scanned := by
  have tokens : a.tokenize.1.map Renaming.shape.token = b.tokenize.1.map Renaming.shape.token := by
    have pointed : ∀ source : Source, ∀ t ∈ source.tokenize.1, t.kind = .float → Literal.IsPointed t.text :=
      fun source t mem => (source.numeral_tokenize mem).2
    have first := pointed a
    have second := pointed b
    unfold SameRange at ranges
    revert kinds ranges first second
    generalize a.tokenize.1 = ts
    generalize b.tokenize.1 = us
    intro kinds ranges first second
    induction ts generalizing us with
    | nil => rw [List.map_eq_nil_iff.1 kinds.symm]
    | cons t ts ih =>
      obtain ⟨u, us, rfl, kind, kinds⟩ := List.map_eq_cons_iff.1 kinds.symm
      rw [List.zip_cons_cons, List.forall_mem_cons] at ranges
      rw [List.forall_mem_cons] at first second
      rw [List.map_cons, List.map_cons, shape_token_eq kind.symm ranges.1 first.1 second.1,
        ih us kinds.symm ranges.2 first.2 second.2]
  have read := map_scanned_of_map_tokenize Renaming.shape.token tokens
  have forgets : Renaming.shape.scanned = fun x => ⟨Renaming.shape.token x.token, none⟩ := by
    funext x
    cases fault : x.fault? <;> simp [Renaming.scanned, fault, Renaming.shape]
  have lifted := congrArg (List.map fun token => Scanned.mk token none) read
  simpa [Function.comp_def, forgets] using lifted

theorem map_word_scanned (kinds : a.tokenize.1.map (·.kind) = b.tokenize.1.map (·.kind))
    (texts : a.tokenize.1.map (·.text) = b.tokenize.1.map (·.text)) :
    a.scan.scanned.map (·.token.word) = b.scan.scanned.map (·.token.word) := by
  refine map_scanned_of_map_tokenize Token.word ?_
  have paired : ∀ ts : List Token,
      ts.map Token.word = List.zipWith Word.mk (ts.map (·.kind)) (ts.map (·.text)) := by
    intro ts
    simp [List.zipWith_map, Token.word]
  rw [paired, paired, kinds, texts]

/-- Tokens of the same words are the same up to lines, if the changed faults are. -/
theorem map_unlined_scanned {change : LexicalFault → LexicalFault}
    (words : a.scan.scanned.map (·.token.word) = b.scan.scanned.map (·.token.word))
    (faults : (a.scan.scanned.map (·.fault?)).map (·.map change) =
      (b.scan.scanned.map (·.fault?)).map (·.map change)) :
    a.scan.scanned.map (Renaming.unlined change).scanned =
      b.scan.scanned.map (Renaming.unlined change).scanned := by
  have paired : ∀ xs : List Scanned, xs.map (Renaming.unlined change).scanned =
      List.zipWith (fun (w : Word) fault => ⟨⟨w.kind, w.text, 0⟩, fault⟩)
        (xs.map (·.token.word)) ((xs.map (·.fault?)).map (·.map change)) := by
    intro xs
    simp only [List.zipWith_map, List.map_map, List.zipWith_self]
    refine List.map_congr_left fun x _ => ?_
    have token : (Renaming.unlined change).token x.token = ⟨x.token.kind, x.token.text, 0⟩ := by
      rw [Renaming.token, Renaming.textOf_of_texts _ rfl rfl rfl]
      rfl
    have kept : x.fault?.bind (Renaming.unlined change).fault = x.fault?.map change := by
      cases x.fault? <;> rfl
    rw [Renaming.scanned, token, kept]
    rfl
  rw [paired, paired, words, faults]

theorem unlined_parsed_eq {change : LexicalFault → LexicalFault}
    (words : a.scan.scanned.map (·.token.word) = b.scan.scanned.map (·.token.word))
    (faults : (a.scan.scanned.map (·.fault?)).map (·.map change) =
      (b.scan.scanned.map (·.fault?)).map (·.map change)) :
    (Renaming.unlined change).parsed a.parse = (Renaming.unlined change).parsed b.parse :=
  Renaming.parsed_eq _ rfl (fun _ _ => rfl) (map_unlined_scanned words faults)

end Source

/-! ### The faults of two results -/

/-- A fault, if it is of a text, changed. -/
def Fault.change (change : LexicalFault → LexicalFault) : Fault → Fault
  | .lexical fault => .lexical (change fault)
  | .syntactic fault => .syntactic fault

theorem Fault.agree_of_change_eq {merged : LexicalFault} {f g : Fault}
    (h : f.change merged.merge = g.change merged.merge) : f.Agree g := by
  cases f <;> cases g <;> simp only [Fault.change, reduceCtorEq] at h
  case lexical.lexical l m =>
    rcases LexicalFault.eq_or_of_merge_eq (Fault.lexical.inj h) with rfl | hidden
    · exact .inl rfl
    · exact .inr ⟨l, m, rfl, rfl, hidden⟩
  case syntactic.syntactic f g => exact .inl h

namespace Renaming

variable (change : LexicalFault → LexicalFault)

theorem diagnostic?_unlined (d : Diagnostic) :
    (unlined change).diagnostic? d = some ⟨d.fault.change change, 0, ""⟩ := by
  cases fault : d.fault with
  | lexical l => simp [diagnostic?, anyFault, fault, Fault.change, unlined, relined]
  | syntactic s =>
    simp only [diagnostic?, anyFault, fault, Fault.change, Option.map_some,
      syntaxFault_of_texts (unlined change) rfl rfl rfl]
    rfl

/-- Results that are the same up to lines and a change of faults have faults that are so. -/
theorem faults_eq_of_unlined {p q : Parsed}
    (h : (unlined change).parsed p = (unlined change).parsed q) :
    p.errors.toList.map (·.fault.change change) = q.errors.toList.map (·.fault.change change) := by
  have errors := congrArg (fun r : Parsed => r.errors.toList.map (·.fault)) h
  have kept : (unlined change).diagnostic? = fun d => some ⟨d.fault.change change, 0, ""⟩ :=
    funext (diagnostic?_unlined change)
  simpa [parsed, kept, Function.comp_def] using errors

theorem nodes_eq_of_unlined {p q : Parsed}
    (h : (unlined change).parsed p = (unlined change).parsed q) :
    p.ast.nodes.map Node.unlined = q.ast.nodes.map Node.unlined := by
  have trees := congrArg Parsed.ast h
  simp only [parsed, ast_of_empty (unlined change) rfl] at trees
  exact (Ast.mk.inj trees).1

end Renaming

namespace Source

variable {a b : Source}

theorem parse_sameShape (kinds : a.tokenize.1.map (·.kind) = b.tokenize.1.map (·.kind))
    (ranges : SameRange a b) : a.parse.SameShape b.parse :=
  Parsed.sameShape_of_eq
    (Renaming.parsed_eq _ rfl (fun _ _ => rfl) (map_shape_scanned kinds ranges))

theorem parse_sameButLines
    (words : a.scan.scanned.map (·.token.word) = b.scan.scanned.map (·.token.word)) :
    a.parse.SameButLines b.parse := by
  obtain ⟨merged, faults⟩ := a.told_scan.exists_merge_eq b.told_scan words
  have same := unlined_parsed_eq words faults
  refine ⟨Renaming.nodes_eq_of_unlined _ same, ?_⟩
  have changed := Renaming.faults_eq_of_unlined _ same
  rw [← List.forall₂_eq_eq_eq, List.forall₂_map_left_iff, List.forall₂_map_right_iff] at changed
  exact changed.imp fun _ _ => Fault.agree_of_change_eq

theorem parse_faults_eq
    (words : a.scan.scanned.map (·.token.word) = b.scan.scanned.map (·.token.word))
    (both : some .unterminatedString ∈ a.scan.scanned.map (·.fault?) ↔
      some .unterminatedString ∈ b.scan.scanned.map (·.fault?)) :
    a.parse.errors.map (·.fault) = b.parse.errors.map (·.fault) := by
  have faults := a.told_scan.faults_eq b.told_scan words both
  have same := Renaming.faults_eq_of_unlined id (unlined_parsed_eq words (by rw [faults]))
  have unchanged : ∀ f : Fault, f.change id = f := by
    intro f
    cases f <;> rfl
  simp only [unchanged] at same
  apply Array.toList_inj.1
  rwa [Array.toList_map, Array.toList_map]

/-- The source has a string literal without its closing quote. -/
def HasOpenString (source : Source) : Prop :=
  ∃ d ∈ source.tokenize.2, d.fault = .lexical .unterminatedString

theorem hasOpenString_iff (source : Source) :
    source.HasOpenString ↔ some .unterminatedString ∈ source.scan.scanned.map (·.fault?) := by
  simp only [HasOpenString, tokenize, TokenStream.diagnostics, List.mem_filterMap, List.mem_map,
    Scanned.diagnostic?, Option.map_eq_some_iff]
  constructor
  · rintro ⟨_, ⟨x, mem, fault, isFault, rfl⟩, same⟩
    exact ⟨x, mem, by rw [isFault, Fault.lexical.inj same]⟩
  · rintro ⟨x, mem, isFault⟩
    exact ⟨_, ⟨x, mem, _, isFault, rfl⟩, rfl⟩

/-- **A parse depends on the kinds of tokens only**, and on which integer literals are below 2^64.
If the texts of the tokens agree too, nothing but lines can differ in the nodes, and faults agree
as far as texts tell: all of them, if both sources or neither have a string literal without its
closing quote. -/
theorem parse_kinds (kinds : a.tokenize.1.map (·.kind) = b.tokenize.1.map (·.kind))
    (ranges : SameRange a b) :
    a.parse.SameShape b.parse ∧
      (a.tokenize.1.map (·.text) = b.tokenize.1.map (·.text) →
        a.parse.SameButLines b.parse ∧
          ((a.HasOpenString ↔ b.HasOpenString) →
            a.parse.errors.map (·.fault) = b.parse.errors.map (·.fault))) := by
  refine ⟨parse_sameShape kinds ranges, fun texts => ?_⟩
  have words := map_word_scanned kinds texts
  refine ⟨parse_sameButLines words, fun both => ?_⟩
  rw [hasOpenString_iff, hasOpenString_iff] at both
  exact parse_faults_eq words both

/-- A declaration, a stray token and an illegal one, with and without layout between them. -/
theorem parse_kinds_layout :
    let a : Source := ⟨"a.viper", "let n: int = 1 + f(2); ) @"⟩
    let b : Source := ⟨"b.viper", "/* one */ let n : int\n = 1 + f ( 2 ) ; // two\n\n) @"⟩
    a.parse.errors.size = 2 ∧ a.parse.SameShape b.parse ∧ a.parse.SameButLines b.parse ∧
      a.parse.errors.map (·.fault) = b.parse.errors.map (·.fault) := by
  intro a b
  have ranges : SameRange a b := by
    unfold SameRange
    decide +kernel
  have whole : ¬ a.HasOpenString ∧ ¬ b.HasOpenString := by
    unfold HasOpenString
    decide +kernel
  obtain ⟨shape, texts⟩ := parse_kinds (by decide +kernel) ranges
  obtain ⟨lines, faults⟩ := texts (by decide +kernel)
  exact ⟨by decide +kernel, shape, lines, faults (iff_of_false whole.1 whole.2)⟩

/-- **Texts do not tell every fault.** The sources `@` and `\"@` have the same tokens, lines
included, and different diagnostics. -/
theorem parse_open_string :
    let a : Source := ⟨"f.viper", "@"⟩
    let b : Source := ⟨"f.viper", "\"@"⟩
    a.tokenize.1 = b.tokenize.1 ∧ SameRange a b ∧
      a.parse.errors.map (·.fault.message) ≠ b.parse.errors.map (·.fault.message) := by
  intro a b
  refine ⟨by decide +kernel, ?_, by decide +kernel⟩
  unfold SameRange
  decide +kernel

end Source
end Viper
