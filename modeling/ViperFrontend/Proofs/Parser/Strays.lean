/-
# Tokens between items

What stands between two items of a file and starts none is passed token by token, reported once, and
leaves no node. An item that is parsed without an error on its own never reads beyond its last token, so
nothing of what stands behind it, be it a brace or an `else`, is taken for a part of it.

To follow this a file is taken apart from its start. Behind tokens that are parsed without an error the
parse of the rest goes on as on its own, with its nodes behind those of the tokens
(`TokenStream.parse_concat`). Behind tokens that start no item it goes on as on its own too, with one
more error (`TokenStream.parse_strays`), for an item ends the run that is being skipped. By induction on
the items, a file of items with other tokens between them has their trees, one behind the other, and the
errors of these runs (`TokenStream.parse_segments`).

Key definitions: `syntaxErrors`, `TokenStream.strayErrors`, `Segment`, `Ast.joined`.
Key theorems: `TokenStream.parse_strays`, `TokenStream.parse_segments`, `Source.strays_reported_once`.
-/
import ViperFrontend.Proofs.Parser.Concatenation
import ViperFrontend.Proofs.Parser.Embedding

namespace Viper

open Viper.Parser

/-- The kinds of token that start an item of a file. -/
def TokenKind.startsItem : TokenKind → Bool
  | .kwLet | .kwProc | .kwDefine | .kwStruct => true
  | _ => false

/-- The errors of the syntax among some diagnostics. -/
def syntaxErrors (errors : Array Diagnostic) : List Diagnostic :=
  errors.toList.filter (! ·.fault.isLexical)

theorem syntaxErrors_noteFault (file : String) (read : Option Scanned) (errors : Array Diagnostic) :
    syntaxErrors (State.noteFault file read errors) = syntaxErrors errors := by
  have lexical : (read.bind (·.diagnostic? file)).toList.filter (! ·.fault.isLexical) = [] := by
    rw [List.filter_eq_nil_iff]
    intro d mem
    obtain ⟨x, -, diagnosed⟩ := Option.bind_eq_some_iff.1 (Option.mem_toList.1 mem)
    simp [State.isLexical_of_diagnostic? diagnosed]
  rw [syntaxErrors, State.toList_noteFault, List.filter_append, lexical, List.append_nil, syntaxErrors]

/-! ### Tokens that start no item -/

namespace Parser

/-- The second parse has some tokens more ahead, and the errors of the syntax that it has recorded are
those of the first and others before them. -/
structure Told (strays : List Scanned) (told : List Diagnostic) (s s' : State) : Prop where
  file_eq : s'.file = s.file
  limit_eq : s'.limit = s.limit
  ast_eq : s'.ast = s.ast
  endLine_eq : s'.endLine = s.endLine
  ahead_eq : s'.ahead = strays ++ s.ahead
  errors_eq : syntaxErrors s'.errors = told ++ syntaxErrors s.errors

variable {strays : List Scanned} {told : List Diagnostic} {s s' : State}

namespace Told

theorem current_eq (h : Told [] told s s') : s'.current = s.current := by
  have ahead : s'.ahead = s.ahead := h.ahead_eq
  simp only [State.current, State.endToken, ahead, h.endLine_eq]

/-- The first token more is passed. -/
theorem skip {x : Scanned} (h : Told (x :: strays) told s s') : Told strays told s s'.advance := by
  have ahead : s'.ahead = x :: (strays ++ s.ahead) := h.ahead_eq
  unfold State.advance
  rw [ahead]
  exact ⟨h.file_eq, h.limit_eq, h.ast_eq, h.endLine_eq, rfl,
    (syntaxErrors_noteFault _ _ _).trans h.errors_eq⟩

/-- Both pass the current token. -/
theorem advance (h : Told [] told s s') : Told [] told s.advance s'.advance := by
  have same : s'.ahead = s.ahead := h.ahead_eq
  unfold State.advance
  cases ahead : s.ahead with
  | nil =>
    rw [same, ahead]
    exact h
  | cons x others =>
    rw [same, ahead]
    refine ⟨h.file_eq, h.limit_eq, h.ast_eq, h.endLine_eq, rfl, ?_⟩
    rw [syntaxErrors_noteFault, syntaxErrors_noteFault]
    exact h.errors_eq

/-- What is done to the trees alone changes nothing else. -/
theorem withAst (h : Told strays told s s') (ast : Ast) :
    Told strays told { s with ast } { s' with ast } :=
  ⟨h.file_eq, h.limit_eq, rfl, h.endLine_eq, h.ahead_eq, h.errors_eq⟩

end Told

theorem syntaxErrors_record (e : SyntaxError) (s : State) :
    syntaxErrors (s.record e).errors = syntaxErrors s.errors ++ [e.diagnostic s.file] := by
  rw [syntaxErrors, State.toList_errors_record, List.filter_append, syntaxErrors]
  rfl

/-- What has been recorded makes no difference for what is done. -/
def Simulation.telling (told : List Diagnostic) : Simulation Renaming.same where
  rel := Told [] told
  live _ := True
  live_of_reaches _ _ := trivial
  current_eq related _ := by
    rw [Renaming.token_same]
    exact related.current_eq
  advance related _ := related.advance
  record := by
    intro s s' e related _
    rw [Renaming.error_same]
    refine ⟨related.file_eq, related.limit_eq, related.ast_eq, related.endLine_eq, related.ahead_eq, ?_⟩
    rw [syntaxErrors_record, syntaxErrors_record, related.errors_eq, related.file_eq, List.append_assoc]
  alloc_fst c t related := by rw [Renaming.alloc_of_ast_eq related.ast_eq]
  alloc_snd c t related := by
    rw [Renaming.alloc_of_ast_eq related.ast_eq]
    exact related.withAst _
  pushRoot root related := by
    rw [Renaming.pushRoot_of_ast_eq related.ast_eq]
    exact related.withAst _

end Parser

namespace Item

variable {inner : Statement.Inner} {strays : List Scanned} {told : List Diagnostic} {s s' : State}

/-- These kinds of token are those that an item is parsed at. -/
theorem isSome_ofToken? (inner : Statement.Inner) (token : Token) :
    (ofToken? inner token).isSome = token.kind.startsItem := by
  unfold ofToken?
  cases token.kind <;> rfl

/-- A token that starts no item begins a run that is skipped, or is in one. -/
theorem items_of_stray {x : Scanned} {others : List Scanned} (skipping : Bool)
    (ahead : s.ahead = x :: others) (isToken : x.token.kind ≠ .eof)
    (stray : x.token.kind.startsItem = false) :
    (items inner skipping).run s =
      (items inner true).run ((reportStray x.token skipping).run s).2.advance := by
  have current : s.current = x.token := by rw [State.current, ahead]
  have given : beforeEnd? s = some x.token := by
    rw [beforeEnd?, current, if_neg isToken]
  have none : ofToken? inner x.token = none := by
    rwa [← Option.not_isSome_iff_eq_none, Bool.not_eq_true, isSome_ofToken?]
  rw [items_of_token skipping given, programRound, none]
  rfl

/-- **A run that is being skipped** is passed, and no more is reported. -/
theorem exists_told_of_skipping (inner : Statement.Inner)
    (isToken : ∀ x ∈ strays, x.token.kind ≠ .eof)
    (stray : ∀ x ∈ strays, x.token.kind.startsItem = false) (h : Told strays told s s') :
    ∃ t', Told [] told s t' ∧ (items inner true).run s' = (items inner true).run t' := by
  induction strays generalizing s' with
  | nil => exact ⟨s', h, rfl⟩
  | cons x strays ih =>
    obtain ⟨t', after, onward⟩ := ih (fun y mem => isToken y (by simp [mem]))
      (fun y mem => stray y (by simp [mem])) h.skip
    exact ⟨t', after, (items_of_stray true h.ahead_eq (isToken x (by simp)) (stray x (by simp))).trans
      onward⟩

/-- Where an item starts, and where the file ends, it does not matter whether a run was skipped. -/
theorem run_items_eq_of_starts (starts : ∀ x ∈ s.ahead.head?, x.token.kind.startsItem = true)
    (skipping : Bool) : ((items inner skipping).run s).2 = ((items inner false).run s).2 := by
  cases given : beforeEnd? s with
  | none => rw [items_of_end _ given, items_of_end _ given]
  | some token =>
    obtain ⟨rfl, isToken⟩ := current_of_beforeEnd? given
    obtain ⟨x, others, ahead⟩ := List.exists_cons_of_ne_nil (State.ahead_ne_nil isToken)
    have current : s.current = x.token := by rw [State.current, ahead]
    obtain ⟨item, isItem⟩ : ∃ item, ofToken? inner x.token = some item := by
      rw [← Option.isSome_iff_exists, isSome_ofToken?]
      exact starts x (by simp [ahead])
    rw [items_of_token _ given, items_of_token _ given, programRound, programRound, current, isItem]

end Item

namespace TokenStream

/-- The error of a run of tokens that start no item: that its first token starts none. -/
def strayErrors (file : String) (strays : List Scanned) : List Diagnostic :=
  strays.head?.toList.map fun x =>
    ⟨.syntactic (.expectedTopLevelItem x.token.kind x.token.text), x.token.line, file⟩

variable {file : String} {strays : List Scanned}

theorem syntaxErrors_opening (limit : Nat) (file : String) (stream : TokenStream) :
    syntaxErrors (State.opening limit file stream).errors = [] := by
  rw [State.opening, syntaxErrors_noteFault, syntaxErrors_noteFault]
  rfl

/-- **Behind tokens that start no item** the rest of a file is parsed as on its own, and the tokens are
reported once. -/
theorem parse_strays (file : String) (rest : TokenStream)
    (isToken : ∀ x ∈ strays, x.token.kind ≠ .eof)
    (stray : ∀ x ∈ strays, x.token.kind.startsItem = false)
    (starts : ∀ x ∈ rest.scanned.head?, x.token.kind.startsItem = true) :
    let whole := (⟨strays ++ rest.scanned, rest.endLine⟩ : TokenStream).parse file
    whole.ast = (rest.parse file).ast ∧
      syntaxErrors whole.errors = strayErrors file strays ++ syntaxErrors (rest.parse file).errors := by
  intro whole
  let items := Item.items (Statement.Inner.ofRoom maxNesting)
  cases strays with
  | nil => exact ⟨rfl, rfl⟩
  | cons x strays =>
    let s := State.opening maxNesting file rest
    let s' := State.opening maxNesting file ⟨x :: strays ++ rest.scanned, rest.endLine⟩
    let e : SyntaxError := ⟨.expectedTopLevelItem x.token.kind x.token.text, x.token.line⟩
    have reported : Told (x :: strays) [e.diagnostic file] s (s'.record e) := by
      refine ⟨rfl, rfl, rfl, rfl, rfl, ?_⟩
      rw [syntaxErrors_record, syntaxErrors_opening, syntaxErrors_opening]
      rfl
    obtain ⟨t', after, onward⟩ := Item.exists_told_of_skipping (Statement.Inner.ofRoom maxNesting)
      (fun y mem => isToken y (by simp [mem])) (fun y mem => stray y (by simp [mem])) reported.skip
    have first : (items false).run s' = (items true).run (s'.record e).advance :=
      Item.items_of_stray false rfl (isToken x (by simp)) (stray x (by simp))
    have followed := (Item.follows_items (S := Simulation.telling [e.diagnostic file])
      (Statement.follows_ofRoom (fun _ _ => Told.limit_eq) maxNesting) false after trivial).2
    have place : whole = .ofState ((items false).run t').2 := by
      have reads : ∀ x ∈ t'.ahead.head?, x.token.kind.startsItem = true := by
        rw [after.ahead_eq]
        exact starts
      rw [← Item.run_items_eq_of_starts reads true, ← onward, ← first]
      rfl
    rw [place]
    exact ⟨followed.ast_eq, followed.errors_eq⟩

/-! ### Items with other tokens between them -/

/-- Behind tokens that are parsed without an error the rest of a file is parsed as on its own. -/
theorem parse_behind {item : TokenStream} (tokens : ∀ x ∈ item.scanned, x.token.kind ≠ .eof)
    (clean : (item.parse file).errors = #[]) (rest : TokenStream) :
    let whole := (⟨item.scanned ++ rest.scanned, rest.endLine⟩ : TokenStream).parse file
    whole.ast = (Renaming.behind (item.parse file).ast).ast (rest.parse file).ast ∧
      whole.errors = (rest.parse file).errors := by
  intro whole
  let ρ := Renaming.behind (item.parse file).ast
  have kept : rest.scanned.map ρ.scanned = rest.scanned :=
    List.map_id'' (fun x => Renaming.scanned_relined id _ x) _
  have both : (⟨item.scanned ++ rest.scanned.map ρ.scanned, rest.endLine⟩ : TokenStream).parse file =
      ρ.parsed (rest.parse file) := parse_concat tokens clean id rest
  rw [kept] at both
  refine ⟨congrArg Parsed.ast both, (congrArg Parsed.errors both).trans ?_⟩
  exact (Renaming.filterMap_relined id _ _).trans (Array.map_id' _)

/-- Without tokens there is no item. -/
theorem parse_nil (file : String) (endLine : UInt32) :
    (⟨[], endLine⟩ : TokenStream).parse file = ⟨Ast.empty, #[]⟩ := by
  let s := State.opening maxNesting file ⟨[], endLine⟩
  have ended : (Item.items (.ofRoom maxNesting) false).run s = (false, s) :=
    Item.items_of_end false rfl
  exact congrArg (fun r : Bool × State => Parsed.ofState r.2) ended

/-- An item that is parsed without an error starts with a token that starts one. -/
theorem startsItem_of_clean {item : TokenStream} (tokens : ∀ x ∈ item.scanned, x.token.kind ≠ .eof)
    (clean : (item.parse file).errors = #[]) (isItem : (item.parse file).ast.roots.size = 1) :
    ∃ x others, item.scanned = x :: others ∧ x.token.kind.startsItem = true := by
  let s := State.opening maxNesting file item
  let inner := Statement.Inner.ofRoom maxNesting
  cases scanned : item.scanned with
  | nil =>
    obtain ⟨_, endLine⟩ := item
    obtain rfl := scanned
    rw [parse_nil] at isItem
    cases isItem
  | cons x others =>
    have current : s.current = x.token := by simp [s, State.current, State.opening, scanned]
    have given : Item.beforeEnd? s = some x.token := by
      rw [Item.beforeEnd?, current, if_neg (tokens x (by simp [scanned]))]
    have ran : (Item.items inner false).run s =
        (Item.programRound inner x.token false >>= Item.items inner).run s :=
      Item.items_of_token false given
    have whole : ((Item.items inner false).run s).2.errors = #[] := clean
    rw [ran, run_bind] at whole
    have quiet := (Parser.reaches _ _).errors_eq_empty whole
    obtain ⟨_, starts, -⟩ := Item.exists_item_of_clean quiet
    exact ⟨x, others, rfl, by rw [← Item.isSome_ofToken? inner, starts, Option.isSome_some]⟩

end TokenStream

/-- The tokens of an item, and what stands between it and the next one. -/
structure Segment where
  item : TokenStream
  strays : List Scanned

namespace Segment

variable (g : Segment)

/-- The tokens of the item and those behind it. -/
def scanned : List Scanned :=
  g.item.scanned ++ g.strays

/-- On their own the tokens of the item are parsed without an error, as one item. -/
structure Clean (file : String) : Prop where
  errors_eq : (g.item.parse file).errors = #[]
  isItem : (g.item.parse file).ast.roots.size = 1

end Segment

/-- The nodes and items of some trees, one behind the other. -/
def Ast.joined (trees : List Ast) : Ast :=
  trees.foldr (fun tree others => (Renaming.behind tree).ast others) Ast.empty

/-- **Items with other tokens between them** have their trees, one behind the other, and the errors of
the runs of other tokens. -/
theorem TokenStream.parse_segments {file : String} {endLine : UInt32} {segments : List Segment}
    (isToken : ∀ x ∈ segments.flatMap (·.scanned), x.token.kind ≠ .eof)
    (clean : ∀ g ∈ segments, g.Clean file)
    (between : ∀ g ∈ segments, ∀ x ∈ g.strays, x.token.kind.startsItem = false)
    {strays : List Scanned} (isToken' : ∀ x ∈ strays, x.token.kind ≠ .eof)
    (stray : ∀ x ∈ strays, x.token.kind.startsItem = false) :
    let whole := (⟨strays ++ segments.flatMap (·.scanned), endLine⟩ : TokenStream).parse file
    whole.ast = Ast.joined (segments.map fun g => (g.item.parse file).ast) ∧
      syntaxErrors whole.errors = (strays :: segments.map (·.strays)).flatMap (strayErrors file) := by
  induction segments generalizing strays with
  | nil =>
    obtain ⟨ast, errors⟩ := parse_strays file ⟨[], endLine⟩ isToken' stray (by simp)
    rw [parse_nil] at ast errors
    exact ⟨ast, errors⟩
  | cons g segments ih =>
    rw [List.flatMap_cons, Segment.scanned, List.append_assoc] at isToken ⊢
    rw [List.forall_mem_append, List.forall_mem_append] at isToken
    rw [List.forall_mem_cons] at clean between
    obtain ⟨isToken, following, others⟩ := isToken
    obtain ⟨⟨quiet, isItem⟩, clean⟩ := clean
    obtain ⟨x, _, first, starts⟩ := startsItem_of_clean isToken quiet isItem
    let behind : TokenStream := ⟨g.strays ++ segments.flatMap (·.scanned), endLine⟩
    let fromItem : TokenStream := ⟨g.item.scanned ++ behind.scanned, endLine⟩
    obtain ⟨ast, errors⟩ := parse_strays file fromItem isToken' stray
      (by simp [fromItem, first, starts])
    obtain ⟨tree, same⟩ := parse_behind isToken quiet behind
    obtain ⟨trees, reported⟩ := ih others clean between.2 following between.1
    constructor
    · rw [ast, tree, trees]
      rfl
    · rw [errors, same, reported]
      rfl

/-- **What stands between items is reported once and disturbs nothing.** Let the tokens of a source be
those of items that are parsed without an error on their own, one each, with any other tokens before,
between and behind them of which none starts an item. Then the tree has the nodes and items of the trees
of these, one behind the other, and the errors of the syntax are one for each run of other tokens, at its
first one. -/
theorem Source.strays_reported_once {source : Source} {strays : List Scanned} {segments : List Segment}
    (tokens : source.scan.scanned = strays ++ segments.flatMap (·.scanned))
    (clean : ∀ g ∈ segments, g.Clean source.name)
    (stray : ∀ x ∈ strays, x.token.kind.startsItem = false)
    (between : ∀ g ∈ segments, ∀ x ∈ g.strays, x.token.kind.startsItem = false) :
    source.parse.ast = Ast.joined (segments.map fun g => (g.item.parse source.name).ast) ∧
      syntaxErrors source.parse.errors =
        (strays :: segments.map (·.strays)).flatMap (TokenStream.strayErrors source.name) := by
  have isToken := source.kind_ne_eof_of_mem_scan
  rw [tokens, List.forall_mem_append] at isToken
  have whole : source.scan = ⟨strays ++ segments.flatMap (·.scanned), source.scan.endLine⟩ := by
    rw [← tokens]
  rw [source.parse_eq_scan, whole]
  exact TokenStream.parse_segments isToken.2 clean between isToken.1 stray

/-- Braces, an operator, an `else` and an illegal character around a declaration and a struct. -/
theorem Source.strays_reported_once_around_two :
    let source : Source := ⟨"f.viper", "\x7d @ let n: int = 1; else \x7d\n+ struct p \x7b \x7d \x7d"⟩
    let scanned := source.scan.scanned
    let strays := scanned.take 2
    let declaration : Segment := ⟨⟨(scanned.drop 2).take 7, 1⟩, (scanned.drop 9).take 3⟩
    let struct : Segment := ⟨⟨(scanned.drop 12).take 4, 2⟩, scanned.drop 16⟩
    let segments := [declaration, struct]
    (scanned = strays ++ segments.flatMap (·.scanned) ∧ (∀ g ∈ segments, g.Clean source.name) ∧
      (∀ x ∈ strays, x.token.kind.startsItem = false) ∧
      ∀ g ∈ segments, ∀ x ∈ g.strays, x.token.kind.startsItem = false) ∧
    source.parse.ast = Ast.joined (segments.map fun g => (g.item.parse source.name).ast) ∧
      syntaxErrors source.parse.errors =
        (strays :: segments.map (·.strays)).flatMap (TokenStream.strayErrors source.name) := by
  intro source scanned strays declaration struct segments
  have tokens : scanned = strays ++ segments.flatMap (·.scanned) := by decide +kernel
  have cleanDeclaration : declaration.Clean source.name := ⟨by decide +kernel, by decide +kernel⟩
  have cleanStruct : struct.Clean source.name := ⟨by decide +kernel, by decide +kernel⟩
  have clean : ∀ g ∈ segments, g.Clean source.name := by
    simp only [segments, List.forall_mem_cons]
    exact ⟨cleanDeclaration, cleanStruct, nofun⟩
  have stray : ∀ x ∈ strays, x.token.kind.startsItem = false := by decide +kernel
  have between : ∀ g ∈ segments, ∀ x ∈ g.strays, x.token.kind.startsItem = false := by decide +kernel
  exact ⟨⟨tokens, clean, stray, between⟩, strays_reported_once tokens clean stray between⟩

end Viper
