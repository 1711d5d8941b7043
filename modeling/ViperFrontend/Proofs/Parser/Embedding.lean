/-
# An operand on its own and among other tokens

An operand ends with a token that belongs to it: a literal, a name, a closing bracket. Only behind a
name does the parser look at the token that follows, to see whether the name is called, indexed or
selected from. So every parser of an operand closes its construct (`Expression.closes_primary`), if
what stands behind a name at its end does not go on with it (`Parser.Simulation.EndsOperands`).

Hence an operand that is parsed whole on its own, where the file ends with it, is parsed in the same
way wherever it stands: its tokens are passed, and the nodes that are made of them come behind those
that are there already (`Expression.gives_primary`).

Key definitions: `Parser.State.Passed`, `Parser.Embeds`, `Expression.ReadsWhole`.
Key theorems: `Expression.closes_primary`, `Expression.gives_primary`, `Expression.ReadsWhole.of_single`.
-/
import Mathlib.Logic.Function.Iterate
import ViperFrontend.Proofs.Grammar.Tree
import ViperFrontend.Proofs.Parser.Closing
import ViperFrontend.Proofs.Parser.Nesting

namespace Viper

open Viper.Parser

/-! ### Operands close -/

namespace Parser

variable {ρ : Renaming} {S : Simulation ρ} {s s' : State}

/-- Nothing is refused where nothing may be recorded. -/
theorem Simulation.unrefused [quiet : S.Quiet] : S.Unrefused := by
  intro p' s s' _ live
  obtain ⟨line, t, run, -⟩ := run_tooDeep s
  rw [run] at live
  have clean := ((quiet.live_iff _).1 live).1
  simp [State.record] at clean

/-- If a name is the last token of the first parse, what follows it in the second does not go on with
it. -/
def Simulation.EndsOperands (S : Simulation ρ) : Prop :=
  ∀ s s', S.rel s s' → s.current.kind = .identifier → s.advance.ahead = [] →
    s'.peek.kind.endsOperand = true

end Parser

namespace Expression

variable {ρ : Renaming} {S : Simulation ρ} {s s' : State} {inner inner' : Inner}

/-- The parsers of one level follow those of another up to the ends of what they parse. -/
structure Inner.Closes (S : Simulation ρ) (inner inner' : Inner) : Prop
    extends Inner.Follows S inner inner' where
  primary_closes : ∀ s s', Attempt.Closes S ρ.node inner.primary inner'.primary s s'
  identifier_closes : ∀ s s', s.current.kind = .identifier →
    Attempt.Closes S ρ.node inner.identifier inner'.identifier s s'

/-- A name that nothing goes on with stands alone. -/
theorem run_identifier (inner : Inner) (ends : s.peek.kind.endsOperand = true) :
    (identifier inner).run.run s = (liftM name : Attempt NodeId).run.run s := by
  unfold identifier
  rw [Attempt.run_bind, Attempt.run_lift, run_peek]
  dsimp only
  split
  · rename_i kind
    simp [kind, TokenKind.endsOperand] at ends
  · rename_i kind
    simp [kind, TokenKind.endsOperand] at ends
  · rename_i kind
    simp [kind, TokenKind.endsOperand] at ends
  · rfl

section Quiet

variable [quiet : S.Quiet]

theorem closes_prefixed (h : inner.Closes S inner') :
    Attempt.Closes S ρ.node (prefixed inner) (prefixed inner') s s' := by
  refine Attempt.Closes.bind (Attempt.follows_lift follows_advance) fun operator t t' _ => ?_
  exact (h.primary_closes t t').bind_finishes fun operand _ _ => Attempt.finishes_alloc rfl rfl

theorem closes_boolean (some : s.ahead ≠ []) :
    Parser.Closes S ρ.node boolean boolean s s' :=
  (closes_advance some).bind_node rfl rfl

theorem closes_numeral {α : Type} {read? : String → Option α} {make : α → Construct} (some : s.ahead ≠ [])
    (h : ρ.Rereads read? make s.current) :
    Attempt.Closes S ρ.node (numeral read? make) (numeral read? make) s s' := by
  refine (Attempt.closes_lift (closes_advance some)).bind_finishes ?_
  rintro _ _ ⟨⟩
  cases given : read? s.current.text with
  | some value =>
    obtain ⟨value', given', same⟩ := h.exists_value given
    rw [given']
    exact Attempt.finishes_alloc same rfl
  | none =>
    rw [h.eq_none given]
    exact Attempt.finishes_throw

theorem closes_string (kind : s.current.kind = .string) :
    Parser.Closes S ρ.node string string s s' := by
  refine (closes_advance (ahead_ne_nil_of_kind kind (by decide))).bind_node ?_ rfl
  rw [run_advance, ρ.text_token (by rw [kind]; decide)]
  rfl

theorem closes_grouping (h : inner.Follows S inner') :
    Attempt.Closes S ρ.node (grouping inner) (grouping inner') s s' := by
  refine Attempt.Closes.bind (Attempt.follows_lift follows_advance) fun _ t t' _ => ?_
  refine Attempt.Closes.bind (follows_parse h) fun expr t t' _ => ?_
  exact (Attempt.closes_lift (closes_eat (by decide))).bind_finishes fun _ _ _ =>
    Attempt.finishes_pure

theorem closes_call (h : inner.Follows S inner') (kind : s.current.kind = .identifier) :
    Parser.Closes S ρ.node (call inner) (call inner') s s' := by
  refine Closes.bind follows_advance fun callee t t' run => ?_
  obtain rfl : s.current = callee := congrArg Prod.fst run
  refine Closes.bind follows_advance fun _ t t' _ => ?_
  refine Closes.bind (follows_commaList fun t t' => follows_parseOrInvalid h) fun arguments t t' _ => ?_
  refine (closes_eat (by decide)).bind_alloc fun _ => ?_
  rw [text_name kind]
  rfl

theorem closes_indexed (h : inner.Follows S inner') (kind : s.current.kind = .identifier) :
    Parser.Closes S ρ.node (indexed inner) (indexed inner') s s' := by
  refine Closes.bind follows_advance fun name t t' run => ?_
  obtain rfl : s.current = name := congrArg Prod.fst run
  refine Closes.bind follows_advance fun _ t t' _ => ?_
  refine Closes.bind (follows_parseOrInvalid h) fun index t t' _ => ?_
  refine (closes_eat (by decide)).bind_alloc fun _ => ?_
  rw [text_name kind]
  rfl

theorem closes_member (h : inner.Closes S inner') (kind : s.current.kind = .identifier) :
    Attempt.Closes S ρ.node (member inner) (member inner') s s' := by
  refine Attempt.Closes.bind (Attempt.follows_lift follows_advance) fun name t t' run => ?_
  obtain rfl : s.current = name := Except.ok.inj (congrArg Prod.fst run)
  refine Attempt.Closes.bind (Attempt.follows_lift (follows_alloc ?_ rfl)) fun object t t' _ => ?_
  · rw [text_name kind]
    rfl
  refine Attempt.Closes.bind (Attempt.follows_lift follows_advance) fun dot t t' _ => ?_
  refine Attempt.closes_current_bind ?_
  rw [ρ.kind_token]
  split
  · rename_i isName
    exact (h.identifier_closes t t' isName).bind_finishes fun field _ _ =>
      Attempt.finishes_alloc rfl rfl
  · exact Attempt.closes_throw

theorem closes_name (kind : s.current.kind = .identifier) :
    Parser.Closes S ρ.node name name s s' := by
  refine (closes_advance (ahead_ne_nil_of_kind kind (by decide))).bind_node ?_ rfl
  rw [run_advance, text_name kind]
  rfl

/-- A name with what follows it closes, also where the name is the last token. -/
theorem closes_identifier (ends : S.EndsOperands) (h : inner.Closes S inner')
    (kind : s.current.kind = .identifier) :
    Attempt.Closes S ρ.node (identifier inner) (identifier inner') s s' := by
  -- If the name is the last token, the first parse finds the end of the file behind it and the second
  -- something else, but both take the name alone.
  by_cases last : s.advance.ahead = []
  · have here : s.peek.kind.endsOperand = true := by
      rw [← State.current_advance, State.current, last]
      rfl
    have alone : Attempt.Closes S ρ.node (liftM name) (liftM name) s s' :=
      Attempt.closes_lift (closes_name kind)
    constructor
    · intro node t run
      rw [run_identifier inner here] at run
      exact alone.left node t run
    · intro node t run clean related
      rw [run_identifier inner here] at run
      rw [run_identifier inner' (ends s s' related kind last)]
      exact alone.follows node t run clean related
  · refine Attempt.closes_peek_bind last (reaches_identifier inner s) ?_
    rw [ρ.kind_token]
    split
    · exact Attempt.closes_lift (closes_call h.toFollows kind)
    · exact Attempt.closes_lift (closes_indexed h.toFollows kind)
    · exact closes_member h kind
    · exact Attempt.closes_lift (closes_name kind)

/-- **An operand closes.** -/
theorem closes_primary (ends : S.EndsOperands) (h : inner.Closes S inner') :
    Attempt.Closes S ρ.node (primary inner) (primary inner') s s' := by
  refine Attempt.closes_current_bind ?_
  rw [ρ.kind_token]
  split
  · exact closes_prefixed h
  · exact closes_prefixed h
  · exact closes_prefixed h
  · exact Attempt.closes_lift (closes_boolean (ahead_ne_nil_of_kind ‹_› (by decide)))
  · exact Attempt.closes_lift (closes_boolean (ahead_ne_nil_of_kind ‹_› (by decide)))
  · exact closes_numeral (ahead_ne_nil_of_kind ‹_› (by decide)) (ρ.rereads_integer ‹_›)
  · exact closes_numeral (ahead_ne_nil_of_kind ‹_› (by decide)) (ρ.rereads_float ‹_›)
  · exact Attempt.closes_lift (closes_string ‹_›)
  · exact closes_identifier ends h ‹_›
  · exact closes_grouping h.toFollows
  · exact Attempt.closes_throw

theorem closes_around (ends : S.EndsOperands) (h : inner.Closes S inner') :
    (Inner.around inner).Closes S (Inner.around inner') where
  toFollows := follows_around h.toFollows
  primary_closes _ _ := closes_primary ends h
  identifier_closes _ _ := closes_identifier ends h

omit quiet in
/-- What is refused fails. -/
theorem closes_tooDeep {p' : Attempt NodeId} : Attempt.Closes S ρ.node tooDeep p' s s' := by
  obtain ⟨line, u, refused, -⟩ := run_tooDeep s
  constructor <;> intro node t run <;> rw [refused] at run <;> cases run

/-- At every level operands close, and more room makes no difference. -/
theorem closes_ofRoom_of_le (ends : S.EndsOperands) :
    ∀ {room room' : Nat}, room ≤ room' → (Inner.ofRoom room).Closes S (Inner.ofRoom room')
  | 0, _, _ =>
    { follows_of_refusing S.unrefused _ with
      primary_closes := fun _ _ => closes_tooDeep
      identifier_closes := fun _ _ _ => closes_tooDeep }
  | _ + 1, _ + 1, h => closes_around ends (closes_ofRoom_of_le ends (Nat.le_of_succ_le_succ h))

end Quiet
end Expression

/-! ### Tokens that are passed -/

namespace Parser

/-- The kind of the next token, or of the end of the file. -/
def nextKind (ahead : List Scanned) : TokenKind :=
  (ahead.head?.map (·.token.kind)).getD .eof

namespace State

variable {s t u : State} {m n : Nat}

theorem kind_current (s : State) : s.current.kind = nextKind s.ahead := by
  unfold current nextKind
  cases s.ahead <;> rfl

/-- From `s` on `n` tokens are passed, nodes may be made, and nothing else happens. -/
def Passed (n : Nat) (s t : State) : Prop :=
  t = { State.advance^[n] s with ast := t.ast }

theorem Passed.refl (s : State) : s.Passed 0 s := rfl

theorem passed_advance (s : State) : s.Passed 1 s.advance := rfl

theorem passed_alloc (construct : Construct) (token : Token) (s : State) :
    s.Passed 0 (s.alloc construct token).2 := rfl

theorem advance_withAst (s : State) (ast : Ast) :
    { s with ast }.advance = { s.advance with ast } := by
  obtain ⟨file, limit, ahead, endLine, tree, errors⟩ := s
  cases ahead <;> rfl

theorem iterate_advance_withAst (ast : Ast) :
    ∀ (n : Nat) (s : State), State.advance^[n] { s with ast } = { State.advance^[n] s with ast }
  | 0, _ => rfl
  | n + 1, s => by
    rw [Function.iterate_succ_apply, advance_withAst, iterate_advance_withAst ast n,
      Function.iterate_succ_apply]

theorem Passed.trans (h : s.Passed m t) (k : t.Passed n u) : s.Passed (m + n) u := by
  unfold Passed at h k ⊢
  rw [h, iterate_advance_withAst, ← Function.iterate_add_apply, Nat.add_comm n m] at k
  exact k

theorem Passed.advance (h : s.Passed n t) : s.Passed (n + 1) t.advance :=
  h.trans (passed_advance t)

theorem Passed.withAst (h : s.Passed n t) (ast : Ast) : s.Passed n { t with ast } := by
  unfold Passed at h ⊢
  rw [h]

theorem ahead_iterate_advance : ∀ (n : Nat) (s : State), (State.advance^[n] s).ahead = s.ahead.drop n
  | 0, _ => rfl
  | n + 1, s => by
    rw [Function.iterate_succ_apply, ahead_iterate_advance n, ahead_advance, List.drop_tail]

theorem Passed.ahead_eq (h : s.Passed n t) : t.ahead = s.ahead.drop n := by
  rw [h]
  exact ahead_iterate_advance n s

theorem filterMap_optionToList {α β : Type} (f : α → Option β) (x : Option α) :
    x.toList.filterMap f = (x.bind f).toList := by
  cases x with
  | none => rfl
  | some a => cases given : f a <;> simp [given]

/-- The faults of the tokens that are read when tokens are passed, two places behind these. -/
theorem toList_errors_iterate_advance : ∀ (n : Nat) (s : State),
    (State.advance^[n] s).errors.toList =
      s.errors.toList ++ ((s.ahead.drop 2).take n).filterMap (·.diagnostic? s.file)
  | 0, s => by simp
  | n + 1, s => by
    have second : s.ahead.tail[1]? = (s.ahead.drop 2).head? := by
      rw [List.head?_drop, List.getElem?_tail]
    have later : s.advance.ahead.drop 2 = (s.ahead.drop 2).tail := by
      rw [ahead_advance, List.drop_tail, List.tail_drop]
    have read : (s.ahead.drop 2).take (n + 1) =
        (s.ahead.drop 2).head?.toList ++ (s.ahead.drop 2).tail.take n := by
      cases s.ahead.drop 2 <;> simp
    rw [Function.iterate_succ_apply, toList_errors_iterate_advance n, toList_errors_advance, noted,
      file_advance, later, read, List.filterMap_append, filterMap_optionToList, second,
      List.append_assoc]

/-- Passing tokens records the faults of those that are read, and nothing else. -/
theorem Passed.toList_errors (h : s.Passed n t) :
    t.errors.toList =
      s.errors.toList ++ ((s.ahead.drop 2).take n).filterMap (·.diagnostic? s.file) := by
  rw [h]
  exact toList_errors_iterate_advance n s

end State
end Parser

/-! ### Trees behind other trees -/

/-- Puts nodes behind those of a tree and changes nothing else. -/
abbrev Renaming.behind (base : Ast) : Renaming :=
  relined id base

theorem Renaming.getElem?_faces_ast (ρ : Renaming) (tree : Ast) (node : NodeId) :
    (ρ.ast tree).faces[ρ.node node]? =
      tree.faces[node]?.map fun face => (ρ.construct face.1, ρ.token face.2) := by
  have back : ρ.node node - ρ.base.size = node := Nat.add_sub_cancel _ _
  have behind : ¬ ρ.node node < ρ.base.size := Nat.not_lt.2 (Nat.le_add_left _ _)
  rw [Ast.getElem?_faces, Ast.getElem?_faces, ρ.getElem?_nodes_ast, if_neg behind, back,
    Option.map_map, Option.map_map]
  rfl

namespace Ast

open Program

variable {τ : Type} {view : Token → τ} {ast ast' : Ast} {base : Ast}

/-- The trees at moved nodes are those at the nodes if that is so for each tree of the list. -/
theorem forall₂_map_of_mem {κ : Type} {holds holds' : NodeId → κ → Prop} {move : NodeId → NodeId} :
    ∀ {ids : List NodeId} {xs : List κ}, List.Forall₂ holds ids xs →
    (∀ x ∈ xs, ∀ node, holds node x → holds' (move node) x) → List.Forall₂ holds' (ids.map move) xs
  | [], [], .nil, _ => .nil
  | _ :: _, x :: xs, .cons held others, moved =>
    .cons (moved x (by simp) _ held)
      (forall₂_map_of_mem others fun y mem => moved y (List.mem_cons_of_mem _ mem))

/-- Where every node is found again behind other nodes, so is every tree. -/
theorem HoldsExpr.move
    (shows : ∀ node construct (mark : τ), ast.Shows view node construct mark →
      ast'.Shows view ((Renaming.behind base).node node) ((Renaming.behind base).construct construct) mark)
    {e : Expr τ} {node : NodeId} (h : ast.HoldsExpr view node e) :
    ast'.HoldsExpr view ((Renaming.behind base).node node) e := by
  cases h with
  | integer shown => exact .integer (shows _ _ _ shown)
  | float shown => exact .float (shows _ _ _ shown)
  | boolean shown => exact .boolean (shows _ _ _ shown)
  | string shown => exact .string (shows _ _ _ shown)
  | name shown => exact .name (shows _ _ _ shown)
  | index shown held => exact .index (shows _ _ _ shown) (HoldsExpr.move shows held)
  | call shown held =>
    have all := forall₂_map_of_mem held fun _ _ _ => HoldsExpr.move shows
    exact .call (shows _ _ _ shown) all
  | member shown object held =>
    exact .member (shows _ _ _ shown) (shows _ _ _ object) (HoldsExpr.move shows held)
  | prefixed shown held => exact .prefixed (shows _ _ _ shown) (HoldsExpr.move shows held)
  | binary shown left right =>
    exact .binary (shows _ _ _ shown) (HoldsExpr.move shows left) (HoldsExpr.move shows right)
termination_by sizeOf e

/-- **The tree at a node is also that of the node behind another tree.** -/
theorem HoldsExpr.behind (base : Ast) {e : Expr τ} {node : NodeId} (h : ast.HoldsExpr view node e) :
    ((Renaming.behind base).ast ast).HoldsExpr view ((Renaming.behind base).node node) e := by
  refine h.move ?_
  rintro node construct _ ⟨token, found, rfl⟩
  refine ⟨token, ?_, rfl⟩
  rw [Renaming.getElem?_faces_ast, found, Option.map_some, Renaming.token_relined]
  rfl

/-- The tree at a node stays when nodes are added. -/
theorem HoldsExpr.mono {e : Expr τ} {node : NodeId} (h : ast.HoldsExpr view node e)
    (larger : ast.faces <+: ast'.faces) : ast'.HoldsExpr view node e := by
  have moved : ast'.HoldsExpr view ((Renaming.behind Ast.empty).node node) e := by
    refine h.move ?_
    rintro node construct _ ⟨token, found, rfl⟩
    refine ⟨token, ?_, rfl⟩
    rw [Renaming.node_of_empty _ rfl, id, getElem?_faces_mono larger found]
    exact congrArg (fun c => some (c, token)) (Renaming.construct_same construct).symm
  rwa [Renaming.node_of_empty _ rfl] at moved

end Ast

/-! ### An operand among other tokens -/

/-- A token with whose text nothing is wrong. -/
def Scanned.ofToken (token : Token) : Scanned :=
  ⟨token, none⟩

namespace Parser

/-- What stands behind the tokens does not go on with a name that they end with. -/
def Unextended (tokens : List Token) (behind : List Scanned) : Prop :=
  ∀ last ∈ tokens.getLast?, last.kind = .identifier → (nextKind behind).endsOperand = true

theorem Unextended.tail {token : Token} {tokens : List Token} {behind : List Scanned}
    (h : Unextended (token :: tokens) behind) : Unextended tokens behind := by
  intro last mem
  cases tokens with
  | nil => cases mem
  | cons second others => exact h last (by rwa [List.getLast?_cons_cons])

/-- The first parse has only the first of the `n` tokens ahead that the second has at the start, and
no nodes yet. Both go on in the same way, up to the tokens behind and the nodes before. -/
structure Embeds (n : Nat) (start : State) (behind : List Scanned) (s s' : State) : Prop where
  passed : ∃ m, m + s.ahead.length = n ∧ start.Passed m s'
  ahead_eq : s'.ahead = s.ahead ++ behind
  ast_eq : s'.ast = (Renaming.behind start.ast).ast s.ast
  ends : Unextended (s.ahead.map (·.token)) behind

variable {n : Nat} {start : State} {behind : List Scanned} {s s' : State}

namespace Embeds

theorem advance (h : Embeds n start behind s s') (left : s.ahead ≠ []) :
    Embeds n start behind s.advance s'.advance := by
  obtain ⟨x, xs, ahead⟩ := List.exists_cons_of_ne_nil left
  have later : s.advance.ahead = xs := by rw [State.ahead_advance, ahead, List.tail_cons]
  obtain ⟨m, count, passed⟩ := h.passed
  have ends := h.ends
  rw [ahead, List.map_cons] at ends
  rw [ahead, List.length_cons] at count
  refine ⟨⟨m + 1, by rw [later]; omega, passed.advance⟩, ?_, ?_, by rw [later]; exact ends.tail⟩
  · rw [State.ahead_advance, h.ahead_eq, later, ahead, List.cons_append, List.tail_cons]
  · rw [State.ast_advance, State.ast_advance, h.ast_eq]

/-- What is done to the trees alone changes nothing else. -/
theorem withAst (h : Embeds n start behind s s') {ast ast' : Ast}
    (same : ast' = (Renaming.behind start.ast).ast ast) :
    Embeds n start behind { s with ast } { s' with ast := ast' } := by
  obtain ⟨m, count, passed⟩ := h.passed
  exact ⟨⟨m, count, passed.withAst ast'⟩, h.ahead_eq, same, h.ends⟩

end Embeds

/-- The second parse does what the first does, while nothing is recorded and a token is left. -/
def Simulation.embedding (n : Nat) (start : State) (behind : List Scanned) :
    Simulation (Renaming.behind start.ast) where
  rel := Embeds n start behind
  live s := s.errors = #[] ∧ s.ahead ≠ []
  live_of_reaches := State.Reaches.quiet
  current_eq related live := by
    rw [Renaming.token_relined]
    exact State.current_eq_of_append related.ahead_eq live.2
  advance related live := related.advance live.2
  record := by
    rintro s s' e - ⟨clean, -⟩
    simp [State.record] at clean
  alloc_fst := by
    intro s s' c t related
    simp only [State.alloc, related.ast_eq, Renaming.alloc_ast]
  alloc_snd := by
    intro s s' c t related
    refine related.withAst ?_
    rw [related.ast_eq, Renaming.alloc_ast]
  pushRoot := by
    intro s s' root related
    refine related.withAst ?_
    rw [related.ast_eq, Renaming.pushRoot_ast]

instance : (Simulation.embedding n start behind).Quiet where
  live_iff _ := Iff.rfl

/-- Behind a name at the end of the first parse stands what does not go on with it. -/
theorem endsOperands_embedding : (Simulation.embedding n start behind).EndsOperands := by
  intro s s' related kind last
  have left := ahead_ne_nil_of_kind kind (by decide)
  obtain ⟨x, xs, ahead⟩ := List.exists_cons_of_ne_nil left
  obtain rfl : xs = [] := by rw [← last, State.ahead_advance, ahead, List.tail_cons]
  have here : s.current = x.token := by rw [State.current, ahead]
  have ends := related.ends x.token (by rw [ahead]; rfl) (by rw [← here]; exact kind)
  rwa [← State.current_advance, State.kind_current, State.ahead_advance, related.ahead_eq, ahead]

/-- These tokens alone are ahead, and nothing is done yet. -/
def State.alone (tokens : List Token) : State where
  file := ""
  limit := maxNesting
  ahead := tokens.map Scanned.ofToken
  endLine := 0
  ast := Ast.empty
  errors := #[]

/-- At the start nothing is passed, and no node is made. -/
theorem embeds_alone {tokens : List Token} (ahead : s.ahead = tokens.map Scanned.ofToken ++ behind)
    (ends : Unextended tokens behind) :
    Embeds tokens.length s behind (State.alone tokens) s where
  passed := ⟨0, by simp [State.alone], .refl s⟩
  ahead_eq := ahead
  ast_eq := by simp [Renaming.ast, Ast.empty, State.alone, Renaming.relined]
  ends := by simpa [State.alone, Scanned.ofToken, Function.comp_def] using ends

end Parser

/-- From `s` on the attempt passes `n` tokens, does not record anything and gives the node of the
tree. -/
def Attempt.Gives (p : Attempt NodeId) (s : State) (n : Nat) (tree : Program.Expr Token) : Prop :=
  ∃ node t, p.run.run s = (.ok node, t) ∧ s.Passed n t ∧ t.ast.HoldsExpr id node tree

namespace Expression

open Program

variable {s : State} {room room' : Nat} {tokens : List Token} {behind : List Scanned}
  {tree : Expr Token}

/-- On their own the tokens are parsed as an operand, to the last one and without a diagnostic. -/
def ReadsWhole (room : Nat) (tokens : List Token) (tree : Expr Token) : Prop :=
  ∃ node t, (primary (.ofRoom room)).run.run (.alone tokens) = (.ok node, t) ∧
    t.ahead = [] ∧ t.errors = #[] ∧ t.ast.HoldsExpr id node tree

/-- **An operand that is parsed whole on its own is parsed so wherever it stands**, if what stands
behind it does not go on with it. -/
theorem gives_primary (whole : ReadsWhole room tokens tree) (more : room ≤ room')
    (ahead : s.ahead = tokens.map Scanned.ofToken ++ behind) (ends : Unextended tokens behind) :
    (primary (.ofRoom room')).Gives s tokens.length tree := by
  obtain ⟨node, t, run, none, clean, held⟩ := whole
  have levels := closes_ofRoom_of_le (S := Simulation.embedding tokens.length s behind)
    endsOperands_embedding more
  have closes : Attempt.Closes (Simulation.embedding tokens.length s behind)
      (Renaming.behind s.ast).node (primary (.ofRoom room)) (primary (.ofRoom room'))
      (.alone tokens) s := closes_primary endsOperands_embedding levels
  obtain ⟨t', run', after⟩ := closes.follows node t run clean (embeds_alone ahead ends)
  obtain ⟨m, count, passed⟩ := after.passed
  obtain rfl : m = tokens.length := by rwa [none] at count
  refine ⟨_, t', run', passed, ?_⟩
  rw [after.ast_eq]
  exact held.behind s.ast

/-- At the end of the file there is no operand. -/
theorem inner_primary_ne_ok (eof : s.current.kind = .eof) (node : NodeId) (t : State) :
    (Inner.ofRoom room).primary.run.run s ≠ (.ok node, t) := by
  intro run
  cases room with
  | zero =>
    obtain ⟨line, u, refused, -⟩ := run_tooDeep s
    cases refused.symm.trans run
  | succ room =>
    have operand : (primary (.ofRoom room)).run.run s = (.ok node, t) := run
    unfold primary at operand
    rw [Attempt.run_bind, Attempt.run_lift, run_current] at operand
    simp only [eof] at operand
    cases operand

theorem prefixed_ne_ok (eof : s.advance.current.kind = .eof) (node : NodeId) (t : State) :
    (prefixed (.ofRoom room)).run.run s ≠ (.ok node, t) := by
  intro run
  obtain ⟨_, _, ⟨⟩, rest⟩ := Attempt.ok_of_bind run
  obtain ⟨_, _, operand, -⟩ := Attempt.ok_of_bind rest
  exact inner_primary_ne_ok eof _ _ operand

theorem grouping_ne_ok (eof : s.advance.current.kind = .eof) (node : NodeId) (t : State) :
    (grouping (.ofRoom room)).run.run s ≠ (.ok node, t) := by
  intro run
  obtain ⟨_, _, ⟨⟩, rest⟩ := Attempt.ok_of_bind run
  obtain ⟨_, _, whole, -⟩ := Attempt.ok_of_bind rest
  obtain ⟨_, _, operand, -⟩ := Attempt.ok_of_bind whole
  exact inner_primary_ne_ok eof _ _ operand

/-- An operand of one token takes no room. -/
theorem ReadsWhole.of_single {token : Token} (whole : ReadsWhole room [token] tree) :
    ReadsWhole 0 [token] tree := by
  obtain ⟨node, t, run, rest⟩ := whole
  refine ⟨node, t, ?_, rest⟩
  have eof : (State.alone [token]).advance.current.kind = .eof := rfl
  have ends : (State.alone [token]).peek.kind.endsOperand = true := rfl
  unfold primary at run ⊢
  rw [Attempt.run_bind, Attempt.run_lift, run_current] at run ⊢
  simp only at run ⊢
  split at run
  · exact absurd run (prefixed_ne_ok eof node t)
  · exact absurd run (prefixed_ne_ok eof node t)
  · exact absurd run (prefixed_ne_ok eof node t)
  · exact run
  · exact run
  · exact run
  · exact run
  · exact run
  · rw [run_identifier _ ends] at run ⊢
    exact run
  · exact absurd run (grouping_ne_ok eof node t)
  · exact run

end Expression
end Viper
