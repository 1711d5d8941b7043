/-
# Renaming what a parse reads and makes

A renaming changes the lines of tokens, their texts, the names and values that nodes take from
them and the numbers of the nodes: these are shifted, so that the nodes come behind those of a
tree that is there already. It keeps the kinds of tokens and the shapes of constructs. What it
does to the text of a number literal must go with what it does to the value: a literal without one
stays so, and no other becomes so (`Renaming.Rereads`).

A renaming acts on the whole state of a parse (`Renaming.state`), and the steps of a parse do
not notice: passing a token, recording an error, making a node or adding an item and then
renaming is the same as renaming first.

Key definitions: `Renaming`, `Renaming.construct`, `Renaming.state`.
Key theorems: `Renaming.state_advance`, `Renaming.state_record`, `Renaming.state_alloc`,
`Renaming.state_pushRoot`.
-/
import ViperFrontend.Parsed
import ViperFrontend.Proofs.Parser.Rules

namespace Viper

open Viper.Parser (State)

/-- A way to rename what a parse reads and makes. -/
structure Renaming where
  file : String → String
  line : UInt32 → UInt32
  /-- the texts of all tokens but number literals -/
  text : String → String
  /-- the texts of integer literals -/
  digits : String → String
  /-- the texts of float literals -/
  points : String → String
  /-- the values of integer literals -/
  integer : UInt64 → UInt64
  /-- the values of float literals -/
  float : Binary64 → Binary64
  /-- the faults of texts; those that go to none are forgotten -/
  fault : LexicalFault → Option LexicalFault
  /-- the tree behind whose nodes the nodes come -/
  base : Ast
  text_empty : text "" = ""
  integer?_digits : ∀ literal, Literal.integer? (digits literal) = (Literal.integer? literal).map integer
  float?_points : ∀ literal, Literal.float? (points literal) = (Literal.float? literal).map float
  points_eq_digits : ∀ literal, Literal.float? literal = none → points literal = digits literal

/-- The kinds of number literals. -/
def TokenKind.isNumber : TokenKind → Bool
  | .integer | .float => true
  | _ => false

namespace Renaming

variable (ρ : Renaming)

/-- The text of a token of some kind. -/
def textOf (kind : TokenKind) (text : String) : String :=
  match kind with
  | .integer => ρ.digits text
  | .float => ρ.points text
  | _ => ρ.text text

def token (t : Token) : Token :=
  ⟨t.kind, ρ.textOf t.kind t.text, ρ.line t.line⟩

def scanned (x : Scanned) : Scanned :=
  ⟨ρ.token x.token, x.fault?.bind ρ.fault⟩

/-- A node comes as many places behind as the tree before it has nodes. -/
def node (id : NodeId) : NodeId :=
  id + ρ.base.size

def construct : Construct → Construct
  | .invalid => .invalid
  | .integer value => .integer (ρ.integer value)
  | .float value => .float (ρ.float value)
  | .boolean value => .boolean value
  | .string value => .string (ρ.text value)
  | .identifier name index => .identifier (ρ.text name) (index.map ρ.node)
  | .call callee arguments => .call (ρ.text callee) (arguments.map ρ.node)
  | .member object name => .member (ρ.node object) (ρ.node name)
  | .prefixed operator operand => .prefixed operator (ρ.node operand)
  | .binary left operator right => .binary (ρ.node left) operator (ρ.node right)
  | .varDecl name type value => .varDecl (ρ.text name) (ρ.node type) (ρ.node value)
  | .exprStmt expr => .exprStmt (ρ.node expr)
  | .returnStmt value => .returnStmt (value.map ρ.node)
  | .conditional branch condition body next =>
    .conditional branch (condition.map ρ.node) (ρ.node body) (next.map ρ.node)
  | .whileLoop condition body => .whileLoop (ρ.node condition) (ρ.node body)
  | .doWhileLoop body condition => .doWhileLoop (ρ.node body) (ρ.node condition)
  | .forLoop init condition action body =>
    .forLoop (ρ.node init) (ρ.node condition) (ρ.node action) (ρ.node body)
  | .block body => .block (body.map ρ.node)
  | .structDecl name fields methods =>
    .structDecl (ρ.text name) (fields.map ρ.node) (methods.map ρ.node)
  | .structField name type => .structField (ρ.text name) (ρ.node type)
  | .procDecl name parameters type body =>
    .procDecl (ρ.text name) (parameters.map ρ.node) (ρ.node type) (ρ.node body)
  | .procParameter name type => .procParameter (ρ.text name) (ρ.token type)
  | .dataType name => .dataType (ρ.text name)

def entry (n : Node) : Node :=
  ⟨ρ.construct n.construct, ρ.token n.token, n.parent.map ρ.node⟩

/-- The nodes and items of a tree, behind those of the tree that is there already. -/
def ast (tree : Ast) : Ast :=
  ⟨ρ.base.nodes ++ tree.nodes.map ρ.entry, ρ.base.roots ++ tree.roots.map ρ.node⟩

def syntaxFault : SyntaxFault → SyntaxFault
  | .unexpectedToken expected found text => .unexpectedToken expected found (ρ.textOf found text)
  | .expectedExpression found text => .expectedExpression found (ρ.textOf found text)
  | .expectedDataType found text => .expectedDataType found (ρ.textOf found text)
  | .expectedStructMember found text => .expectedStructMember found (ρ.textOf found text)
  | .expectedTopLevelItem found text => .expectedTopLevelItem found (ρ.textOf found text)
  | .missingComma found => .missingComma found
  | .danglingElseClause clause => .danglingElseClause clause
  | .numberTooLarge literal => .numberTooLarge (ρ.digits literal)
  | .nestingTooDeep limit => .nestingTooDeep limit

def error (e : SyntaxError) : SyntaxError :=
  ⟨ρ.syntaxFault e.fault, ρ.line e.line⟩

def anyFault : Fault → Option Fault
  | .lexical fault => (ρ.fault fault).map .lexical
  | .syntactic fault => some (.syntactic (ρ.syntaxFault fault))

def diagnostic? (d : Diagnostic) : Option Diagnostic :=
  (ρ.anyFault d.fault).map fun fault => ⟨fault, ρ.line d.line, ρ.file d.file⟩

/-- What a renaming does to a tree and its diagnostics. -/
def parsed (p : Parsed) : Parsed :=
  ⟨ρ.ast p.ast, p.errors.filterMap ρ.diagnostic?⟩

/-- What a renaming does to the state of a parse. -/
def state (s : State) : State where
  file := ρ.file s.file
  limit := s.limit
  ahead := s.ahead.map ρ.scanned
  endLine := ρ.line s.endLine
  ast := ρ.ast s.ast
  errors := s.errors.filterMap ρ.diagnostic?

/-! ### Tokens -/

@[simp]
theorem kind_token (t : Token) : (ρ.token t).kind = t.kind := rfl

theorem textOf_of_other {kind : TokenKind} (h : kind.isNumber = false) (text : String) :
    ρ.textOf kind text = ρ.text text := by
  unfold textOf
  split <;> first | rfl | cases h

theorem textOf_of_texts (text : ρ.text = id) (digits : ρ.digits = id) (points : ρ.points = id)
    (kind : TokenKind) (literal : String) : ρ.textOf kind literal = literal := by
  unfold textOf
  split <;> simp [text, digits, points]

theorem text_token {t : Token} (h : t.kind.isNumber = false) : (ρ.token t).text = ρ.text t.text :=
  ρ.textOf_of_other h _

theorem token_endOfFile (line : UInt32) :
    ρ.token (Token.endOfFile line) = Token.endOfFile (ρ.line line) := by
  simp [token, Token.endOfFile, textOf, ρ.text_empty]

theorem token_missing {kind : TokenKind} (h : kind.isNumber = false) (line : UInt32) :
    ρ.token (Token.missing kind line) = Token.missing kind (ρ.line line) := by
  simp [token, Token.missing, ρ.textOf_of_other h, ρ.text_empty]

/-- A renamed number literal is read to the renamed number. If there is none, the text goes to that of a
literal without a value, whatever its kind. -/
structure Rereads {α : Type} (read? : String → Option α) (make : α → Construct) (t : Token) : Prop where
  made : (read? (ρ.token t).text).map make = (read? t.text).map fun value => ρ.construct (make value)
  text : read? t.text = none → (ρ.token t).text = ρ.digits t.text

section Rereads

variable {ρ} {α : Type} {read? : String → Option α} {make : α → Construct} {t : Token}

theorem Rereads.exists_value {value : α} (h : ρ.Rereads read? make t) (given : read? t.text = some value) :
    ∃ value', read? (ρ.token t).text = some value' ∧ make value' = ρ.construct (make value) := by
  have made := h.made
  rw [given] at made
  exact Option.map_eq_some_iff.1 made

theorem Rereads.eq_none (h : ρ.Rereads read? make t) (given : read? t.text = none) :
    read? (ρ.token t).text = none := by
  have made := h.made
  rw [given] at made
  exact Option.map_eq_none_iff.1 made

end Rereads

theorem rereads_integer {t : Token} (kind : t.kind = .integer) : ρ.Rereads Literal.integer? .integer t := by
  have text : (ρ.token t).text = ρ.digits t.text := by simp [token, kind, textOf]
  refine ⟨?_, fun _ => text⟩
  rw [text, ρ.integer?_digits, Option.map_map]
  rfl

theorem rereads_float {t : Token} (kind : t.kind = .float) : ρ.Rereads Literal.float? .float t := by
  have text : (ρ.token t).text = ρ.points t.text := by simp [token, kind, textOf]
  refine ⟨?_, fun none => text.trans (ρ.points_eq_digits _ none)⟩
  rw [text, ρ.float?_points, Option.map_map]
  rfl

/-! ### Trees -/

theorem children_construct (c : Construct) :
    (ρ.construct c).children = c.children.map ρ.node := by
  cases c <;> simp [construct, Construct.children]
  case identifier name index => cases index <;> rfl
  case returnStmt value => cases value <;> rfl
  case conditional branch condition body next => cases condition <;> cases next <;> rfl

/-- A renaming that keeps texts keeps what is wrong with the syntax. -/
theorem syntaxFault_of_texts (text : ρ.text = id) (digits : ρ.digits = id) (points : ρ.points = id)
    (fault : SyntaxFault) : ρ.syntaxFault fault = fault := by
  cases fault <;> simp [syntaxFault, ρ.textOf_of_texts text digits points, digits]

theorem size_ast (tree : Ast) : (ρ.ast tree).size = ρ.node tree.size := by
  simp [ast, Ast.size, node, Nat.add_comm]

theorem node_mem_map {ids : List NodeId} {id : NodeId} :
    ρ.node id ∈ ids.map ρ.node ↔ id ∈ ids := by
  simp [node]

/-- Where no tree comes before, every node keeps its number. -/
theorem node_of_empty (h : ρ.base = Ast.empty) : ρ.node = id := by
  funext i
  simp [node, h, Ast.size, Ast.empty]

theorem ast_of_empty (h : ρ.base = Ast.empty) (tree : Ast) :
    ρ.ast tree = ⟨tree.nodes.map ρ.entry, tree.roots⟩ := by
  simp [ast, ρ.node_of_empty h, h, Ast.empty]

/-- The nodes of the tree before stay as they are, and the others come behind them. -/
theorem getElem?_nodes_ast (tree : Ast) (id : NodeId) :
    (ρ.ast tree).nodes[id]? =
      if id < ρ.base.size then ρ.base.nodes[id]? else (tree.nodes[id - ρ.base.size]?).map ρ.entry := by
  simp only [ast, Array.getElem?_append, Array.getElem?_map]
  rfl

/-- **Making a node and renaming**, in either order. -/
theorem alloc_ast (tree : Ast) (c : Construct) (t : Token) :
    (ρ.ast tree).alloc (ρ.construct c) (ρ.token t) =
      (ρ.node (tree.alloc c t).1, ρ.ast (tree.alloc c t).2) := by
  have id_eq : (ρ.ast tree).nodes.size = ρ.node tree.nodes.size := ρ.size_ast tree
  have pushed : (ρ.ast tree).nodes.push ⟨ρ.construct c, ρ.token t, none⟩ =
      (ρ.ast { tree with nodes := tree.nodes.push ⟨c, t, none⟩ }).nodes := by
    simp [ast, entry]
  refine Prod.ext id_eq ?_
  show Ast.mk _ _ = Ast.mk _ _
  congr 1
  apply Array.ext_getElem?
  intro id
  rw [Ast.getElem?_adopt, pushed, children_construct, id_eq]
  rw [getElem?_nodes_ast]
  show _ = (ρ.ast (tree.alloc c t).2).nodes[id]?
  rw [getElem?_nodes_ast]
  by_cases old : id < ρ.base.size
  · have untouched : id ∉ c.children.map ρ.node := by
      simp only [List.mem_map, not_exists, not_and, node]
      intro child _
      omega
    simp [old, untouched]
  · obtain ⟨place, rfl⟩ : ∃ place, id = ρ.node place := ⟨id - ρ.base.size, by simp only [node]; omega⟩
    have back : ρ.node place - ρ.base.size = place := Nat.add_sub_cancel _ _
    rw [if_neg old, if_neg old, back]
    simp only [Ast.alloc, Ast.getElem?_adopt, Option.map_map, node_mem_map]
    congr 1
    funext n
    by_cases adopted : place ∈ c.children <;> simp [adopted, entry]

theorem pushRoot_ast (tree : Ast) (id : NodeId) :
    (ρ.ast tree).pushRoot (ρ.node id) = ρ.ast (tree.pushRoot id) := by
  simp [ast, Ast.pushRoot]

/-! ### The steps of a parse -/

theorem state_current (s : State) : (ρ.state s).current = ρ.token s.current := by
  unfold State.current
  cases ahead : s.ahead with
  | nil => simp [state, ahead, State.endToken, token_endOfFile]
  | cons x rest => simp [state, ahead, scanned]

theorem filterMap_noteFault (file : String) (read : Option Scanned) (errors : Array Diagnostic) :
    (State.noteFault file read errors).filterMap ρ.diagnostic? =
      State.noteFault (ρ.file file) (read.map ρ.scanned) (errors.filterMap ρ.diagnostic?) := by
  unfold State.noteFault
  match read with
  | none => rfl
  | some ⟨t, none⟩ => rfl
  | some ⟨t, some fault⟩ =>
    cases renamed : ρ.fault fault <;>
      simp [Scanned.diagnostic?, scanned, diagnostic?, anyFault, renamed, token]

/-- The start of a parse, renamed. -/
theorem state_start (limit : Nat) (source : Source) :
    ρ.state (State.start limit source) =
      let ahead := source.scan.scanned.map ρ.scanned
      { file := ρ.file source.name, limit, ahead, endLine := ρ.line source.scan.endLine
        ast := ρ.ast Ast.empty
        errors := State.noteFault (ρ.file source.name) ahead[1]?
          (State.noteFault (ρ.file source.name) ahead[0]? #[]) } := by
  simp only [state, State.start, filterMap_noteFault, ← List.getElem?_map]
  rfl

/-- **Passing a token and renaming**, in either order. -/
theorem state_advance (s : State) : ρ.state s.advance = (ρ.state s).advance := by
  unfold State.advance
  cases ahead : s.ahead with
  | nil => simp [state, ahead]
  | cons x rest => simp [state, ahead, filterMap_noteFault]

/-- **Recording an error and renaming**, in either order. -/
theorem state_record (s : State) (e : SyntaxError) :
    ρ.state (s.record e) = (ρ.state s).record (ρ.error e) := by
  simp [state, State.record, diagnostic?, anyFault, error]

theorem state_alloc (s : State) (c : Construct) (t : Token) :
    (ρ.state s).alloc (ρ.construct c) (ρ.token t) =
      (ρ.node (s.alloc c t).1, ρ.state (s.alloc c t).2) := by
  have made := ρ.alloc_ast s.ast c t
  have id_eq := congrArg Prod.fst made
  have tree_eq := congrArg Prod.snd made
  simp only [State.alloc, state, id_eq, tree_eq]

theorem state_pushRoot (s : State) (id : NodeId) :
    ρ.state (s.pushRoot id) = (ρ.state s).pushRoot (ρ.node id) := by
  simp only [state, State.pushRoot, pushRoot_ast]

/-! ### Renaming lines only -/

/-- Changes lines and nothing else, and puts the nodes behind those of a tree. -/
def relined (line : UInt32 → UInt32) (base : Ast) : Renaming where
  file := id
  line := line
  text := id
  digits := id
  points := id
  integer := id
  float := id
  fault := some
  base := base
  text_empty := rfl
  integer?_digits _ := Option.map_id_apply.symm
  float?_points _ := Option.map_id_apply.symm
  points_eq_digits _ _ := rfl

section Relined

variable (line : UInt32 → UInt32) (base : Ast)

theorem token_relined (t : Token) :
    (relined line base).token t = { t with line := line t.line } := by
  rw [token, (relined line base).textOf_of_texts rfl rfl rfl]
  rfl

theorem scanned_relined (x : Scanned) :
    (relined line base).scanned x = ⟨{ x.token with line := line x.token.line }, x.fault?⟩ := by
  have kept : x.fault?.bind (relined line base).fault = x.fault? := by
    cases x.fault? <;> rfl
  rw [scanned, token_relined, kept]

theorem diagnostic?_relined (d : Diagnostic) :
    (relined line base).diagnostic? d = some { d with line := line d.line } := by
  obtain ⟨fault, place, file⟩ := d
  cases fault with
  | lexical fault => rfl
  | syntactic fault =>
    simp only [diagnostic?, anyFault, syntaxFault_of_texts (relined line base) rfl rfl rfl, Option.map_some]
    rfl

theorem filterMap_relined (errors : Array Diagnostic) :
    errors.filterMap (relined line base).diagnostic? =
      errors.map fun d => { d with line := line d.line } := by
  rw [funext (diagnostic?_relined line base)]
  simp

end Relined

/-- Changes nothing. -/
def same : Renaming := relined id Ast.empty

theorem token_same (t : Token) : same.token t = t :=
  token_relined id Ast.empty t

theorem node_same : same.node = id :=
  node_of_empty same rfl

theorem error_same (e : SyntaxError) : same.error e = e := by
  rw [error, syntaxFault_of_texts same rfl rfl rfl]
  rfl

theorem construct_same (c : Construct) : same.construct c = c := by
  cases c <;> simp [construct, node_same, token_same] <;> rfl

/-- In two states with the same tree a node is made in the same way. -/
theorem alloc_of_ast_eq {s s' : State} (h : s'.ast = s.ast) (c : Construct) (t : Token) :
    s'.alloc (same.construct c) (same.token t) =
      (same.node (s.alloc c t).1, { s' with ast := (s.alloc c t).2.ast }) := by
  rw [construct_same, token_same, node_same]
  simp only [State.alloc, h, id]

theorem pushRoot_of_ast_eq {s s' : State} (h : s'.ast = s.ast) (id : NodeId) :
    s'.pushRoot (same.node id) = { s' with ast := (s.pushRoot id).ast } := by
  rw [node_same]
  simp only [State.pushRoot, h, id_eq]

end Renaming
end Viper
