/-
# The levels of a parse

Each parser of the language takes the course described in `State.Course`. What it has to show beyond
that is how deep the tree is that it has in hand at the end. The parsers one level further in give
expressions that are at most `h` deep and statements that are at most one deeper (`Inner.Trades`). The
parsers around them add a level of their own: an expression grows by an argument or an index and the
call around it, a statement by a block and the construct around that. So `h` goes up by two with each
level (`Statement.trades_ofRoom`), and an item, with a procedure and a struct around its statements, is at
most four deeper than twice the limit.

Key definitions: `Expression.Inner.Trades`, `Statement.Inner.Trades`.
Key theorems: `Statement.trades_ofRoom`, `Source.course_parseWith`.
-/
import ViperFrontend.Parsed
import ViperFrontend.Proofs.Parser.Course

namespace Viper

open Viper.Parser

namespace DataType

/-- Where no type is, nothing is passed, and the error is that of the token there. -/
theorem ensures_token (s : State) :
    token.Ensures s (fun _ t => t = s.advance) fun e t => t = s ∧ e.MadeAt s.current := by
  apply Attempt.ensures_look_bind
  split
  · exact rfl
  · exact rfl
  · exact ⟨rfl, rfl, nofun⟩

theorem trades_parse {s : State} : parse.Trades s [] fun id => [(id, 0)] := by
  have reads : token.Trades s [] fun _ => [] := by
    apply Attempt.trades_look_bind
    split
    · exact Attempt.trades_lift trades_advance
    · exact Attempt.trades_lift trades_advance
    · exact Attempt.trades_throw ⟨rfl, nofun⟩
  refine reads.bind fun token t => Attempt.trades_lift ?_
  exact trades_alloc token 0 (fun _ => trivial) rfl (by simp)

theorem trades_parseOrInvalid {s : State} : parseOrInvalid.Trades s [] fun id => [(id, 0)] :=
  trades_recover trades_parse

end DataType

namespace Expression

/-- The parsers of a level give trees of at most the depth `h`. -/
structure Inner.Trades (inner : Inner) (h : Nat) : Prop where
  primary : ∀ s, inner.primary.Trades s [] fun id => [(id, h)]
  binary : ∀ s left p, (inner.binary left p).Trades s [(left, h)] fun id => [(id, h)]
  identifier : ∀ s, inner.identifier.Trades s [] fun id => [(id, h)]

variable {inner : Inner} {h : Nat} {s : State}

/-- An operator may be as deep as its left operand. -/
theorem trades_binary (level : inner.Trades h) (left : NodeId) (p : Precedence) {depth : Nat}
    (deeper : h < depth) :
    (binary inner left p).Trades s [(left, depth)] fun id => [(id, depth)] := by
  refine Attempt.trades_advance_bind fun t => ?_
  refine ((level.primary t).over [(left, depth)]).bind fun operand t => ?_
  refine (Attempt.Trades.foldWhile (fun right : NodeId => [(left, depth), (right, h)]) ?_ operand).bind ?_
  · exact fun next right t _ => (level.binary t right next).above [(left, depth)]
  · intro right t
    refine Attempt.trades_lift (trades_alloc s.current depth (fun _ => trivial) rfl ?_)
    simp [Construct.Covers, Construct.continues, deeper]

theorem trades_parse (level : inner.Trades h) :
    (parse inner).Trades s [] fun id => [(id, h + 1)] := by
  refine ((level.primary s).widen (Nat.le_succ h)).bind fun operand t => ?_
  refine Attempt.Trades.foldWhile (fun left : NodeId => [(left, h + 1)]) ?_ operand
  exact fun p left t _ => trades_binary level left p (Nat.lt_succ_self h)

theorem trades_parseOrInvalid (level : inner.Trades h) :
    (parseOrInvalid inner).Trades s [] fun id => [(id, h + 1)] :=
  trades_recover (trades_parse level)

/-! ### Operands -/

theorem trades_prefixed (level : inner.Trades h) :
    (prefixed inner).Trades s [] fun id => [(id, h + 1)] := by
  refine Attempt.trades_advance_bind fun t => ?_
  refine (level.primary t).bind fun operand t => ?_
  exact Attempt.trades_lift (trades_node s.current (fun _ => trivial) rfl (by simp))

/-- What is made of one token alone. -/
theorem trades_leaf {construct : Token → Construct}
    (leaf : ∀ token (origin : State), origin.Makes token (construct token) ∧
      (construct token).children = []) (depth : Nat) :
    (do let token ← advance; alloc (construct token) token : Parser NodeId).Trades s []
      fun id => [(id, depth)] :=
  trades_advance.bind fun token _ => trades_node token (fun origin => (leaf token origin).1)
    (leaf token s).2 (by simp)

/-- A literal without a value is an error at its own token, which has been passed. -/
theorem trades_numeral {α : Type} {read? : String → Option α} {make : α → Construct}
    (leaf : ∀ value, (make value).children = [])
    (makes : ∀ value, read? s.current.text = some value → ∀ origin : State, origin.Reaches s →
      origin.Makes s.current (make value))
    (valueless : read? s.current.text = none → s.current.Valueless) (depth : Nat) :
    (numeral read? make).Trades s [] fun id => [(id, depth)] := by
  intro origin items kept stage
  unfold Attempt.Ensures Ensures
  cases given : read? s.current.text with
  | some value =>
    rw [numeral_of_some given]
    have made := makes value given origin stage.course.reaches
    exact State.Stage.alloc s.current stage.advance made (Construct.takes_of_eq (leaf value)) (by simp)
  | none =>
    rw [numeral_of_none given]
    have tooLarge : SyntaxError.MadeAt ⟨.numberTooLarge s.current.text, s.current.line⟩ s.current :=
      ⟨rfl, fun _ _ => valueless given⟩
    exact ⟨⟨s, _, stage.course, tooLarge, .advance .refl, fun _ => ⟨1, rfl⟩⟩, [], stage.advance⟩

theorem trades_integer (here : s.current.kind = .integer) (depth : Nat) :
    integer.Trades s [] fun id => [(id, depth)] := by
  refine trades_numeral (fun _ => rfl) ?_ (fun none => .inl ⟨here, none⟩) depth
  exact fun value given origin reached => ⟨s, reached, rfl, here, given⟩

theorem trades_float (here : s.current.kind = .float) (depth : Nat) :
    float.Trades s [] fun id => [(id, depth)] := by
  refine trades_numeral (fun _ => rfl) ?_ (fun none => .inr ⟨here, none⟩) depth
  exact fun value given origin reached => ⟨s, reached, rfl, here, given⟩

theorem trades_grouping (level : inner.Trades h) :
    (grouping inner).Trades s [] fun id => [(id, h + 1)] := by
  refine (Attempt.trades_lift trades_advance).bind fun _ t => ?_
  refine (trades_parse level).bind fun expr t => ?_
  refine (Attempt.trades_lift (trades_eat .closeParen)).bind fun _ t => ?_
  exact Attempt.trades_pure rfl

theorem trades_call (level : inner.Trades h) :
    (call inner).Trades s [] fun id => [(id, h + 2)] := by
  refine trades_advance.bind fun callee t => trades_advance.bind fun _ t => ?_
  refine (trades_commaList fun t => trades_parseOrInvalid level).bind fun arguments t => ?_
  refine (trades_eat .closeParen).bind fun _ t => ?_
  refine trades_node callee (fun _ => trivial) (map_eachWithin _ _).symm ?_
  exact fun part mem => lt_of_mem_eachWithin mem (Nat.lt_succ_self _)

theorem trades_indexed (level : inner.Trades h) :
    (indexed inner).Trades s [] fun id => [(id, h + 2)] := by
  refine trades_advance.bind fun name t => trades_advance.bind fun _ t => ?_
  refine (trades_parseOrInvalid level).bind fun index t => ?_
  refine (trades_eat .closeBracket).bind fun _ t => ?_
  exact trades_node name (fun _ => trivial) rfl (by simp)

theorem trades_member (level : inner.Trades h) :
    (member inner).Trades s [] fun id => [(id, h + 1)] := by
  refine (Attempt.trades_lift trades_advance).bind fun name t => ?_
  have plain : (alloc (.identifier name.text none) name).Trades t [] fun id => [(id, 0)] :=
    trades_node name (fun _ => trivial) rfl (by simp)
  refine (Attempt.trades_lift plain).bind fun object t => ?_
  refine (Attempt.trades_lift trades_advance).bind fun dot t => ?_
  apply Attempt.trades_look_bind
  split
  · refine ((level.identifier t).over [(object, 0)]).bind fun field t => ?_
    exact Attempt.trades_lift (trades_node dot (fun _ => trivial) rfl (by simp))
  · exact Attempt.trades_throw ⟨rfl, nofun⟩

theorem trades_identifier (level : inner.Trades h) :
    (identifier inner).Trades s [] fun id => [(id, h + 2)] := by
  apply Attempt.trades_look_bind
  split
  · exact Attempt.trades_lift (trades_call level)
  · exact Attempt.trades_lift (trades_indexed level)
  · exact (trades_member level).widen (Nat.le_succ _)
  · exact Attempt.trades_lift (trades_leaf (by simp [State.Makes, Construct.children]) _)

theorem trades_primary (level : inner.Trades h) :
    (primary inner).Trades s [] fun id => [(id, h + 2)] := by
  have prefixOperator : (prefixed inner).Trades s [] fun id => [(id, h + 2)] :=
    (trades_prefixed level).widen (Nat.le_succ _)
  apply Attempt.trades_look_bind
  split
  · exact prefixOperator
  · exact prefixOperator
  · exact prefixOperator
  · exact Attempt.trades_lift (trades_leaf (by simp [State.Makes, Construct.children]) _)
  · exact Attempt.trades_lift (trades_leaf (by simp [State.Makes, Construct.children]) _)
  · exact trades_integer ‹_› _
  · exact trades_float ‹_› _
  · exact Attempt.trades_lift (trades_leaf (by simp [State.Makes, Construct.children]) _)
  · exact trades_identifier level
  · exact (trades_grouping level).widen (Nat.le_succ _)
  · exact Attempt.trades_throw ⟨rfl, nofun⟩

theorem trades_refusing : Inner.refusing.Trades h where
  primary _ := trades_tooDeep
  binary _ _ _ := trades_tooDeep
  identifier _ := trades_tooDeep

theorem trades_around (level : inner.Trades h) : (Inner.around inner).Trades (h + 2) where
  primary _ := trades_primary level
  binary _ left p := trades_binary level left p (Nat.lt_add_of_pos_right (by decide))
  identifier _ := trades_identifier level

end Expression

namespace Statement

/-- The parsers of a level give expressions of at most the depth `h`, and statements that are at most
one deeper. -/
structure Inner.Trades (inner : Inner) (h : Nat) : Prop where
  exprs : inner.exprs.Trades h
  statement : ∀ s, inner.statement.Trades s [] fun id => [(id, h + 1)]
  conditional : ∀ s branch, (inner.conditional branch).Trades s [] fun id => [(id, h + 1)]

variable {inner : Inner} {h : Nat} {s : State}

theorem trades_expression (level : inner.Trades h) :
    (expression inner).Trades s [] fun id => [(id, h + 2)] := by
  apply trades_look_bind
  refine (Expression.trades_parseOrInvalid level.exprs).bind fun expr t => ?_
  exact trades_node s.current (fun _ => trivial) rfl (by simp)

theorem trades_varDecl (level : inner.Trades h) :
    (varDecl inner).Trades s [] fun id => [(id, h + 2)] := by
  refine trades_advance.bind fun start t => ?_
  refine (trades_eat .identifier).bind fun name t => (trades_eat .colon).bind fun _ t => ?_
  refine DataType.trades_parseOrInvalid.bind fun type t => (trades_eat .assignment).bind fun _ t => ?_
  refine ((Expression.trades_parseOrInvalid level.exprs).over _).bind fun value t => ?_
  refine (trades_eat .semicolon).bind fun _ t => ?_
  exact trades_node start (fun _ => trivial) rfl (by simp)

theorem trades_returnValue (level : inner.Trades h) :
    (returnValue inner).Trades s [] fun value => eachWithin (h + 1) value.toList := by
  apply trades_look_bind
  split
  · exact trades_pure rfl
  · exact (Expression.trades_parseOrInvalid level.exprs).bind fun value _ => trades_pure rfl

theorem trades_returnStmt (level : inner.Trades h) :
    (returnStmt inner).Trades s [] fun id => [(id, h + 2)] := by
  refine trades_advance.bind fun start t => (trades_returnValue level).bind fun value t => ?_
  refine (trades_eat .semicolon).bind fun _ t => ?_
  refine trades_node start (fun _ => trivial) (map_eachWithin _ _).symm ?_
  exact fun part mem => lt_of_mem_eachWithin mem (Nat.lt_succ_self _)

theorem trades_statements (level : inner.Trades h) :
    (statements inner).Trades s [] fun body => eachWithin (h + 1) body.toList := by
  refine Trades.foldWhile (fun body : Array NodeId => eachWithin (h + 1) body.toList) ?_ #[]
  intro _ body t _
  refine ((trades_recover (level.statement t)).over _).bind fun id t => ?_
  exact trades_pure (eachWithin_push _ body id).symm

theorem trades_block (level : inner.Trades h) :
    (block inner).Trades s [] fun id => [(id, h + 2)] := by
  apply Attempt.trades_look_bind
  split
  · refine (Attempt.trades_lift trades_advance).bind fun _ t => ?_
    refine (Attempt.trades_lift (trades_statements level)).bind fun body t => ?_
    refine (Attempt.trades_lift (trades_eat .closeCurly)).bind fun _ t => ?_
    refine Attempt.trades_lift (trades_node s.current (fun _ => trivial) (map_eachWithin _ _).symm ?_)
    exact fun part mem => lt_of_mem_eachWithin mem (Nat.lt_succ_self _)
  · exact Attempt.trades_throw ⟨rfl, nofun⟩

theorem trades_blockOrInvalid (level : inner.Trades h) :
    (blockOrInvalid inner).Trades s [] fun id => [(id, h + 2)] :=
  trades_recover (trades_block level)

/-! ### Conditionals and loops -/

theorem trades_condition (level : inner.Trades h) (branch : Branch) :
    (condition inner branch).Trades s [] fun value => eachWithin (h + 1) value.toList := by
  cases branch with
  | ifBranch | elifBranch =>
    exact (Expression.trades_parseOrInvalid level.exprs).bind fun expr _ => trades_pure rfl
  | elseBranch => exact trades_pure rfl

theorem trades_nextLink (level : inner.Trades h) (branch : Branch) :
    (nextLink inner branch).Trades s [] fun link => eachWithin (h + 1) link.toList := by
  apply Attempt.trades_look_bind
  split
  · exact Attempt.trades_pure rfl
  · exact (level.conditional s .elifBranch).bind fun link _ => Attempt.trades_pure rfl
  · exact (level.conditional s .elseBranch).bind fun link _ => Attempt.trades_pure rfl
  · exact Attempt.trades_pure rfl

theorem trades_conditional (level : inner.Trades h) (branch : Branch) :
    (conditional inner branch).Trades s [] fun id => [(id, h + 3)] := by
  refine (Attempt.trades_lift trades_advance).bind fun start t => ?_
  refine (Attempt.trades_lift (trades_condition level branch)).bind fun value t => ?_
  refine ((Attempt.trades_lift (trades_blockOrInvalid level)).over _).bind fun body t => ?_
  refine ((trades_nextLink level branch).over _).bind fun next t => ?_
  refine Attempt.trades_lift (trades_node start (fun _ => trivial) ?_ ?_)
  · simp [Construct.children]
  · intro part mem
    rcases List.mem_append.1 mem with mem | inNext
    · rcases List.mem_append.1 mem with inCondition | inBody
      · exact lt_of_mem_eachWithin inCondition (by omega)
      · cases List.mem_singleton.1 inBody
        exact Nat.lt_succ_self _
    · exact lt_of_mem_eachWithin inNext (by omega)

/-- A clause that follows no `if` is parsed and thrown away. -/
theorem trades_dangling (level : inner.Trades h) {made : NodeId → List (NodeId × Nat)} :
    (dangling inner).Trades s [] made := by
  apply Attempt.trades_look_bind
  exact Attempt.trades_bind_throw (trades_conditional level _) ⟨rfl, nofun⟩ nofun

theorem trades_whileLoop (level : inner.Trades h) :
    (whileLoop inner).Trades s [] fun id => [(id, h + 3)] := by
  refine trades_advance.bind fun start t => ?_
  refine (Expression.trades_parseOrInvalid level.exprs).bind fun condition t => ?_
  refine ((trades_blockOrInvalid level).over _).bind fun body t => ?_
  exact trades_node start (fun _ => trivial) rfl (by simp)

theorem trades_doWhileLoop (level : inner.Trades h) :
    (doWhileLoop inner).Trades s [] fun id => [(id, h + 3)] := by
  refine trades_advance.bind fun start t => ?_
  refine (trades_blockOrInvalid level).bind fun body t => (trades_eat .kwWhile).bind fun _ t => ?_
  refine ((Expression.trades_parseOrInvalid level.exprs).over _).bind fun condition t => ?_
  refine (trades_eat .semicolon).bind fun _ t => ?_
  exact trades_node start (fun _ => trivial) rfl (by simp)

theorem trades_terminated (level : inner.Trades h) :
    (terminated inner).Trades s [] fun id => [(id, h + 2)] :=
  (trades_expression level).bind fun _ _ => (trades_eat .semicolon).bind fun _ _ => trades_pure rfl

theorem trades_straight (level : inner.Trades h) :
    (straight inner).Trades s [] fun id => [(id, h + 3)] := by
  apply Attempt.trades_look_bind
  split
  · exact Attempt.trades_lift ((trades_varDecl level).widen (Nat.le_succ _))
  · exact Attempt.trades_lift ((trades_returnStmt level).widen (Nat.le_succ _))
  · exact trades_conditional level .ifBranch
  · exact trades_dangling level
  · exact Attempt.trades_lift (trades_whileLoop level)
  · exact Attempt.trades_lift (trades_doWhileLoop level)
  · exact (trades_block level).widen (Nat.le_succ _)
  · exact Attempt.trades_lift ((trades_terminated level).widen (Nat.le_succ _))

theorem trades_forOpening : forOpening.Trades s [] fun _ => [] :=
  trades_advance.bind fun _ _ => (trades_eat .openParen).bind fun _ _ => trades_pure rfl

/-- A `for` may be as deep as its initializer. -/
theorem trades_forClosing (level : inner.Trades h) (start : Token) (init : NodeId) :
    (forClosing inner start init).Trades s [(init, h + 3)] fun id => [(id, h + 3)] := by
  refine ((Expression.trades_parseOrInvalid level.exprs).over _).bind fun condition t => ?_
  refine (trades_eat .semicolon).bind fun _ t => ?_
  refine ((trades_expression level).over _).bind fun action t => ?_
  refine (trades_eat .closeParen).bind fun _ t => ?_
  refine ((trades_blockOrInvalid level).over _).bind fun body t => ?_
  refine trades_alloc start _ (fun _ => trivial) rfl ?_
  simp [Construct.Covers, Construct.continues]

theorem trades_parse_of (level : inner.Trades h)
    (loops : s.current.kind.form? = some .forLoop → (forLoop inner).Trades s [] fun id => [(id, h + 3)]) :
    (parse inner).Trades s [] fun id => [(id, h + 3)] := by
  apply Attempt.trades_look_bind
  split
  · exact Attempt.trades_lift (loops ‹_›)
  · exact trades_straight level

/-- A `for` in the initializer of a `for` stands behind a token more. -/
theorem trades_forLoop (level : inner.Trades h) (s : State) :
    (forLoop inner).Trades s [] fun id => [(id, h + 3)] := by
  rw [forLoop_eq]
  refine trades_forOpening.bind_run ?_
  refine (trades_recover (trades_parse_of level ?_)).bind fun init t =>
    trades_forClosing level _ init
  exact fun isFor => trades_forLoop level (forOpening.run s).2
termination_by s.ahead.length
decreasing_by exact moves_forOpening isFor

theorem trades_parse (level : inner.Trades h) :
    (parse inner).Trades s [] fun id => [(id, h + 3)] :=
  trades_parse_of level fun _ => trades_forLoop level s

theorem trades_refusing : Inner.refusing.Trades h where
  exprs := Expression.trades_refusing
  statement _ := trades_tooDeep
  conditional _ _ := trades_tooDeep

theorem trades_around (level : inner.Trades h) : (Inner.around inner).Trades (h + 2) where
  exprs := Expression.trades_around level.exprs
  statement _ := trades_parse level
  conditional _ branch := trades_conditional level branch

/-- **Each level adds two to the depth** of statements and of the expressions in them. -/
theorem trades_ofRoom {room h : Nat} (le : 2 * room ≤ h) : (Inner.ofRoom room).Trades h := by
  induction room generalizing h with
  | zero => exact trades_refusing
  | succ room ih =>
    obtain ⟨below, rfl⟩ : ∃ below, h = below + 2 := ⟨h - 2, by omega⟩
    exact trades_around (ih (by omega))

end Statement

namespace Item

open Statement (Inner)

variable {inner : Inner} {h : Nat} {s : State}

theorem trades_parameter : parameter.Trades s [] fun id => [(id, 0)] := by
  refine (trades_eat .identifier).bind fun name t => (trades_eat .colon).bind fun _ t => ?_
  have made : ∀ type u, (alloc (.procParameter name.text type) name).Trades u []
      fun id => [(id, 0)] := fun type u => trades_node name (fun _ => trivial) rfl (by simp)
  intro origin items kept stage
  refine Ensures.bind (DataType.ensures_token t) fun r u _ read => ?_
  cases r with
  | ok type =>
    obtain rfl : u = t.advance := read
    exact made type _ origin items kept stage.advance
  | error e =>
    obtain ⟨rfl, here⟩ := read
    exact (trades_look_bind ((trades_record here).bind fun _ u => made _ u)) origin items kept stage

theorem trades_procedure (level : inner.Trades h) :
    (procedure inner).Trades s [] fun id => [(id, h + 3)] := by
  refine trades_advance.bind fun start t => ?_
  refine (trades_eat .identifier).bind fun name t => (trades_eat .openParen).bind fun _ t => ?_
  refine (trades_commaList fun t => trades_parameter).bind fun parameters t => ?_
  refine (trades_eat .closeParen).bind fun _ t => (trades_eat .colon).bind fun _ t => ?_
  refine (DataType.trades_parseOrInvalid.over _).bind fun type t => ?_
  refine ((Statement.trades_blockOrInvalid level).over _).bind fun body t => ?_
  refine trades_node start (fun _ => trivial) (by simp [Construct.children]) ?_
  intro part mem
  rcases List.mem_append.1 mem with mem | inBody
  · rcases List.mem_append.1 mem with inParameters | inType
    · exact lt_of_mem_eachWithin inParameters (by omega)
    · cases List.mem_singleton.1 inType
      exact Nat.succ_pos _
  · cases List.mem_singleton.1 inBody
    exact Nat.lt_succ_self _

theorem trades_field : field.Trades s [] fun id => [(id, 1)] := by
  refine trades_advance.bind fun name t => (trades_eat .doubleColon).bind fun _ t => ?_
  refine DataType.trades_parseOrInvalid.bind fun type t => ?_
  refine (trades_eat .semicolon).bind fun _ t => ?_
  exact trades_node name (fun _ => trivial) rfl (by simp)

/-- The members are the given nodes. The fields are in the order of these, and so are the methods. -/
structure Members.Among (members : Members) (ids : List NodeId) : Prop where
  perm : (members.fields.toList ++ members.methods.toList).Perm ids
  fields : members.fields.toList.Sublist ids
  methods : members.methods.toList.Sublist ids

theorem Members.Among.field {members : Members} {ids : List NodeId} (h : members.Among ids)
    (id : NodeId) : Members.Among { members with fields := members.fields.push id } (ids ++ [id]) where
  perm := by
    rw [Array.toList_push, List.append_assoc]
    refine (List.perm_append_comm.append_left _).trans ?_
    rw [← List.append_assoc]
    exact h.perm.append_right [id]
  fields := by
    rw [Array.toList_push]
    exact h.fields.append_right [id]
  methods := h.methods.trans (List.sublist_append_left ids [id])

theorem Members.Among.method {members : Members} {ids : List NodeId} (h : members.Among ids)
    (id : NodeId) : Members.Among { members with methods := members.methods.push id } (ids ++ [id]) where
  perm := by
    rw [Array.toList_push, ← List.append_assoc]
    exact h.perm.append_right [id]
  fields := h.fields.trans (List.sublist_append_left ids [id])
  methods := by
    rw [Array.toList_push]
    exact h.methods.append_right [id]

/-- The members of a struct are in hand in the order in which they were made, which need not be fields
first. -/
def Members.InHand (members : Members) (h : Nat) (origin : State) (items : Array NodeId)
    (kept : List (NodeId × Nat)) (t : State) : Prop :=
  ∃ ids, State.Stage origin items t (kept ++ eachWithin (h + 3) ids) ∧ members.Among ids

theorem inHand_memberRound (level : inner.Trades h) {token : Token}
    (here : Statement.beforeBoundary? s = some token) {members : Members}
    {origin : State} {items : Array NodeId} {kept : List (NodeId × Nat)}
    (held : members.InHand h origin items kept s) :
    (memberRound inner token members).Ensures s fun members t =>
      members.InHand h origin items kept t := by
  obtain ⟨ids, stage, order⟩ := held
  obtain rfl : s.current = token := Statement.current_of_beforeBoundary? here
  have method : (do
      let id ← procedure inner
      return { members with methods := members.methods.push id } : Parser Members).Ensures s
        fun members t => members.InHand h origin items kept t := by
    refine Ensures.bind
      ((trades_procedure level).over (eachWithin (h + 3) ids) origin items kept stage) ?_
    intro id t _ stage
    exact ⟨ids ++ [id], by simpa [eachWithin] using stage, order.method id⟩
  unfold memberRound
  split
  · have made := (trades_field (s := s)).widen (Nat.succ_le_succ (Nat.zero_le (h + 2)))
    refine Ensures.bind (made.over (eachWithin (h + 3) ids) origin items kept stage) ?_
    intro id t _ stage
    exact ⟨ids ++ [id], by simpa [eachWithin] using stage, order.field id⟩
  · exact method
  · exact method
  · have here : SyntaxError.MadeAt ⟨.expectedStructMember s.current.kind s.current.text,
        s.current.line⟩ s.current := ⟨rfl, by simp⟩
    exact ⟨ids, (stage.record 0 here).advance, order⟩

theorem trades_struct (level : inner.Trades h) :
    (struct inner).Trades s [] fun id => [(id, h + 4)] := by
  refine trades_advance.bind fun start t => ?_
  refine (trades_eat .identifier).bind fun name t => (trades_eat .openCurly).bind fun _ t => ?_
  intro origin items kept stage
  have members : (members inner).Ensures t fun members t => members.InHand h origin items kept t := by
    refine (Ensures.foldWhile (fun members t => members.InHand h origin items kept t) ?_ ?_).imp ?_
    · exact ⟨[], stage, .refl _, .refl _, .refl _⟩
    · exact fun token members t given held => inHand_memberRound level given held
    · exact fun _ _ _ both => both.1
  refine members.bind ?_
  rintro members t _ ⟨ids, stage, order⟩
  refine (trades_eat .closeCurly).bind (fun _ t => ?_) origin items kept stage
  refine trades_alloc start _ (fun _ => trivial) ?_ ?_
  · rw [map_eachWithin]
    exact ⟨order.perm, order.fields, order.methods⟩
  · exact fun part mem => .inl (lt_of_mem_eachWithin mem (Nat.lt_succ_self _))

theorem trades_ofToken? (level : inner.Trades h) {token : Token} {item : Parser NodeId}
    (starts : ofToken? inner token = some item) : item.Trades s [] fun id => [(id, h + 4)] := by
  unfold ofToken? at starts
  split at starts <;> cases starts
  · exact (trades_procedure level).widen (Nat.le_succ _)
  · exact (trades_procedure level).widen (Nat.le_succ _)
  · exact trades_struct level
  · exact (Statement.trades_varDecl level).widen (Nat.le_add_right _ 2)

/-- Between items nothing is in hand. -/
theorem course_programRound {origin : State} (level : inner.Trades (2 * origin.limit))
    {token : Token} (here : beforeEnd? s = some token) (skipping : Bool)
    (course : State.Course origin s []) :
    (programRound inner token skipping).Ensures s fun _ t => State.Course origin t [] := by
  obtain rfl : s.current = token := (current_of_beforeEnd? here).1
  unfold programRound
  split
  · rename_i item starts
    refine ((trades_ofToken? level starts) origin _ [] ⟨course, rfl⟩).bind fun id t _ made => ?_
    refine State.Course.pushRoot ?_
    rw [made.course.reaches.limit_eq]
    exact made.course
  · cases skipping with
    | true => exact course.advance
    | false =>
      have here : SyntaxError.MadeAt ⟨.expectedTopLevelItem s.current.kind s.current.text,
        s.current.line⟩ s.current := ⟨rfl, by simp⟩
      exact (course.record 0 here).advance

theorem course_program (level : inner.Trades (2 * s.limit)) :
    (program inner).Ensures s fun _ t => State.Course s t [] := by
  refine Ensures.bind (Ensures.foldWhile (fun _ t => State.Course s t []) .start ?_) ?_
  · exact fun token skipping t given course => course_programRound level given skipping course
  · exact fun _ _ _ both => both.1

end Item

/-- **Every parse takes its course**, with nothing in hand at its end. -/
theorem Source.course_parseWith (limit : Nat) (source : Source) :
    ∃ last, source.parseWith limit = .ofState last ∧ last.limit = limit ∧
      State.Course (State.start limit source) last [] := by
  have level := Statement.trades_ofRoom (Nat.le_refl (2 * limit))
  have course := Item.course_program (s := State.start limit source) level
  exact ⟨_, rfl, State.Course.reaches course |>.limit_eq, course⟩

end Viper
