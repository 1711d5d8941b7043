/-
# Every construct is built in order

Each parser of the language keeps the discipline of `Building`: the parsers of expressions
turn nothing into an expression, those of statements into a statement, and so on, at every
depth of nesting and on every list of tokens. So whatever the source, the tree of its parse is
a forest (`Source.parse_forest`) and each slot in it is filled with a node of the sort it asks
for (`Source.parse_slots`), the nodes that recovery threw away included.

Key theorems: `Statement.builds_ofRoom`, `Item.open_program`, `Source.parse_slots`,
`Source.parse_forest`.
-/
import ViperFrontend.Parsed
import ViperFrontend.Proofs.Parser.Building

namespace Viper

open Viper.Parser Construct

namespace DataType

theorem turns_token {s : State} {used : List (NodeId × Role)} :
    token.Turns s used fun _ => used := by
  apply Attempt.turns_look_bind
  split
  · exact Attempt.turns_lift turns_advance
  · exact Attempt.turns_lift turns_advance
  · exact Attempt.turns_throw _

theorem turns_parse {s : State} : parse.Turns s [] fun id => [(id, isDataType)] := by
  refine turns_token.bind fun token _ => Attempt.turns_lift ?_
  exact turns_alloc token _ (.refl _) (fun _ => trivial) rfl

theorem turns_parseOrInvalid {s : State} :
    parseOrInvalid.Turns s [] fun id => [(id, Role.orInvalid isDataType)] :=
  turns_recover turns_parse

end DataType

namespace Expression

/-- What the parsers of a level have to do for the level around it. -/
structure Inner.Builds (inner : Inner) : Prop where
  primary : ∀ s, inner.primary.Turns s [] fun id => [(id, isExpression)]
  binary : ∀ s left p, (operator? s).isSome = true →
    (inner.binary left p).Turns s [(left, isExpression)] fun id => [(id, isExpression)]
  identifier : ∀ s, inner.identifier.Turns s [] fun id => [(id, isNamed)]

variable {inner : Inner} {s : State}

theorem turns_binary (h : inner.Builds) (left : NodeId) (p : Precedence)
    (operator : (operator? s).isSome = true) :
    (binary inner left p).Turns s [(left, isExpression)] fun id => [(id, isExpression)] := by
  refine Attempt.turns_advance_bind fun t => ?_
  refine ((h.primary t).over [(left, isExpression)]).bind fun operand t => ?_
  refine (Attempt.Turns.foldWhile
    (fun right : NodeId => [(left, isExpression), (right, isExpression)]) ?_ operand).bind ?_
  · intro next right t given
    have found : (operator? t).isSome = true := by
      rw [(Option.filter_eq_some_iff.1 given).1]
      rfl
    exact (h.binary t right next found).above [(left, isExpression)]
  · intro right t
    refine Attempt.turns_lift (turns_alloc s.current _ (.refl _) ?_ rfl)
    intro plays
    exact ⟨plays (left, isExpression) (by simp), operator, plays (right, isExpression) (by simp)⟩

theorem turns_parse (h : inner.Builds) :
    (parse inner).Turns s [] fun id => [(id, isExpression)] := by
  refine (h.primary s).bind fun operand t => ?_
  refine Attempt.Turns.foldWhile (fun left : NodeId => [(left, isExpression)]) ?_ operand
  intro p left t given
  exact turns_binary h left p (by rw [given]; rfl)

theorem turns_parseOrInvalid (h : inner.Builds) :
    (parseOrInvalid inner).Turns s [] fun id => [(id, Role.orInvalid isExpression)] :=
  turns_recover (turns_parse h)

theorem turns_prefixed (h : inner.Builds) (operator : s.current.kind.isPrefixOperator = true) :
    (prefixed inner).Turns s [] fun id => [(id, isExpression)] := by
  refine Attempt.turns_advance_bind fun t => ?_
  refine (h.primary t).bind fun operand t => ?_
  refine Attempt.turns_lift (turns_alloc s.current _ (.refl _) ?_ rfl)
  exact fun plays => ⟨operator, plays (operand, isExpression) (by simp)⟩

theorem turns_boolean : boolean.Turns s [] fun id => [(id, isExpression)] :=
  turns_advance.bind fun token _ => turns_alloc token _ (.refl _) (fun _ => trivial) rfl

theorem turns_numeral {α : Type} {read? : String → Option α} {make : α → Construct}
    (leaf : ∀ value, (make value).children = []) (filled : ∀ value ast, (make value).Slots ast)
    (plays : ∀ value, isExpression (make value) = true) :
    (numeral read? make).Turns s [] fun id => [(id, isExpression)] := by
  refine Attempt.turns_advance_bind fun t => ?_
  split
  · rename_i value _
    have parts : (make value).children.Perm [] := leaf value ▸ .refl _
    exact Attempt.turns_lift (turns_alloc _ _ parts (fun _ => filled value _) (plays value))
  · exact Attempt.turns_throw _

theorem turns_string : string.Turns s [] fun id => [(id, isExpression)] :=
  turns_advance.bind fun token _ => turns_alloc token _ (.refl _) (fun _ => trivial) rfl

theorem turns_grouping (h : inner.Builds) :
    (grouping inner).Turns s [] fun id => [(id, isExpression)] := by
  refine (Attempt.turns_lift turns_advance).bind fun _ t => ?_
  refine (turns_parse h).bind fun expr t => ?_
  refine (Attempt.turns_lift (turns_eat .closeParen)).bind fun _ t => ?_
  exact Attempt.turns_pure rfl

theorem turns_call (h : inner.Builds) : (call inner).Turns s [] fun id => [(id, isNamed)] := by
  refine turns_advance.bind fun callee t => turns_advance.bind fun _ t => ?_
  refine (turns_commaList fun t => turns_parseOrInvalid h).bind fun arguments t => ?_
  refine (turns_eat .closeParen).bind fun _ t => ?_
  refine turns_alloc callee _ (by rw [Role.map_each]; rfl) ?_ rfl
  exact fun plays id mem => plays (id, Role.orInvalid isExpression) (by simpa [Role.each] using mem)

theorem turns_indexed (h : inner.Builds) :
    (indexed inner).Turns s [] fun id => [(id, isNamed)] := by
  refine turns_advance.bind fun name t => turns_advance.bind fun _ t => ?_
  refine (turns_parseOrInvalid h).bind fun index t => ?_
  refine (turns_eat .closeBracket).bind fun _ t => ?_
  refine turns_alloc name _ (.refl _) ?_ rfl
  intro plays id mem
  cases mem
  exact plays (index, Role.orInvalid isExpression) (by simp)

theorem turns_member (h : inner.Builds) :
    (member inner).Turns s [] fun id => [(id, isNamed)] := by
  refine (Attempt.turns_lift turns_advance).bind fun name t => ?_
  refine (Attempt.turns_lift (turns_alloc name isPlainName (.refl _) ?_ rfl)).bind fun object t => ?_
  · intro _ id mem
    cases mem
  refine (Attempt.turns_lift turns_advance).bind fun dot t => ?_
  apply Attempt.turns_look_bind
  split
  · refine ((h.identifier t).over [(object, isPlainName)]).bind fun field t => ?_
    refine Attempt.turns_lift (turns_alloc dot _ (.refl _) ?_ rfl)
    exact fun plays => ⟨plays (object, isPlainName) (by simp), plays (field, isNamed) (by simp)⟩
  · exact Attempt.turns_throw _

theorem turns_name : name.Turns s [] fun id => [(id, isNamed)] := by
  refine turns_advance.bind fun token _ => turns_alloc token _ (.refl _) ?_ rfl
  intro _ id mem
  cases mem

theorem turns_identifier (h : inner.Builds) :
    (identifier inner).Turns s [] fun id => [(id, isNamed)] := by
  apply Attempt.turns_look_bind
  split
  · exact Attempt.turns_lift (turns_call h)
  · exact Attempt.turns_lift (turns_indexed h)
  · exact turns_member h
  · exact Attempt.turns_lift turns_name

theorem turns_primary (h : inner.Builds) :
    (primary inner).Turns s [] fun id => [(id, isExpression)] := by
  apply Attempt.turns_look_bind
  split
  · exact turns_prefixed h (by rename_i kind; rw [kind]; rfl)
  · exact turns_prefixed h (by rename_i kind; rw [kind]; rfl)
  · exact turns_prefixed h (by rename_i kind; rw [kind]; rfl)
  · exact Attempt.turns_lift turns_boolean
  · exact Attempt.turns_lift turns_boolean
  · exact turns_numeral (fun _ => rfl) (fun _ _ => trivial) fun _ => rfl
  · exact turns_numeral (fun _ => rfl) (fun _ _ => trivial) fun _ => rfl
  · exact Attempt.turns_lift turns_string
  · exact (turns_identifier h).weaken fun construct named => by
      cases construct <;> simp_all [isNamed, isExpression]
  · exact turns_grouping h
  · exact Attempt.turns_throw _

theorem builds_refusing : Inner.refusing.Builds where
  primary _ := turns_tooDeep
  binary _ _ _ _ := turns_tooDeep
  identifier _ := turns_tooDeep

theorem builds_around (h : inner.Builds) : (Inner.around inner).Builds where
  primary _ := turns_primary h
  binary _ left p operator := turns_binary h left p operator
  identifier _ := turns_identifier h

end Expression

namespace Statement

/-- What the parsers of a level have to do for the level around it. -/
structure Inner.Builds (inner : Inner) : Prop where
  exprs : inner.exprs.Builds
  statement : ∀ s, inner.statement.Turns s [] fun id => [(id, isStatement)]
  conditional : ∀ s branch, (inner.conditional branch).Turns s [] fun id => [(id, isLinkOf branch)]

variable {inner : Inner} {s : State}

theorem turns_expression (h : inner.Builds) :
    (expression inner).Turns s [] fun id => [(id, isExprStmt)] := by
  apply turns_current_bind
  refine (Expression.turns_parseOrInvalid h.exprs).bind fun expr t => ?_
  refine turns_alloc s.current _ (.refl _) ?_ rfl
  exact fun plays => plays (expr, Role.orInvalid isExpression) (by simp)

theorem turns_varDecl (h : inner.Builds) (role : Role)
    (plays : ∀ name type value, role (.varDecl name type value) = true) :
    (varDecl inner).Turns s [] fun id => [(id, role)] := by
  refine turns_advance.bind fun start t => ?_
  refine (turns_eat .identifier).bind fun name t => (turns_eat .colon).bind fun _ t => ?_
  refine DataType.turns_parseOrInvalid.bind fun type t => (turns_eat .assignment).bind fun _ t => ?_
  refine ((Expression.turns_parseOrInvalid h.exprs).over _).bind fun value t => ?_
  refine (turns_eat .semicolon).bind fun _ t => ?_
  refine turns_alloc start _ (.refl _) ?_ (plays _ _ _)
  exact fun plays => ⟨plays (type, Role.orInvalid isDataType) (by simp),
    plays (value, Role.orInvalid isExpression) (by simp)⟩

theorem turns_returnValue (h : inner.Builds) : (returnValue inner).Turns s []
    fun value => (Role.orInvalid isExpression).each value.toList := by
  apply turns_current_bind
  split
  · exact turns_pure rfl
  · exact (Expression.turns_parseOrInvalid h.exprs).bind fun value _ => turns_pure rfl

theorem turns_returnStmt (h : inner.Builds) :
    (returnStmt inner).Turns s [] fun id => [(id, isStatement)] := by
  refine turns_advance.bind fun start t => (turns_returnValue h).bind fun value t => ?_
  refine (turns_eat .semicolon).bind fun _ t => ?_
  refine turns_alloc start _ (by rw [Role.map_each]; rfl) ?_ rfl
  intro plays id mem
  exact plays (id, Role.orInvalid isExpression) (by simpa [Role.each] using mem)

theorem turns_statements (h : inner.Builds) : (statements inner).Turns s []
    fun body => (Role.orInvalid isStatement).each body.toList := by
  refine Turns.foldWhile
    (fun body : Array NodeId => (Role.orInvalid isStatement).each body.toList) ?_ #[]
  intro _ body t _
  refine ((turns_recover (h.statement t)).over _).bind fun id t => ?_
  exact turns_pure (Role.each_push _ body id).symm

theorem turns_block (h : inner.Builds) : (block inner).Turns s [] fun id => [(id, isBlock)] := by
  apply Attempt.turns_look_bind
  split
  · refine (Attempt.turns_lift turns_advance).bind fun _ t => ?_
    refine (Attempt.turns_lift (turns_statements h)).bind fun body t => ?_
    refine (Attempt.turns_lift (turns_eat .closeCurly)).bind fun _ t => ?_
    refine Attempt.turns_lift (turns_alloc s.current _ (by rw [Role.map_each]; rfl) ?_ rfl)
    intro plays id mem
    exact plays (id, Role.orInvalid isStatement) (by simpa [Role.each] using mem)
  · exact Attempt.turns_throw _

theorem turns_blockOrInvalid (h : inner.Builds) :
    (blockOrInvalid inner).Turns s [] fun id => [(id, Role.orInvalid isBlock)] :=
  turns_recover (turns_block h)

/-! ### Conditionals and loops -/

theorem turns_condition (h : inner.Builds) (branch : Branch) :
    (condition inner branch).Turns s []
      fun value => (Role.orInvalid isExpression).each value.toList := by
  cases branch with
  | ifBranch | elifBranch =>
    exact (Expression.turns_parseOrInvalid h.exprs).bind fun expr _ => turns_pure rfl
  | elseBranch => exact turns_pure rfl

theorem turns_nextLink (h : inner.Builds) (branch : Branch) :
    (nextLink inner branch).Turns s [] fun link => isFollowingLink.each link.toList := by
  apply Attempt.turns_look_bind
  split
  · exact Attempt.turns_pure rfl
  · refine ((h.conditional s .elifBranch).weaken ?_).bind fun link _ => Attempt.turns_pure rfl
    exact fun construct link => by simp [isFollowingLink, link]
  · refine ((h.conditional s .elseBranch).weaken ?_).bind fun link _ => Attempt.turns_pure rfl
    exact fun construct link => by simp [isFollowingLink, link]
  · exact Attempt.turns_pure rfl

theorem isSome_condition {branch : Branch} {value : Option NodeId} {t : State}
    (run : (condition inner branch).run s = (value, t)) :
    value.isSome = true ↔ branch ≠ .elseBranch := by
  cases branch <;> simp only [condition, run_bind, run_pure] at run <;> cases run <;> simp

/-- No link follows an `else`. -/
theorem nextLink_else {link : Option NodeId} {t : State}
    (run : (nextLink inner .elseBranch).run.run s = (.ok link, t)) : link = none := by
  cases run
  rfl

theorem turns_conditional (h : inner.Builds) (branch : Branch) :
    (conditional inner branch).Turns s [] fun id => [(id, isLinkOf branch)] := by
  refine (Attempt.turns_lift turns_advance).bind fun start t => ?_
  refine (Attempt.turns_lift (turns_condition h branch)).bind_run fun value t ran => ?_
  refine ((Attempt.turns_lift (turns_blockOrInvalid h)).over _).bind fun body t => ?_
  refine ((turns_nextLink h branch).over _).bind_run fun next t last => ?_
  refine Attempt.turns_lift (turns_alloc start _ ?_ ?_ ?_)
  · simp [Construct.children, Role.each, Function.comp_def]
  · intro plays
    refine ⟨isSome_condition (Prod.ext (Except.ok.inj (Prod.ext_iff.1 ran).1) rfl), ?_, ?_, ?_, ?_⟩
    · intro id mem
      exact plays (id, Role.orInvalid isExpression) (by simp_all [Role.each])
    · exact plays (body, Role.orInvalid isBlock) (by simp)
    · rintro rfl
      exact nextLink_else last
    · intro id mem
      exact plays (id, isFollowingLink) (by simp_all [Role.each])
  · simp [isLinkOf]

theorem turns_dangling (h : inner.Builds) {made : NodeId → List (NodeId × Role)} :
    (dangling inner).Turns s [] made := by
  apply Attempt.turns_look_bind
  exact (turns_conditional h _).bind fun _ _ => Attempt.turns_throw _

theorem turns_whileLoop (h : inner.Builds) :
    (whileLoop inner).Turns s [] fun id => [(id, isStatement)] := by
  refine turns_advance.bind fun start t => ?_
  refine (Expression.turns_parseOrInvalid h.exprs).bind fun condition t => ?_
  refine ((turns_blockOrInvalid h).over _).bind fun body t => ?_
  refine turns_alloc start _ (.refl _) ?_ rfl
  exact fun plays => ⟨plays (condition, Role.orInvalid isExpression) (by simp),
    plays (body, Role.orInvalid isBlock) (by simp)⟩

theorem turns_doWhileLoop (h : inner.Builds) :
    (doWhileLoop inner).Turns s [] fun id => [(id, isStatement)] := by
  refine turns_advance.bind fun start t => ?_
  refine (turns_blockOrInvalid h).bind fun body t => (turns_eat .kwWhile).bind fun _ t => ?_
  refine ((Expression.turns_parseOrInvalid h.exprs).over _).bind fun condition t => ?_
  refine (turns_eat .semicolon).bind fun _ t => ?_
  refine turns_alloc start _ (.refl _) ?_ rfl
  exact fun plays => ⟨plays (body, Role.orInvalid isBlock) (by simp),
    plays (condition, Role.orInvalid isExpression) (by simp)⟩

theorem turns_terminated (h : inner.Builds) :
    (terminated inner).Turns s [] fun id => [(id, isStatement)] := by
  have ends : (terminated inner).Turns s [] fun id => [(id, isExprStmt)] :=
    (turns_expression h).bind fun stmt t => (turns_eat .semicolon).bind fun _ _ => turns_pure rfl
  refine ends.weaken fun construct expr => ?_
  cases construct <;> simp_all [isExprStmt, isStatement]

theorem turns_straight (h : inner.Builds) :
    (straight inner).Turns s [] fun id => [(id, isStatement)] := by
  apply Attempt.turns_look_bind
  split
  · exact Attempt.turns_lift (turns_varDecl h _ fun _ _ _ => rfl)
  · exact Attempt.turns_lift (turns_returnStmt h)
  · refine (turns_conditional h .ifBranch).weaken fun construct link => ?_
    cases construct <;> simp_all [isLinkOf, isStatement]
  · exact turns_dangling h
  · exact Attempt.turns_lift (turns_whileLoop h)
  · exact Attempt.turns_lift (turns_doWhileLoop h)
  · refine (turns_block h).weaken fun construct block => ?_
    cases construct <;> simp_all [isBlock, isStatement]
  · exact Attempt.turns_lift (turns_terminated h)

theorem turns_forOpening : forOpening.Turns s [] fun _ => [] :=
  turns_advance.bind fun _ _ => (turns_eat .openParen).bind fun _ _ => turns_pure rfl

theorem turns_forClosing (h : inner.Builds) (start : Token) (init : NodeId) :
    (forClosing inner start init).Turns s [(init, Role.orInvalid isStatement)]
      fun id => [(id, isStatement)] := by
  refine ((Expression.turns_parseOrInvalid h.exprs).over _).bind fun condition t => ?_
  refine (turns_eat .semicolon).bind fun _ t => ?_
  refine ((turns_expression h).over _).bind fun action t => ?_
  refine (turns_eat .closeParen).bind fun _ t => ?_
  refine ((turns_blockOrInvalid h).over _).bind fun body t => ?_
  refine turns_alloc start _ (.refl _) ?_ rfl
  exact fun plays => ⟨plays (init, Role.orInvalid isStatement) (by simp),
    plays (condition, Role.orInvalid isExpression) (by simp),
    plays (action, isExprStmt) (by simp), plays (body, Role.orInvalid isBlock) (by simp)⟩

theorem turns_parse_of (h : inner.Builds)
    (loops : s.current.kind.form? = some .forLoop →
      (forLoop inner).Turns s [] fun id => [(id, isStatement)]) :
    (parse inner).Turns s [] fun id => [(id, isStatement)] := by
  apply Attempt.turns_look_bind
  split
  · exact Attempt.turns_lift (loops ‹_›)
  · exact turns_straight h

/-- A `for` in the initializer of a `for` stands behind a token more. -/
theorem turns_forLoop (h : inner.Builds) (s : State) :
    (forLoop inner).Turns s [] fun id => [(id, isStatement)] := by
  rw [forLoop_eq]
  refine turns_forOpening.bind_run ?_
  refine (turns_recover (turns_parse_of h ?_)).bind fun init t => turns_forClosing h _ init
  exact fun isFor => turns_forLoop h (forOpening.run s).2
termination_by s.ahead.length
decreasing_by exact moves_forOpening isFor

theorem turns_parse (h : inner.Builds) :
    (parse inner).Turns s [] fun id => [(id, isStatement)] :=
  turns_parse_of h fun _ => turns_forLoop h s

theorem builds_refusing : Inner.refusing.Builds where
  exprs := Expression.builds_refusing
  statement _ := turns_tooDeep
  conditional _ _ := turns_tooDeep

theorem builds_around (h : inner.Builds) : (Inner.around inner).Builds where
  exprs := Expression.builds_around h.exprs
  statement _ := turns_parse h
  conditional _ branch := turns_conditional h branch

/-- At every depth the parsers of a statement do what the level around asks of them. -/
theorem builds_ofRoom : ∀ room : Nat, (Inner.ofRoom room).Builds
  | 0 => builds_refusing
  | room + 1 => builds_around (builds_ofRoom room)

end Statement

namespace Item

open Statement (Inner)

variable {inner : Inner} {s : State}

theorem turns_parameter : parameter.Turns s [] fun id => [(id, isParameter)] := by
  refine (turns_eat .identifier).bind fun name t => (turns_eat .colon).bind fun _ t => ?_
  intro roots kept opened
  refine Ensures.bind (DataType.turns_token roots kept opened) ?_
  intro r u _ opened
  have made : ∀ type u, (alloc (.procParameter name.text type) name).Turns u []
      fun id => [(id, isParameter)] :=
    fun type u => turns_alloc name _ (.refl _) (fun _ => trivial) rfl
  cases r with
  | ok type => exact made type u roots kept opened
  | error e =>
    rw [← List.append_nil kept] at opened
    exact turns_current_bind ((turns_record e).bind fun _ t => made _ t) roots kept opened

theorem turns_procedure (h : inner.Builds) :
    (procedure inner).Turns s [] fun id => [(id, isProcedure)] := by
  refine turns_advance.bind fun start t => ?_
  refine (turns_eat .identifier).bind fun name t => (turns_eat .openParen).bind fun _ t => ?_
  refine (turns_commaList fun t => turns_parameter).bind fun parameters t => ?_
  refine (turns_eat .closeParen).bind fun _ t => (turns_eat .colon).bind fun _ t => ?_
  refine (DataType.turns_parseOrInvalid.over _).bind fun type t => ?_
  refine ((Statement.turns_blockOrInvalid h).over _).bind fun body t => ?_
  refine turns_alloc start _ (by simp [Construct.children, Role.map_each]) ?_ rfl
  refine fun plays => ⟨fun id mem => plays (id, isParameter) (by simp [Role.each, mem]), ?_, ?_⟩
  · exact plays (type, Role.orInvalid isDataType) (by simp)
  · exact plays (body, Role.orInvalid isBlock) (by simp)

theorem turns_field : field.Turns s [] fun id => [(id, isField)] := by
  refine turns_advance.bind fun name t => (turns_eat .doubleColon).bind fun _ t => ?_
  refine DataType.turns_parseOrInvalid.bind fun type t => ?_
  refine (turns_eat .semicolon).bind fun _ t => ?_
  refine turns_alloc name _ (.refl _) ?_ rfl
  exact fun plays => plays (type, Role.orInvalid isDataType) (by simp)

/-- The members of a struct are open in the order in which they were made, which need not be
fields first. -/
def Members.OpenIn (members : Members) (roots : Array NodeId) (kept : List (NodeId × Role))
    (s : State) : Prop :=
  ∃ nodes, s.Open roots (kept ++ nodes) ∧
    nodes.Perm (isField.each members.fields.toList ++ isProcedure.each members.methods.toList)

theorem open_memberRound (h : inner.Builds) (token : Token) {members : Members}
    {roots : Array NodeId} {kept : List (NodeId × Role)} (opened : members.OpenIn roots kept s) :
    (memberRound inner token members).Ensures s fun members t => members.OpenIn roots kept t := by
  obtain ⟨nodes, opened, order⟩ := opened
  have method : (do
      let id ← procedure inner
      return { members with methods := members.methods.push id } : Parser Members).Ensures s
        fun members t => members.OpenIn roots kept t := by
    refine Ensures.bind ((turns_procedure h).over nodes roots kept opened) ?_
    intro id t _ opened
    refine ⟨nodes ++ [(id, isProcedure)], opened, ?_⟩
    show (nodes ++ [(id, isProcedure)]).Perm (isField.each members.fields.toList ++
      isProcedure.each (members.methods.push id).toList)
    rw [Role.each_push, ← List.append_assoc]
    exact order.append_right _
  unfold memberRound
  split
  · refine Ensures.bind (turns_field.over nodes roots kept opened) ?_
    intro id t _ opened
    refine ⟨nodes ++ [(id, isField)], opened, ?_⟩
    show (nodes ++ [(id, isField)]).Perm (isField.each (members.fields.push id).toList ++
      isProcedure.each members.methods.toList)
    rw [Role.each_push, List.append_assoc]
    refine (order.append_right _).trans ?_
    rw [List.append_assoc]
    exact List.perm_append_comm.append_left _
  · exact method
  · exact method
  · exact ⟨nodes, opened.of_ast_eq (State.ast_advance _), order⟩

theorem open_members (h : inner.Builds) {roots : Array NodeId} {kept : List (NodeId × Role)}
    (opened : s.Open roots kept) :
    (members inner).Ensures s fun members t => members.OpenIn roots kept t := by
  refine (Ensures.foldWhile (fun members t => members.OpenIn roots kept t) ?_ ?_).imp ?_
  · exact ⟨[], by simpa using opened, .refl _⟩
  · exact fun token members t _ opened => open_memberRound h token opened
  · exact fun _ _ _ both => both.1

theorem turns_struct (h : inner.Builds) (role : Role)
    (plays : ∀ name fields methods, role (.structDecl name fields methods) = true) :
    (struct inner).Turns s [] fun id => [(id, role)] := by
  refine turns_advance.bind fun start t => ?_
  refine (turns_eat .identifier).bind fun name t => (turns_eat .openCurly).bind fun _ t => ?_
  intro roots kept opened
  rw [List.append_nil] at opened
  refine (open_members h opened).bind ?_
  rintro members t _ ⟨nodes, opened, order⟩
  refine (turns_eat .closeCurly).bind (fun _ t => ?_) roots kept opened
  refine turns_alloc start _ ?_ ?_ (plays _ _ _)
  · have ids := order.symm.map (·.1)
    rwa [List.map_append, Role.map_each, Role.map_each] at ids
  · intro plays
    refine ⟨fun id mem => plays (id, isField) (order.mem_iff.2 ?_),
      fun id mem => plays (id, isProcedure) (order.mem_iff.2 ?_)⟩
    · exact List.mem_append_left _ (List.mem_map_of_mem mem)
    · exact List.mem_append_right _ (List.mem_map_of_mem mem)

theorem turns_ofToken? (h : inner.Builds) {token : Token} {item : Parser NodeId}
    (starts : ofToken? inner token = some item) : item.Turns s [] fun id => [(id, isItem)] := by
  have procedure : (procedure inner).Turns s [] fun id => [(id, isItem)] := by
    refine (turns_procedure h).weaken fun construct procedure => ?_
    cases construct <;> simp_all [isProcedure, isItem]
  unfold ofToken? at starts
  split at starts <;> cases starts
  · exact procedure
  · exact procedure
  · exact turns_struct h _ fun _ _ _ => rfl
  · exact Statement.turns_varDecl h _ fun _ _ _ => rfl

/-- The roots are items that are part of no construct, oldest first. -/
def RootsOpen (s : State) : Prop :=
  s.Open s.ast.roots (isItem.each s.ast.roots.toList)

theorem RootsOpen.of_ast_eq {t : State} (h : RootsOpen s) (same : t.ast = s.ast) :
    RootsOpen t := by
  unfold RootsOpen at h ⊢
  rw [same]
  exact h.of_ast_eq same

/-- An item leaves the roots as they are. -/
theorem roots_ofToken? (h : inner.Builds) {token : Token} {item : Parser NodeId}
    (starts : ofToken? inner token = some item) (opened : RootsOpen s) :
    (item.run s).2.ast.roots = s.ast.roots :=
  ((turns_ofToken? h starts).over (isItem.each s.ast.roots.toList) _ [] opened).roots_eq

theorem open_programRound (h : inner.Builds) (token : Token) (skipping : Bool)
    (opened : RootsOpen s) :
    (programRound inner token skipping).Ensures s fun _ t => RootsOpen t := by
  unfold programRound
  split
  · rename_i item starts
    refine ((turns_ofToken? h starts).over (isItem.each s.ast.roots.toList) _ [] opened).bind ?_
    intro id t _ opened
    have pushed : (t.pushRoot id).Open (s.ast.roots.push id)
        (isItem.each (s.ast.roots.push id).toList) := by
      rw [Role.each_push]
      exact opened.pushRoot id
    show RootsOpen (t.pushRoot id)
    rw [RootsOpen, pushed.roots_eq]
    exact pushed
  · cases skipping <;> exact opened.of_ast_eq (State.ast_advance _)

theorem open_program (h : inner.Builds) (opened : RootsOpen s) :
    (program inner).Ensures s fun _ t => RootsOpen t := by
  refine Ensures.bind (Ensures.foldWhile (fun _ t => RootsOpen t) opened ?_) ?_
  · exact fun token skipping t _ opened => open_programRound h token skipping opened
  · exact fun _ _ _ both => both.1

theorem rootsOpen_start (limit : Nat) (source : Source) : RootsOpen (State.start limit source) := by
  constructor
  · rfl
  · exact Ast.forest_empty
  all_goals simp [State.start, Ast.empty, Ast.faces, Role.each]

end Item

namespace Source

/-- The state in which the parse of a source ends has its roots open. -/
theorem rootsOpen_parse (limit : Nat) (source : Source) :
    Item.RootsOpen ((Item.program (Statement.Inner.ofRoom limit)).run
      (State.start limit source)).2 :=
  Item.open_program (Statement.builds_ofRoom limit) (Item.rootsOpen_start limit source)

/-- The tree of a parse is a forest. -/
theorem forest_parseWith (limit : Nat) (source : Source) : (source.parseWith limit).ast.Forest := by
  have opened : (State.Open _ _ _) := rootsOpen_parse limit source
  exact opened.forest

/-- **Every slot is filled with a node of the sort it asks for**, whatever the source, and the
roots are items. -/
theorem parse_slots (source : Source) :
    (∀ node ∈ source.parse.ast.nodes, node.construct.Slots source.parse.ast) ∧
      ∀ id ∈ source.parse.ast.roots, source.parse.ast.Plays id isItem := by
  have opened := rootsOpen_parse maxNesting source
  constructor
  · intro node mem
    exact opened.slots (node.construct, node.token)
      (List.mem_map.2 ⟨node, Array.mem_toList_iff.2 mem, rfl⟩)
  · intro id mem
    exact opened.plays (id, isItem) (List.mem_map_of_mem (Array.mem_toList_iff.2 mem))

/-- **The tree of a parse is a forest**, whatever the source: parts are older than the node
they belong to, belong to one node only and link back to it; the roots belong to none and are
in order. So a walk from the roots visits no node twice, and from each node it visits the
parent links lead to one root. -/
theorem parse_forest (source : Source) :
    let ast := source.parse.ast
    (∀ id, ∀ child ∈ ast.children id, child < id) ∧
      (ast.nodes.toList.flatMap (·.construct.children)).Nodup ∧
      (∀ child id, ast.parent child = some id ↔ child ∈ ast.children id) ∧
      (∀ root ∈ ast.roots, ast.parent root = none) ∧
      ast.roots.toList.Pairwise (· < ·) ∧
      ast.reachable.toList.Nodup ∧
      ∀ id ∈ ast.reachable, ∃! root, root ∈ ast.roots ∧ ast.Ascends id root := by
  intro ast
  have opened : (State.Open _ _ _) := rootsOpen_parse maxNesting source
  have forest : ast.Forest := opened.forest
  have orphans : ∀ root ∈ ast.roots.toList, ast.Orphan root :=
    fun root mem => opened.orphan (root, isItem) (List.mem_map_of_mem mem)
  have increasing : ast.roots.toList.Pairwise (· < ·) := by
    have increasing := opened.increasing
    rwa [Role.map_each] at increasing
  have visits : ast.reachable.toList = ast.roots.toList.flatMap ast.preorder := by
    rw [Ast.reachable, Ast.walk_eq]
    rfl
  refine ⟨forest.child_lt, ?_, forest.parent_iff, ?_, increasing, ?_, ?_⟩
  · have nodup := forest.nodup
    rwa [Ast.faces, List.flatMap_map] at nodup
  · exact fun root mem => (orphans root (Array.mem_toList_iff.2 mem)).parent_eq
  · rw [visits]
    exact forest.nodup_preorder (increasing.imp Nat.ne_of_lt) orphans
  · intro id mem
    rw [← Array.mem_toList_iff, visits] at mem
    simpa using forest.ascends_unique orphans mem

end Source
end Viper
