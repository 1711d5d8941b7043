/-
# Where syntax errors point

No syntax error of a source points before its first wrong token: if another source has the same
tokens up to some point and nothing is wrong with it, then no syntax error of the first stands on a line
before that of its token at this point (`Source.line_le_of_syntactic`).

Each parser is shown to keep the two relations of `Parting`, in the order of the definitions; there
is one lemma a parser, and the levels of nesting are an induction on the room there is
(`Statement.online_ofRoom`). Three parsers make an error long before it is recorded: a clause without
its `if`, a number that is too large, and a construct that is nested too deeply. They fail in the other
parse as well, so they are never met before the two part.

Key definitions: `Expression.Inner.Online`, `Statement.Inner.Online`.
Key theorems: `Item.online_program`, `Source.line_le_of_syntactic`.
-/
import ViperFrontend.Proofs.Parser.Concatenation
import ViperFrontend.Proofs.Parser.Parting
import ViperFrontend.Proofs.Token.Factoring

namespace Viper

open Viper.Parser

variable {P : Parting} {s m : State}

namespace Parser

theorem online_passOffending : passOffending.Online P s m := by
  refine online_current_bind (online_ite (fun _ => online_pure ()) fun _ => ?_)
  exact online_advance.bind fun _ t m _ => online_pure ()

theorem online_expect (expected : TokenKind) : (expect expected).Online P s m := by
  refine Attempt.online_current_bind (Attempt.online_ite (fun _ => ?_) fun _ => ?_)
  · exact Attempt.online_lift online_advance
  · exact Attempt.online_bind_throw (Attempt.online_lift online_passOffending)
      fun late => late.line_le_current

theorem online_eat (expected : TokenKind) : (eat expected).Online P s m := by
  refine online_current_bind ((online_expect expected).settle ?_ ?_ ?_)
  · exact fun token t m => online_pure token
  · exact fun e t line late => late.record line
  · exact fun e t => .refl

theorem online_recover {p : Attempt NodeId} (h : p.Online P s m) : (recover p).Online P s m := by
  refine h.settle ?_ ?_ ?_
  · exact fun id t m => online_pure id
  · exact fun e t line late => (online_alloc (m := t) _ _).late (late.record line)
  · exact fun e t => .alloc _ _ .refl

theorem online_skipRound (opened : Nat) : (skipRound opened).Online P s m := by
  refine online_advance.bind fun passed t m _ => online_current_bind ?_
  refine online_ite (fun _ => online_pure _) fun _ => ?_
  exact online_ite (fun _ => online_pure _) fun _ => online_pure _

theorem online_tooDeep : tooDeep.Online P s m := by
  refine Attempt.online_current_bind ?_
  refine Attempt.online_look_bind (fun together => together.limit_eq) ?_
  refine Attempt.online_ite (fun _ => ?_) fun _ => ?_
  · exact Attempt.online_throw fun late => late.line_le_current
  · have skipped : skipConstruct.Online P s m :=
      Online.loop (fun opened s m => online_skipRound opened) 0 s m
    exact Attempt.online_bind_throw (Attempt.online_lift skipped) fun late => late.line_le_current

theorem online_listRound {item : Parser NodeId} (h : ∀ s m, item.Online P s m)
    (items : Array NodeId) : (listRound item items).Online P s m := by
  refine online_current_bind (online_ite (fun _ => online_pure _) fun _ => ?_)
  refine (h s m).bind fun id t m _ => online_current_bind ?_
  refine online_ite (fun _ => ?_) fun _ => online_ite (fun _ => online_pure _) fun _ => ?_
  · exact online_advance.bind fun _ t m _ => online_pure _
  · exact (online_record fun late => late.line_le_current).bind fun _ t m _ => online_pure _

theorem online_commaList {item : Parser NodeId} (h : ∀ s m, item.Online P s m) :
    (commaList item).Online P s m :=
  Online.loop (fun items _ _ => online_listRound h items) #[] s m

end Parser

namespace DataType

theorem online_token : token.Online P s m := by
  refine Attempt.online_current_bind ?_
  split
  · exact Attempt.online_lift online_advance
  · exact Attempt.online_lift online_advance
  · exact Attempt.online_throw fun late => late.line_le_current

theorem online_parseOrInvalid : parseOrInvalid.Online P s m := by
  refine online_recover (online_token.bind fun token t m _ => ?_)
  exact Attempt.online_lift (online_alloc _ _)

end DataType

namespace Expression

/-- The parsers of a level are online. -/
structure Inner.Online (P : Parting) (inner : Inner) : Prop where
  primary : ∀ s m, inner.primary.Online P s m
  binary : ∀ left p s m, (inner.binary left p).Online P s m
  identifier : ∀ s m, inner.identifier.Online P s m

theorem operator?_together (together : P.Together s m) : operator? s = operator? m := by
  rw [operator?, operator?, together.current_eq]

variable {inner : Inner}

theorem online_binary (h : inner.Online P) (left : NodeId) (p : Precedence) :
    (binary inner left p).Online P s m := by
  refine Attempt.online_advance_bind fun operator t m => (h.primary t m).bind fun operand t m _ => ?_
  refine (Attempt.Online.foldWhile ?_ ?_ operand t m).bind fun right t m _ => ?_
  · exact fun s m together => congrArg _ (operator?_together together)
  · exact fun next right s m _ => h.binary right next s m
  · exact Attempt.online_lift (online_alloc _ _)

theorem online_parse (h : inner.Online P) : (parse inner).Online P s m := by
  refine (h.primary s m).bind fun operand t m _ => ?_
  exact Attempt.Online.foldWhile (fun s m together => operator?_together together)
    (fun p left s m _ => online_binary h left p) operand t m

theorem online_parseOrInvalid (h : inner.Online P) : (parseOrInvalid inner).Online P s m :=
  online_recover (online_parse h)

theorem online_prefixed (h : inner.Online P) : (prefixed inner).Online P s m := by
  refine Attempt.online_advance_bind fun operator t m => (h.primary t m).bind fun operand t m _ => ?_
  exact Attempt.online_lift (online_alloc _ _)

/-- A literal without a value is so in both parses. -/
theorem online_numeral {α : Type} {read? : String → Option α} {make : α → Construct} :
    (numeral read? make).Online P s m := by
  cases value : read? s.current.text with
  | some number =>
    refine (Attempt.online_lift online_advance).bind fun token t m run => ?_
    obtain rfl : s.current = token := by
      cases run
      rfl
    rw [value]
    exact Attempt.online_lift (online_alloc _ _)
  | none =>
    refine ⟨fun late => ?_, fun together a ended => ?_⟩
    · rw [numeral_of_none value]
      exact late.advance.failing late.line_le_current
    · rw [together.current_eq] at value
      rw [numeral_of_none value] at ended
      cases ended

theorem online_grouping (h : inner.Online P) : (grouping inner).Online P s m := by
  refine Attempt.online_advance_bind fun _ t m => (online_parse h).bind fun expr t m _ => ?_
  exact (Attempt.online_lift (online_eat .closeParen)).bind fun _ t m _ => Attempt.online_pure expr

/-! ### Names -/

theorem passes_call (h : inner.Online P) : (liftM (call inner) : Attempt NodeId).Passes P := by
  refine Attempt.passes_lift_advance_bind fun callee t m => online_advance.bind fun _ t m _ => ?_
  refine (online_commaList fun s m => online_parseOrInvalid h).bind fun arguments t m _ => ?_
  exact (online_eat .closeParen).bind fun _ t m _ => online_alloc _ _

theorem passes_indexed (h : inner.Online P) : (liftM (indexed inner) : Attempt NodeId).Passes P := by
  refine Attempt.passes_lift_advance_bind fun name t m => online_advance.bind fun _ t m _ => ?_
  refine (online_parseOrInvalid h).bind fun index t m _ => ?_
  exact (online_eat .closeBracket).bind fun _ t m _ => online_alloc _ _

theorem passes_member (h : inner.Online P) : (member inner).Passes P := by
  refine Attempt.passes_advance_bind fun name t m => ?_
  refine (Attempt.online_lift (online_alloc _ _)).bind fun object t m _ => ?_
  refine Attempt.online_advance_bind fun dot t m => Attempt.online_current_bind ?_
  refine Attempt.online_ite (fun _ => ?_) fun _ => Attempt.online_throw fun late => late.line_le_current
  exact (h.identifier t m).bind fun field t m _ => Attempt.online_lift (online_alloc _ _)

theorem passes_name : (liftM name : Attempt NodeId).Passes P :=
  Attempt.passes_lift_advance_bind fun _ _ _ => online_alloc _ _

/-- The token after a name decides what is parsed, but the name is passed in any case. -/
theorem online_identifier (h : inner.Online P) : (identifier inner).Online P s m := by
  refine Attempt.online_peek_bind fun next => ?_
  split
  · exact passes_call h
  · exact passes_indexed h
  · exact passes_member h
  · exact passes_name

theorem online_primary (h : inner.Online P) : (primary inner).Online P s m := by
  have literal : ∀ construct : Token → Construct,
      (liftM (advance >>= fun token => alloc (construct token) token) : Attempt NodeId).Online P s m :=
    fun construct => Attempt.online_lift (online_advance.bind fun _ _ _ _ => online_alloc _ _)
  refine Attempt.online_current_bind ?_
  split
  · exact online_prefixed h
  · exact online_prefixed h
  · exact online_prefixed h
  · exact literal _
  · exact literal _
  · exact online_numeral
  · exact online_numeral
  · exact literal _
  · exact online_identifier h
  · exact online_grouping h
  · exact Attempt.online_throw fun late => late.line_le_current

theorem online_refusing : Inner.refusing.Online P where
  primary _ _ := online_tooDeep
  binary _ _ _ _ := online_tooDeep
  identifier _ _ := online_tooDeep

theorem online_around (h : inner.Online P) : (Inner.around inner).Online P where
  primary _ _ := online_primary h
  binary left p _ _ := online_binary h left p
  identifier _ _ := online_identifier h

end Expression

namespace Statement

/-- The parsers of a level are online. -/
structure Inner.Online (P : Parting) (inner : Inner) : Prop where
  exprs : inner.exprs.Online P
  statement : ∀ s m, inner.statement.Online P s m
  conditional : ∀ branch s m, (inner.conditional branch).Online P s m

variable {inner : Inner}

theorem online_expression (h : inner.Online P) : (expression inner).Online P s m := by
  refine online_current_bind ?_
  exact (Expression.online_parseOrInvalid h.exprs).bind fun expr t m _ => online_alloc _ _

theorem online_varDecl (h : inner.Online P) : (varDecl inner).Online P s m := by
  refine online_advance.bind fun start t m _ => (online_eat .identifier).bind fun name t m _ => ?_
  refine (online_eat .colon).bind fun _ t m _ => ?_
  refine DataType.online_parseOrInvalid.bind fun type t m _ => ?_
  refine (online_eat .assignment).bind fun _ t m _ => ?_
  refine (Expression.online_parseOrInvalid h.exprs).bind fun value t m _ => ?_
  exact (online_eat .semicolon).bind fun _ t m _ => online_alloc _ _

theorem online_returnValue (h : inner.Online P) : (returnValue inner).Online P s m := by
  refine online_current_bind (online_ite (fun _ => online_pure none) fun _ => ?_)
  exact (Expression.online_parseOrInvalid h.exprs).bind fun value t m _ => online_pure _

theorem online_returnStmt (h : inner.Online P) : (returnStmt inner).Online P s m := by
  refine online_advance.bind fun start t m _ => (online_returnValue h).bind fun value t m _ => ?_
  exact (online_eat .semicolon).bind fun _ t m _ => online_alloc _ _

/-! ### Blocks -/

theorem beforeBoundary?_together (s m : State) (together : P.Together s m) :
    beforeBoundary? s = beforeBoundary? m := by
  rw [beforeBoundary?, beforeBoundary?, together.current_eq]

theorem online_statements (h : inner.Online P) : (statements inner).Online P s m := by
  refine Online.foldWhile beforeBoundary?_together (fun token body s m _ => ?_) #[]
  exact (online_recover (h.statement s m)).bind fun id t m _ => online_pure _

theorem online_block (h : inner.Online P) : (block inner).Online P s m := by
  refine Attempt.online_current_bind (Attempt.online_ite (fun _ => ?_) fun _ => ?_)
  · refine Attempt.online_advance_bind fun _ t m => ?_
    refine (Attempt.online_lift (online_statements h)).bind fun body t m _ => ?_
    refine (Attempt.online_lift (online_eat .closeCurly)).bind fun _ t m _ => ?_
    exact Attempt.online_lift (online_alloc _ _)
  · exact Attempt.online_throw fun late => late.line_le_current

theorem online_blockOrInvalid (h : inner.Online P) : (blockOrInvalid inner).Online P s m :=
  online_recover (online_block h)

/-! ### Conditionals and loops -/

theorem online_condition (h : inner.Online P) (branch : Branch) :
    (condition inner branch).Online P s m := by
  cases branch with
  | ifBranch | elifBranch =>
    exact (Expression.online_parseOrInvalid h.exprs).bind fun expr t m _ => online_pure _
  | elseBranch => exact online_pure none

theorem online_nextLink (h : inner.Online P) (branch : Branch) :
    (nextLink inner branch).Online P s m := by
  refine Attempt.online_current_bind ?_
  split
  · exact Attempt.online_pure none
  · exact (h.conditional .elifBranch s m).bind fun link t m _ => Attempt.online_pure _
  · exact (h.conditional .elseBranch s m).bind fun link t m _ => Attempt.online_pure _
  · exact Attempt.online_pure none

theorem online_conditional (h : inner.Online P) (branch : Branch) :
    (conditional inner branch).Online P s m := by
  refine Attempt.online_advance_bind fun start t m => ?_
  refine (Attempt.online_lift (online_condition h branch)).bind fun condition t m _ => ?_
  refine (Attempt.online_lift (online_blockOrInvalid h)).bind fun body t m _ => ?_
  refine (online_nextLink h branch).bind fun next t m _ => ?_
  exact Attempt.online_lift (online_alloc _ _)

/-- The error points at the clause, before all that is parsed of it, but it is made in both parses. -/
theorem online_dangling (h : inner.Online P) : (dangling inner).Online P s m := by
  refine Attempt.online_current_bind ?_
  exact Attempt.online_bind_throw (online_conditional h _) fun late => late.line_le_current

theorem online_whileLoop (h : inner.Online P) : (whileLoop inner).Online P s m := by
  refine online_advance.bind fun start t m _ => ?_
  refine (Expression.online_parseOrInvalid h.exprs).bind fun condition t m _ => ?_
  exact (online_blockOrInvalid h).bind fun body t m _ => online_alloc _ _

theorem online_doWhileLoop (h : inner.Online P) : (doWhileLoop inner).Online P s m := by
  refine online_advance.bind fun start t m _ => (online_blockOrInvalid h).bind fun body t m _ => ?_
  refine (online_eat .kwWhile).bind fun _ t m _ => ?_
  refine (Expression.online_parseOrInvalid h.exprs).bind fun condition t m _ => ?_
  exact (online_eat .semicolon).bind fun _ t m _ => online_alloc _ _

theorem online_terminated (h : inner.Online P) : (terminated inner).Online P s m := by
  refine (online_expression h).bind fun stmt t m _ => ?_
  exact (online_eat .semicolon).bind fun _ t m _ => online_pure stmt

theorem online_straight (h : inner.Online P) : (straight inner).Online P s m := by
  refine Attempt.online_current_bind ?_
  split
  · exact Attempt.online_lift (online_varDecl h)
  · exact Attempt.online_lift (online_returnStmt h)
  · exact online_conditional h .ifBranch
  · exact online_dangling h
  · exact Attempt.online_lift (online_whileLoop h)
  · exact Attempt.online_lift (online_doWhileLoop h)
  · exact online_block h
  · exact Attempt.online_lift (online_terminated h)

theorem online_forOpening : forOpening.Online P s m := by
  refine online_advance.bind fun start t m _ => ?_
  exact (online_eat .openParen).bind fun _ t m _ => online_pure start

theorem online_forClosing (h : inner.Online P) (start : Token) (init : NodeId) :
    (forClosing inner start init).Online P s m := by
  refine (Expression.online_parseOrInvalid h.exprs).bind fun condition t m _ => ?_
  refine (online_eat .semicolon).bind fun _ t m _ => ?_
  refine (online_expression h).bind fun action t m _ => ?_
  refine (online_eat .closeParen).bind fun _ t m _ => ?_
  exact (online_blockOrInvalid h).bind fun body t m _ => online_alloc _ _

theorem online_parse_of (h : inner.Online P)
    (loops : s.current.kind.form? = some .forLoop → (forLoop inner).Online P s m) :
    (parse inner).Online P s m := by
  refine Attempt.online_current_bind (Attempt.online_ite (fun isFor => ?_) fun _ => ?_)
  · exact Attempt.online_lift (loops isFor)
  · exact online_straight h

/-- A `for` in the initializer of a `for` stands behind a token more. -/
theorem online_forLoop (h : inner.Online P) (s m : State) : (forLoop inner).Online P s m := by
  rw [forLoop_eq]
  refine online_forOpening.bind fun start t m opened => ?_
  refine (online_recover (online_parse_of h fun isFor => ?_)).bind fun init t m _ => ?_
  · have reached : (forOpening.run s).2 = t := by rw [opened]
    have shorter : t.ahead.length < s.ahead.length := by
      have moved := moves_forOpening (s := s) (reached ▸ isFor)
      rwa [Moves, reached] at moved
    exact online_forLoop h t m
  · exact online_forClosing h start init
termination_by s.ahead.length

theorem online_parse (h : inner.Online P) : (parse inner).Online P s m :=
  online_parse_of h fun _ => online_forLoop h s m

theorem online_refusing : Inner.refusing.Online P where
  exprs := Expression.online_refusing
  statement _ _ := online_tooDeep
  conditional _ _ _ := online_tooDeep

theorem online_around (h : inner.Online P) : (Inner.around inner).Online P where
  exprs := Expression.online_around h.exprs
  statement _ _ := online_parse h
  conditional branch _ _ := online_conditional h branch

/-- The parsers of every level are online. -/
theorem online_ofRoom : ∀ room : Nat, (Inner.ofRoom room).Online P
  | 0 => online_refusing
  | room + 1 => online_around (online_ofRoom room)

end Statement

namespace Item

open Statement (Inner)

variable {inner : Inner}

theorem online_parameter : parameter.Online P s m := by
  refine (online_eat .identifier).bind fun name t m _ => (online_eat .colon).bind fun _ t m _ => ?_
  refine DataType.online_token.settle ?_ ?_ ?_
  · exact fun type t m => online_alloc _ _
  · exact fun e t line late => (online_alloc (m := t) _ _).late (late.record line)
  · exact fun e t => .alloc _ _ .refl

theorem online_procedure (h : inner.Online P) : (procedure inner).Online P s m := by
  refine online_advance.bind fun start t m _ => (online_eat .identifier).bind fun name t m _ => ?_
  refine (online_eat .openParen).bind fun _ t m _ => ?_
  refine (online_commaList fun s m => online_parameter).bind fun parameters t m _ => ?_
  refine (online_eat .closeParen).bind fun _ t m _ => (online_eat .colon).bind fun _ t m _ => ?_
  refine DataType.online_parseOrInvalid.bind fun type t m _ => ?_
  exact (Statement.online_blockOrInvalid h).bind fun body t m _ => online_alloc _ _

theorem online_field : field.Online P s m := by
  refine online_advance.bind fun name t m _ => (online_eat .doubleColon).bind fun _ t m _ => ?_
  refine DataType.online_parseOrInvalid.bind fun type t m _ => ?_
  exact (online_eat .semicolon).bind fun _ t m _ => online_alloc _ _

theorem online_memberRound (h : inner.Online P) (members : Members) :
    (memberRound inner s.current members).Online P s m := by
  unfold memberRound
  split
  · exact online_field.bind fun id t m _ => online_pure _
  · exact (online_procedure h).bind fun id t m _ => online_pure _
  · exact (online_procedure h).bind fun id t m _ => online_pure _
  · refine (online_record fun late => late.line_le_current).bind fun _ t m _ => ?_
    exact online_advance.bind fun _ t m _ => online_pure _

theorem online_members (h : inner.Online P) : (members inner).Online P s m := by
  refine Online.foldWhile Statement.beforeBoundary?_together (fun token members s m given => ?_) _
  obtain rfl := Statement.current_of_beforeBoundary? given
  exact online_memberRound h members

theorem online_struct (h : inner.Online P) : (struct inner).Online P s m := by
  refine online_advance.bind fun start t m _ => (online_eat .identifier).bind fun name t m _ => ?_
  refine (online_eat .openCurly).bind fun _ t m _ => (online_members h).bind fun members t m _ => ?_
  exact (online_eat .closeCurly).bind fun _ t m _ => online_alloc _ _

theorem online_ofToken? (h : inner.Online P) {token : Token} {item : Parser NodeId}
    (starts : ofToken? inner token = some item) : item.Online P s m := by
  unfold ofToken? at starts
  split at starts
  · cases starts
    exact online_procedure h
  · cases starts
    exact online_procedure h
  · cases starts
    exact online_struct h
  · cases starts
    exact Statement.online_varDecl h
  · cases starts

theorem online_programRound (h : inner.Online P) (skipping : Bool) :
    (programRound inner s.current skipping).Online P s m := by
  unfold programRound
  split
  · rename_i item starts
    refine (online_ofToken? h starts).bind fun id t m _ => ?_
    exact (online_pushRoot id).bind fun _ t m _ => online_pure false
  · have stray : (reportStray s.current skipping).Online P s m :=
      online_ite (fun _ => online_pure ()) fun _ => online_record fun late => late.line_le_current
    refine stray.bind fun _ t m _ => ?_
    exact online_advance.bind fun _ t m _ => online_pure true

/-- **The parser of a file is online.** -/
theorem online_program (h : inner.Online P) : (program inner).Online P s m := by
  have same : ∀ s m : State, P.Together s m → beforeEnd? s = beforeEnd? m := by
    intro s m together
    rw [beforeEnd?, beforeEnd?, together.current_eq]
  refine (Online.foldWhile same (fun token skipping s m given => ?_) false).bind
    fun _ t m _ => online_pure ()
  obtain ⟨rfl, -⟩ := current_of_beforeEnd? given
  exact online_programRound h skipping

end Item
/-! ### Two sources -/

namespace Source

/-- From some token on there are the tokens of the text and the end of the file. -/
theorem drop_tokenize (source : Source) {k : Nat} (within : k ≤ source.scan.scanned.length) :
    source.tokenize.1.drop k =
      (source.scan.scanned.drop k).map (·.token) ++ [Token.endOfFile source.scan.endLine] := by
  rw [tokenize, TokenStream.tokens, List.drop_append_of_le_length (by rwa [List.length_map]), List.map_drop]

theorem take_tokenize (source : Source) {k : Nat} (within : k ≤ source.scan.scanned.length) :
    source.tokenize.1.take k = (source.scan.scanned.take k).map (·.token) := by
  rw [tokenize, TokenStream.tokens, List.take_append_of_le_length (by rwa [List.length_map]), List.map_take]

theorem length_tokenize (source : Source) :
    source.tokenize.1.length = source.scan.scanned.length + 1 := by
  rw [tokenize, TokenStream.tokens, List.length_append, List.length_map, List.length_singleton]

/-- No token stands before those that it comes behind. -/
theorem line_le_of_mem_drop {source : Source} {k : Nat} {t : Token}
    (few : lineFeeds source.content < UInt32.size - 1) (here : source.tokenize.1[k]? = some t) :
    ∀ u ∈ source.tokenize.1.drop k, t.line ≤ u.line := by
  obtain ⟨bound, rfl⟩ := List.getElem?_eq_some_iff.1 here
  have sorted := (source.pairwise_line_le few).drop (i := k)
  rw [List.drop_eq_getElem_cons bound] at sorted ⊢
  intro u mem
  rcases List.mem_cons.1 mem with rfl | later
  · exact UInt32.le_refl _
  · exact (List.pairwise_cons.1 sorted).1 u later

/-- Tokens that come before the end of one file come before the end of the other. -/
theorem le_length_of_agree {a b : Source} {k : Nat} (within : k ≤ b.scan.scanned.length)
    (agree : a.tokenize.1.take k = b.tokenize.1.take k) : k ≤ a.scan.scanned.length := by
  by_cases shorter : k ≤ a.scan.scanned.length
  · exact shorter
  · have whole : a.tokenize.1.take k = a.tokenize.1 := by
      refine List.take_of_length_le ?_
      rw [a.length_tokenize]
      omega
    have ended : Token.endOfFile a.scan.endLine ∈ a.tokenize.1 :=
      List.mem_append_right _ (List.mem_singleton.2 rfl)
    rw [← whole, agree, b.take_tokenize within] at ended
    obtain ⟨x, mem, same⟩ := List.mem_map.1 ended
    have isEnd : x.token.kind = .eof := congrArg Token.kind same
    exact absurd isEnd (b.kind_ne_eof_of_mem_scan x (List.mem_of_mem_take mem))

/-- Two sources part behind their first `k` tokens. -/
def parting (a b : Source) (k : Nat) (line : UInt32)
    (line_le : ∀ x ∈ b.scan.scanned.drop k, line ≤ x.token.line) : Parting where
  line
  rest := b.scan.scanned.drop k
  otherRest := a.scan.scanned.drop k
  line_le

theorem tidy_start (P : Parting) (limit : Nat) (source : Source) :
    P.Tidy (State.start limit source) := by
  intro d mem syntactic
  have known := Array.mem_toList_iff.2 mem
  rw [State.toList_errors_start] at known
  obtain ⟨x, -, diagnosed⟩ := List.mem_filterMap.1 known
  rw [State.isLexical_of_diagnostic? diagnosed] at syntactic
  cases syntactic

/-- **No syntax error points before the first wrong token.** If nothing is wrong with a source and
another one has the same first `k` tokens, on the same lines, then no syntax error of the latter stands
on a line before that of its token number `k`. -/
theorem line_le_of_syntactic (a b : Source) (clean : a.parse.errors = #[])
    (few : lineFeeds b.content < UInt32.size - 1) {k : Nat} {t : Token}
    (here : b.tokenize.1[k]? = some t) (agree : a.tokenize.1.take k = b.tokenize.1.take k) :
    ∀ d ∈ b.parse.errors, d.fault.isLexical = false → t.line ≤ d.line := by
  have within : k ≤ b.scan.scanned.length := by
    have bound := (List.getElem?_eq_some_iff.1 here).1
    rw [b.length_tokenize] at bound
    omega
  have behind := line_le_of_mem_drop few here
  rw [b.drop_tokenize within, List.forall_mem_append] at behind
  have line_le : ∀ x ∈ b.scan.scanned.drop k, t.line ≤ x.token.line := fun x mem =>
    behind.1 x.token (List.mem_map_of_mem mem)
  have line_le_end : t.line ≤ b.scan.endLine := behind.2 _ (List.mem_singleton.2 rfl)
  let P := parting a b k t.line line_le
  have tidy := tidy_start P maxNesting b
  have online := Item.online_program (P := P) (s := State.start maxNesting b)
    (m := State.start maxNesting a) (Statement.online_ofRoom maxNesting)
  by_cases first : k = 0
  · have late : P.Late (State.start maxNesting b) := by
      refine ⟨fun x mem => line_le x ?_, line_le_end, tidy⟩
      rwa [first, List.drop_zero]
    exact (online.late late).tidy
  · have same : (b.scan.scanned.take k).map (·.token) = (a.scan.scanned.take k).map (·.token) := by
      rw [← b.take_tokenize within, ← a.take_tokenize (le_length_of_agree within agree), agree]
    have shared : b.scan.scanned.take k ≠ [] := by
      intro none
      have length := congrArg List.length none
      rw [List.length_take, List.length_nil] at length
      omega
    have split : ∀ tokens : List Scanned, tokens = tokens.take k ++ tokens.drop k :=
      fun tokens => (List.take_append_drop k tokens).symm
    have together : P.Together (State.start maxNesting b) (State.start maxNesting a) :=
      ⟨rfl, rfl, ⟨_, _, shared, split _, split _, same⟩, line_le_end, tidy⟩
    rcases online.together together clean with ⟨-, after⟩ | late
    · exact after.tidy
    · exact late.tidy

/-- A statement that lacks its value, in the second line of a procedure. -/
theorem line_le_of_syntactic_missing_value :
    let a : Source := ⟨"f.viper", "proc f(): void \x7b\n  x = 1;\n\x7d"⟩
    let b : Source := ⟨"f.viper", "proc f(): void \x7b\n  x = ;\n\x7d"⟩
    (a.parse.errors = #[] ∧ lineFeeds b.content < UInt32.size - 1 ∧
        b.tokenize.1[9]? = some ⟨.semicolon, ";", 2⟩ ∧ a.tokenize.1.take 9 = b.tokenize.1.take 9 ∧
        b.parse.errors.size = 1) ∧
      ∀ d ∈ b.parse.errors, d.fault.isLexical = false → 2 ≤ d.line := by
  intro a b
  have clean : a.parse.errors = #[] := by decide +kernel
  have few : lineFeeds b.content < UInt32.size - 1 := by decide +kernel
  have here : b.tokenize.1[9]? = some ⟨.semicolon, ";", 2⟩ := by decide +kernel
  have agree : a.tokenize.1.take 9 = b.tokenize.1.take 9 := by decide +kernel
  exact ⟨⟨clean, few, here, agree, by decide +kernel⟩, line_le_of_syntactic a b clean few here agree⟩

end Source
end Viper
