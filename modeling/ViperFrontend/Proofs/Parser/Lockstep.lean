/-
# Every parser follows itself

Nothing in the parsers of the language looks at more of a state than the steps of a parse
show, so under every simulation (`Following`) each parser follows itself: expressions,
statements and items, at every depth of nesting and through every path of recovery. The
parsers one level further in are taken to follow each other (`Expression.Inner.Follows`,
`Statement.Inner.Follows`), and where both parses have the same limit, an induction over the
room that is left gives this at every level.

The text of a token becomes a name only where the token is no integer literal. So where a name
starts, the text of the token must be renamed as names are, as that of an identifier is.

The plainest simulation is that of a renaming: a parse of renamed tokens ends with the renamed
tree and the renamed diagnostics (`Renaming.run_program`).

Key definitions: `Expression.Inner.Follows`, `Statement.Inner.Follows`, `Simulation.ofRenaming`.
Key theorems: `Statement.follows_ofRoom`, `Item.follows_program`, `Renaming.run_program`.
-/
import ViperFrontend.Proofs.Parser.Following

namespace Viper

open Viper.Parser

variable {ρ : Renaming} {S : Simulation ρ} {s s' : State}

namespace DataType

/-- A data type is no number literal. -/
theorem isNumber_token {t : Token} {u : State} (run : token.run.run s = (.ok t, u)) :
    t.kind.isNumber = false := by
  unfold token at run
  rw [Attempt.run_bind] at run
  simp only [Attempt.run_lift, run_current] at run
  split at run
  · rename_i kind
    obtain ⟨rfl⟩ := Except.ok.inj (Prod.ext_iff.1 run).1
    show s.current.kind.isNumber = false
    rw [kind]
    rfl
  · rename_i kind
    obtain ⟨rfl⟩ := Except.ok.inj (Prod.ext_iff.1 run).1
    show s.current.kind.isNumber = false
    rw [kind]
    rfl
  · cases (Prod.ext_iff.1 run).1

theorem follows_token : token.Follows S ρ.token token s s' := by
  refine Attempt.follows_current_bind ?_
  rw [ρ.kind_token]
  split
  · exact Attempt.follows_lift follows_advance
  · exact Attempt.follows_lift follows_advance
  · exact Attempt.follows_throw rfl

theorem follows_parse : parse.Follows S ρ.node parse s s' := by
  refine follows_token.bind fun t u u' run => Attempt.follows_lift (follows_alloc ?_ rfl)
  rw [ρ.text_token (isNumber_token run)]
  rfl

theorem follows_parseOrInvalid : parseOrInvalid.Follows S ρ.node parseOrInvalid s s' :=
  follows_recover follows_parse

end DataType

namespace Expression

/-- The parsers of one level follow those of another. -/
structure Inner.Follows (S : Simulation ρ) (inner inner' : Inner) : Prop where
  primary : ∀ s s', inner.primary.Follows S ρ.node inner'.primary s s'
  binary : ∀ s s' left p, (inner.binary left p).Follows S ρ.node (inner'.binary (ρ.node left) p) s s'
  identifier : ∀ s s', s.current.kind = .identifier →
    inner.identifier.Follows S ρ.node inner'.identifier s s'

theorem operator?_eq (related : S.rel s s') (live : S.live s) : operator? s' = operator? s := by
  simp [operator?, S.current_eq related live]

variable {inner inner' : Inner}

theorem follows_binary (h : inner.Follows S inner') (left : NodeId) (p : Precedence) :
    (binary inner left p).Follows S ρ.node (binary inner' (ρ.node left) p) s s' := by
  refine Attempt.follows_advance_bind fun t t' => ?_
  refine (h.primary t t').bind fun operand t t' _ => ?_
  refine (Attempt.Follows.foldWhile id ?_ ?_ operand).bind fun right t t' _ => ?_
  · intro s s' related live
    rw [operator?_eq related live, Option.map_id, id]
  · exact fun next right t t' _ => h.binary t t' right next
  · exact Attempt.follows_lift (follows_alloc rfl rfl)

theorem follows_parse (h : inner.Follows S inner') :
    (parse inner).Follows S ρ.node (parse inner') s s' := by
  refine (h.primary s s').bind fun operand t t' _ => ?_
  refine Attempt.Follows.foldWhile id ?_ ?_ operand
  · intro s s' related live
    rw [operator?_eq related live, Option.map_id, id]
  · exact fun p left t t' _ => follows_binary h left p

theorem follows_parseOrInvalid (h : inner.Follows S inner') :
    (parseOrInvalid inner).Follows S ρ.node (parseOrInvalid inner') s s' :=
  follows_recover (follows_parse h)

theorem follows_prefixed (h : inner.Follows S inner') :
    (prefixed inner).Follows S ρ.node (prefixed inner') s s' := by
  refine Attempt.follows_advance_bind fun t t' => ?_
  refine (h.primary t t').bind fun operand t t' _ => ?_
  exact Attempt.follows_lift (follows_alloc rfl rfl)

theorem follows_boolean : boolean.Follows S ρ.node boolean s s' :=
  follows_advance_bind fun _ _ => follows_alloc rfl rfl

/-- A literal without a value stays so under a renaming, and no other becomes so. -/
theorem follows_numeral {α : Type} {read? : String → Option α} {make : α → Construct}
    (h : ρ.Rereads read? make s.current) :
    (numeral read? make).Follows S ρ.node (numeral read? make) s s' := by
  refine Attempt.follows_advance_bind fun t t' => ?_
  cases given : read? s.current.text with
  | some value =>
    obtain ⟨value', given', same⟩ := h.exists_value given
    rw [given']
    exact Attempt.follows_lift (follows_alloc same rfl)
  | none =>
    rw [h.eq_none given, h.text given]
    exact Attempt.follows_throw rfl

theorem follows_string (kind : s.current.kind = .string) : string.Follows S ρ.node string s s' := by
  refine follows_advance_bind fun t t' => follows_alloc ?_ rfl
  rw [ρ.text_token (by rw [kind]; decide)]
  rfl

theorem follows_grouping (h : inner.Follows S inner') :
    (grouping inner).Follows S ρ.node (grouping inner') s s' := by
  refine Attempt.follows_advance_bind fun t t' => ?_
  refine (follows_parse h).bind fun expr t t' _ => ?_
  refine (Attempt.follows_lift (follows_eat (by decide))).bind fun _ t t' _ => ?_
  exact Attempt.follows_pure rfl

/-! ### Names -/

theorem text_name (kind : s.current.kind = .identifier) :
    (ρ.token s.current).text = ρ.text s.current.text :=
  ρ.text_token (by rw [kind]; decide)

theorem follows_call (h : inner.Follows S inner')
    (text : (ρ.token s.current).text = ρ.text s.current.text) :
    (call inner).Follows S ρ.node (call inner') s s' := by
  refine follows_advance_bind fun t t' => follows_advance_bind fun t t' => ?_
  refine (follows_commaList fun t t' => follows_parseOrInvalid h).bind fun arguments t t' _ => ?_
  refine (follows_eat (by decide)).bind fun _ t t' _ => follows_alloc ?_ rfl
  rw [text]
  rfl

theorem follows_indexed (h : inner.Follows S inner')
    (text : (ρ.token s.current).text = ρ.text s.current.text) :
    (indexed inner).Follows S ρ.node (indexed inner') s s' := by
  refine follows_advance_bind fun t t' => follows_advance_bind fun t t' => ?_
  refine (follows_parseOrInvalid h).bind fun index t t' _ => ?_
  refine (follows_eat (by decide)).bind fun _ t t' _ => follows_alloc ?_ rfl
  rw [text]
  rfl

theorem follows_member (h : inner.Follows S inner')
    (text : (ρ.token s.current).text = ρ.text s.current.text) :
    (member inner).Follows S ρ.node (member inner') s s' := by
  refine Attempt.follows_advance_bind fun t t' => ?_
  refine (Attempt.follows_lift (follows_alloc ?_ rfl)).bind fun object t t' _ => ?_
  · rw [text]
    rfl
  refine Attempt.follows_advance_bind fun t t' => Attempt.follows_current_bind ?_
  refine Attempt.follows_ite (fun isName => ?_) fun _ => Attempt.follows_throw rfl
  refine (h.identifier _ _ isName).bind fun field t t' _ => ?_
  exact Attempt.follows_lift (follows_alloc rfl rfl)

theorem follows_name (text : (ρ.token s.current).text = ρ.text s.current.text) :
    name.Follows S ρ.node name s s' := by
  refine follows_advance_bind fun t t' => follows_alloc ?_ rfl
  rw [text]
  rfl

/-- Whatever follows a name, the name is passed. -/
theorem reaches_identifier (inner : Inner) (s : State) :
    s.advance.Reaches ((identifier inner).run.run s).2 := by
  unfold identifier
  rw [Attempt.run_bind]
  simp only [Attempt.run_lift, run_peek]
  split
  · show s.advance.Reaches ((call inner).run s).2
    exact reaches_advance_bind _ s
  · show s.advance.Reaches ((indexed inner).run s).2
    exact reaches_advance_bind _ s
  · exact Attempt.reaches_advance_bind _ s
  · show s.advance.Reaches (name.run s).2
    exact reaches_advance_bind _ s

theorem follows_identifier (h : inner.Follows S inner')
    (text : (ρ.token s.current).text = ρ.text s.current.text) :
    (identifier inner).Follows S ρ.node (identifier inner') s s' := by
  refine Attempt.follows_peek_bind (reaches_identifier inner s) ?_
  rw [ρ.kind_token]
  split
  · exact Attempt.follows_lift (follows_call h text)
  · exact Attempt.follows_lift (follows_indexed h text)
  · exact follows_member h text
  · exact Attempt.follows_lift (follows_name text)

theorem follows_primary (h : inner.Follows S inner') :
    (primary inner).Follows S ρ.node (primary inner') s s' := by
  refine Attempt.follows_current_bind ?_
  rw [ρ.kind_token]
  split
  · exact follows_prefixed h
  · exact follows_prefixed h
  · exact follows_prefixed h
  · exact Attempt.follows_lift follows_boolean
  · exact Attempt.follows_lift follows_boolean
  · exact follows_numeral (ρ.rereads_integer ‹_›)
  · exact follows_numeral (ρ.rereads_float ‹_›)
  · exact Attempt.follows_lift (follows_string ‹_›)
  · exact follows_identifier h (text_name ‹_›)
  · exact follows_grouping h
  · exact Attempt.follows_throw rfl

theorem follows_refusing (limit_eq : ∀ s s', S.rel s s' → s'.limit = s.limit) :
    Inner.refusing.Follows S Inner.refusing where
  primary _ _ := follows_tooDeep limit_eq
  binary _ _ _ _ := follows_tooDeep limit_eq
  identifier _ _ _ := follows_tooDeep limit_eq

theorem follows_around (h : inner.Follows S inner') :
    (Inner.around inner).Follows S (Inner.around inner') where
  primary _ _ := follows_primary h
  binary _ _ left p := follows_binary h left p
  identifier _ _ kind := follows_identifier h (text_name kind)

end Expression

namespace Statement

/-- The parsers of one level follow those of another. -/
structure Inner.Follows (S : Simulation ρ) (inner inner' : Inner) : Prop where
  exprs : inner.exprs.Follows S inner'.exprs
  statement : ∀ s s', inner.statement.Follows S ρ.node inner'.statement s s'
  conditional : ∀ s s' branch,
    (inner.conditional branch).Follows S ρ.node (inner'.conditional branch) s s'

variable {inner inner' : Inner}

theorem follows_expression (h : inner.Follows S inner') :
    (expression inner).Follows S ρ.node (expression inner') s s' := by
  refine follows_current_bind ?_
  refine (Expression.follows_parseOrInvalid h.exprs).bind fun expr t t' _ => ?_
  exact follows_alloc rfl rfl

/-- The text of a required name is renamed as names are. -/
theorem text_identifier {t : Token} (kind : t.kind = .identifier) :
    (ρ.token t).text = ρ.text t.text :=
  ρ.text_token (by rw [kind]; decide)

theorem follows_varDecl (h : inner.Follows S inner') :
    (varDecl inner).Follows S ρ.node (varDecl inner') s s' := by
  refine follows_advance_bind fun t t' => ?_
  refine follows_eat_bind (by decide) fun name t t' kind => ?_
  refine (follows_eat (by decide)).bind fun _ t t' _ => ?_
  refine DataType.follows_parseOrInvalid.bind fun type t t' _ => ?_
  refine (follows_eat (by decide)).bind fun _ t t' _ => ?_
  refine (Expression.follows_parseOrInvalid h.exprs).bind fun value t t' _ => ?_
  refine (follows_eat (by decide)).bind fun _ t t' _ => follows_alloc ?_ rfl
  rw [text_identifier kind]
  rfl

theorem follows_returnValue (h : inner.Follows S inner') :
    (returnValue inner).Follows S (Option.map ρ.node) (returnValue inner') s s' := by
  refine follows_current_bind (follows_ite (fun _ => follows_pure rfl) fun _ => ?_)
  exact (Expression.follows_parseOrInvalid h.exprs).bind fun value t t' _ => follows_pure rfl

theorem follows_returnStmt (h : inner.Follows S inner') :
    (returnStmt inner).Follows S ρ.node (returnStmt inner') s s' := by
  refine follows_advance_bind fun t t' => (follows_returnValue h).bind fun value t t' _ => ?_
  exact (follows_eat (by decide)).bind fun _ t t' _ => follows_alloc rfl rfl

/-! ### Blocks -/

theorem beforeBoundary?_eq (s s' : State) (related : S.rel s s') (live : S.live s) :
    beforeBoundary? s' = (beforeBoundary? s).map ρ.token := by
  unfold beforeBoundary?
  rw [S.current_eq related live, ρ.kind_token]
  split <;> rfl

theorem follows_blockRound (h : inner.Follows S inner') (token token' : Token)
    (body : Array NodeId) :
    (blockRound inner token body).Follows S (Array.map ρ.node)
      (blockRound inner' token' (body.map ρ.node)) s s' := by
  refine (follows_recover (h.statement s s')).bind fun id t t' _ => follows_pure ?_
  rw [Array.map_push]

theorem follows_statements (h : inner.Follows S inner') :
    (statements inner).Follows S (Array.map ρ.node) (statements inner') s s' := by
  have followed : (foldWhile beforeBoundary? (blockRound inner) (moves_blockRound inner) #[]).Follows S
      (Array.map ρ.node) (foldWhile beforeBoundary? (blockRound inner') (moves_blockRound inner')
        (Array.map ρ.node #[])) s s' :=
    Follows.foldWhile ρ.token beforeBoundary?_eq
      (fun token body _ _ _ => follows_blockRound h token (ρ.token token) body) #[]
  rwa [Array.map_empty] at followed

theorem follows_block (h : inner.Follows S inner') :
    (block inner).Follows S ρ.node (block inner') s s' := by
  refine Attempt.follows_current_bind (Attempt.follows_ite (fun _ => ?_) fun _ => ?_)
  · refine Attempt.follows_advance_bind fun t t' => ?_
    refine (Attempt.follows_lift (follows_statements h)).bind fun body t t' _ => ?_
    refine (Attempt.follows_lift (follows_eat (by decide))).bind fun _ t t' _ => ?_
    refine Attempt.follows_lift (follows_alloc ?_ rfl)
    simp [Renaming.construct]
  · exact Attempt.follows_throw rfl

theorem follows_blockOrInvalid (h : inner.Follows S inner') :
    (blockOrInvalid inner).Follows S ρ.node (blockOrInvalid inner') s s' :=
  follows_recover (follows_block h)

/-! ### Conditionals and loops -/

theorem follows_condition (h : inner.Follows S inner') (branch : Branch) :
    (condition inner branch).Follows S (Option.map ρ.node) (condition inner' branch) s s' := by
  cases branch with
  | ifBranch | elifBranch =>
    exact (Expression.follows_parseOrInvalid h.exprs).bind fun expr t t' _ => follows_pure rfl
  | elseBranch => exact follows_pure rfl

theorem follows_nextLink (h : inner.Follows S inner') (branch : Branch) :
    (nextLink inner branch).Follows S (Option.map ρ.node) (nextLink inner' branch) s s' := by
  refine Attempt.follows_current_bind ?_
  rw [ρ.kind_token]
  split
  · exact Attempt.follows_pure rfl
  · exact (h.conditional s s' .elifBranch).bind fun link t t' _ => Attempt.follows_pure rfl
  · exact (h.conditional s s' .elseBranch).bind fun link t t' _ => Attempt.follows_pure rfl
  · exact Attempt.follows_pure rfl

theorem follows_conditional (h : inner.Follows S inner') (branch : Branch) :
    (conditional inner branch).Follows S ρ.node (conditional inner' branch) s s' := by
  refine Attempt.follows_advance_bind fun t t' => ?_
  refine (Attempt.follows_lift (follows_condition h branch)).bind fun condition t t' _ => ?_
  refine (Attempt.follows_lift (follows_blockOrInvalid h)).bind fun body t t' _ => ?_
  refine (follows_nextLink h branch).bind fun next t t' _ => ?_
  exact Attempt.follows_lift (follows_alloc rfl rfl)

theorem follows_dangling (h : inner.Follows S inner') :
    (dangling inner).Follows S ρ.node (dangling inner') s s' := by
  refine Attempt.follows_current_bind ?_
  rw [ρ.kind_token]
  exact (follows_conditional h _).bind fun _ t t' _ => Attempt.follows_throw rfl

theorem follows_whileLoop (h : inner.Follows S inner') :
    (whileLoop inner).Follows S ρ.node (whileLoop inner') s s' := by
  refine follows_advance_bind fun t t' => ?_
  refine (Expression.follows_parseOrInvalid h.exprs).bind fun condition t t' _ => ?_
  exact (follows_blockOrInvalid h).bind fun body t t' _ => follows_alloc rfl rfl

theorem follows_doWhileLoop (h : inner.Follows S inner') :
    (doWhileLoop inner).Follows S ρ.node (doWhileLoop inner') s s' := by
  refine follows_advance_bind fun t t' => (follows_blockOrInvalid h).bind fun body t t' _ => ?_
  refine (follows_eat (by decide)).bind fun _ t t' _ => ?_
  refine (Expression.follows_parseOrInvalid h.exprs).bind fun condition t t' _ => ?_
  exact (follows_eat (by decide)).bind fun _ t t' _ => follows_alloc rfl rfl

theorem follows_terminated (h : inner.Follows S inner') :
    (terminated inner).Follows S ρ.node (terminated inner') s s' := by
  refine (follows_expression h).bind fun stmt t t' _ => ?_
  exact (follows_eat (by decide)).bind fun _ t t' _ => follows_pure rfl

theorem follows_straight (h : inner.Follows S inner') :
    (straight inner).Follows S ρ.node (straight inner') s s' := by
  refine Attempt.follows_current_bind ?_
  rw [ρ.kind_token]
  split
  · exact Attempt.follows_lift (follows_varDecl h)
  · exact Attempt.follows_lift (follows_returnStmt h)
  · exact follows_conditional h .ifBranch
  · exact follows_dangling h
  · exact Attempt.follows_lift (follows_whileLoop h)
  · exact Attempt.follows_lift (follows_doWhileLoop h)
  · exact follows_block h
  · exact Attempt.follows_lift (follows_terminated h)

theorem follows_forOpening : forOpening.Follows S ρ.token forOpening s s' := by
  refine follows_advance_bind fun t t' => ?_
  exact (follows_eat (by decide)).bind fun _ t t' _ => follows_pure rfl

theorem follows_forClosing (h : inner.Follows S inner') (start : Token) (init : NodeId) :
    (forClosing inner start init).Follows S ρ.node
      (forClosing inner' (ρ.token start) (ρ.node init)) s s' := by
  refine (Expression.follows_parseOrInvalid h.exprs).bind fun condition t t' _ => ?_
  refine (follows_eat (by decide)).bind fun _ t t' _ => ?_
  refine (follows_expression h).bind fun action t t' _ => ?_
  refine (follows_eat (by decide)).bind fun _ t t' _ => ?_
  exact (follows_blockOrInvalid h).bind fun body t t' _ => follows_alloc rfl rfl

theorem follows_parse_of (h : inner.Follows S inner')
    (loops : s.current.kind.form? = some .forLoop → (forLoop inner).Follows S ρ.node (forLoop inner') s s') :
    (parse inner).Follows S ρ.node (parse inner') s s' := by
  refine Attempt.follows_current_bind (Attempt.follows_ite (fun isFor => ?_) fun _ => ?_)
  · exact Attempt.follows_lift (loops isFor)
  · exact follows_straight h

/-- A `for` in the initializer of a `for` stands behind a token more. -/
theorem follows_forLoop (h : inner.Follows S inner') (s s' : State) :
    (forLoop inner).Follows S ρ.node (forLoop inner') s s' := by
  rw [forLoop_eq, forLoop_eq]
  refine follows_forOpening.bind fun start t t' opened => ?_
  refine (follows_recover (follows_parse_of h fun isFor => ?_)).bind fun init t t' _ => ?_
  · have shorter : t.ahead.length < s.ahead.length := by
      have reached : (forOpening.run s).2 = t := by rw [opened]
      have moved := moves_forOpening (s := s) (reached ▸ isFor)
      rwa [Moves, reached] at moved
    exact follows_forLoop h t t'
  · exact follows_forClosing h start init
termination_by s.ahead.length

theorem follows_parse (h : inner.Follows S inner') :
    (parse inner).Follows S ρ.node (parse inner') s s' :=
  follows_parse_of h fun _ => follows_forLoop h s s'

theorem follows_refusing (limit_eq : ∀ s s', S.rel s s' → s'.limit = s.limit) :
    Inner.refusing.Follows S Inner.refusing where
  exprs := Expression.follows_refusing limit_eq
  statement _ _ := follows_tooDeep limit_eq
  conditional _ _ _ := follows_tooDeep limit_eq

theorem follows_around (h : inner.Follows S inner') :
    (Inner.around inner).Follows S (Inner.around inner') where
  exprs := Expression.follows_around h.exprs
  statement _ _ := follows_parse h
  conditional _ _ branch := follows_conditional h branch

/-- Where the limit is the same, the parsers of every level follow themselves. -/
theorem follows_ofRoom (limit_eq : ∀ s s', S.rel s s' → s'.limit = s.limit) :
    ∀ room : Nat, (Inner.ofRoom room).Follows S (Inner.ofRoom room)
  | 0 => follows_refusing limit_eq
  | room + 1 => follows_around (follows_ofRoom limit_eq room)

end Statement

namespace Item

open Statement (Inner beforeBoundary?_eq text_identifier)

variable {inner inner' : Inner}

theorem follows_parameter : parameter.Follows S ρ.node parameter s s' := by
  refine follows_eat_bind (by decide) fun name t t' kind => ?_
  have text : (ρ.token name).text = ρ.text name.text := text_identifier kind
  refine (follows_eat (by decide)).bind fun _ t t' _ => DataType.follows_token.settle ?_ ?_ ?_
  · refine fun type t t' _ => follows_alloc ?_ rfl
    rw [text]
    rfl
  · refine fun e t t' => follows_current_bind ((follows_record e).bind fun _ u u' _ => ?_)
    refine follows_alloc ?_ rfl
    rw [text]
    show _ = Construct.procParameter (ρ.text name.text) (ρ.token _)
    rw [ρ.token_missing (by decide)]
    rfl
  · exact fun e t => .alloc _ _ .refl

theorem follows_procedure (h : inner.Follows S inner') :
    (procedure inner).Follows S ρ.node (procedure inner') s s' := by
  refine follows_advance_bind fun t t' => ?_
  refine follows_eat_bind (by decide) fun name t t' kind => ?_
  refine (follows_eat (by decide)).bind fun _ t t' _ => ?_
  refine (follows_commaList fun t t' => follows_parameter).bind fun parameters t t' _ => ?_
  refine (follows_eat (by decide)).bind fun _ t t' _ => ?_
  refine (follows_eat (by decide)).bind fun _ t t' _ => ?_
  refine DataType.follows_parseOrInvalid.bind fun type t t' _ => ?_
  refine (Statement.follows_blockOrInvalid h).bind fun body t t' _ => follows_alloc ?_ rfl
  rw [text_identifier kind]
  rfl

theorem follows_field (kind : s.current.kind = .identifier) :
    field.Follows S ρ.node field s s' := by
  refine follows_advance_bind fun t t' => (follows_eat (by decide)).bind fun _ t t' _ => ?_
  refine DataType.follows_parseOrInvalid.bind fun type t t' _ => ?_
  refine (follows_eat (by decide)).bind fun _ t t' _ => follows_alloc ?_ rfl
  rw [text_identifier kind]
  rfl

/-- The members of a struct, renamed. -/
def Members.rename (ρ : Renaming) (members : Members) : Members :=
  ⟨members.fields.map ρ.node, members.methods.map ρ.node⟩

theorem follows_memberRound (h : inner.Follows S inner') (members : Members) :
    (memberRound inner s.current members).Follows S (Members.rename ρ)
      (memberRound inner' (ρ.token s.current) (members.rename ρ)) s s' := by
  have method : (do
      let id ← procedure inner
      return { members with methods := members.methods.push id } : Parser Members).Follows S
        (Members.rename ρ) (do
      let id ← procedure inner'
      return { members.rename ρ with methods := (members.rename ρ).methods.push id }) s s' :=
    (follows_procedure h).bind fun id t t' _ => follows_pure (by simp [Members.rename])
  unfold memberRound
  rw [ρ.kind_token]
  split
  · exact (follows_field ‹_›).bind fun id t t' _ => follows_pure (by simp [Members.rename])
  · exact method
  · exact method
  · refine (follows_record _).bind fun _ t t' _ => ?_
    exact follows_advance_bind fun t t' => follows_pure rfl

theorem follows_members (h : inner.Follows S inner') :
    (members inner).Follows S (Members.rename ρ) (members inner') s s' := by
  have followed : (foldWhile Statement.beforeBoundary? (memberRound inner) (moves_memberRound inner)
      ⟨#[], #[]⟩).Follows S (Members.rename ρ) (foldWhile Statement.beforeBoundary?
        (memberRound inner') (moves_memberRound inner') (Members.rename ρ ⟨#[], #[]⟩)) s s' := by
    refine Follows.foldWhile ρ.token beforeBoundary?_eq (fun token members t t' given => ?_) _
    obtain rfl := Statement.current_of_beforeBoundary? given
    exact follows_memberRound h members
  have none : Members.rename ρ ⟨#[], #[]⟩ = ⟨#[], #[]⟩ := by simp [Members.rename]
  rwa [none] at followed

theorem follows_struct (h : inner.Follows S inner') :
    (struct inner).Follows S ρ.node (struct inner') s s' := by
  refine follows_advance_bind fun t t' => ?_
  refine follows_eat_bind (by decide) fun name t t' kind => ?_
  refine (follows_eat (by decide)).bind fun _ t t' _ => ?_
  refine (follows_members h).bind fun members t t' _ => ?_
  refine (follows_eat (by decide)).bind fun _ t t' _ => follows_alloc ?_ rfl
  rw [text_identifier kind]
  simp [Renaming.construct, Members.rename]

theorem follows_programRound (h : inner.Follows S inner') (skipping : Bool) :
    (programRound inner s.current skipping).Follows S id
      (programRound inner' (ρ.token s.current) skipping) s s' := by
  have rooted : ∀ {item item' : Parser NodeId}, item.Follows S ρ.node item' s s' →
      (item >>= fun id => pushRoot id >>= fun _ => pure false).Follows S id
        (item' >>= fun id => pushRoot id >>= fun _ => pure false) s s' := by
    intro item item' follows
    refine follows.bind fun root t t' _ => (follows_pushRoot root).bind fun _ t t' _ => ?_
    exact follows_pure rfl
  have stray : (reportStray s.current skipping).Follows S id
      (reportStray (ρ.token s.current) skipping) s s' := by
    unfold reportStray
    exact follows_ite (fun _ => follows_pure rfl) fun _ => follows_record _
  unfold programRound ofToken?
  rw [ρ.kind_token]
  cases s.current.kind
  case kwProc => exact rooted (follows_procedure h)
  case kwDefine => exact rooted (follows_procedure h)
  case kwStruct => exact rooted (follows_struct h)
  case kwLet => exact rooted (Statement.follows_varDecl h)
  all_goals
    exact stray.bind fun _ t t' _ => follows_advance_bind fun t t' => follows_pure rfl

theorem beforeEnd?_eq (s s' : State) (related : S.rel s s') (live : S.live s) :
    beforeEnd? s' = (beforeEnd? s).map ρ.token := by
  unfold beforeEnd?
  rw [S.current_eq related live, ρ.kind_token]
  split <;> rfl

theorem follows_items (h : inner.Follows S inner') (skipping : Bool) :
    (items inner skipping).Follows S id (items inner' skipping) s s' := by
  refine Follows.foldWhile ρ.token beforeEnd?_eq (fun token skipping t t' given => ?_) skipping
  obtain ⟨rfl, -⟩ := current_of_beforeEnd? given
  exact follows_programRound h skipping

/-- **The parser of a file follows itself.** -/
theorem follows_program (h : inner.Follows S inner') :
    (program inner).Follows S id (program inner') s s' :=
  (follows_items h false).bind fun _ _ _ _ => follows_pure rfl

end Item

/-! ### A parse of renamed tokens -/

/-- Each state of a parse is followed by the renamed state. -/
def Parser.Simulation.ofRenaming (ρ : Renaming) : Simulation ρ where
  rel s s' := s' = ρ.state s
  live _ := True
  live_of_reaches _ _ := trivial
  current_eq := by
    rintro s _ rfl -
    exact ρ.state_current s
  advance := by
    rintro s _ rfl -
    exact (ρ.state_advance s).symm
  record := by
    rintro s _ e rfl -
    exact (ρ.state_record s e).symm
  alloc_fst := by
    rintro s _ c t rfl
    rw [ρ.state_alloc]
  alloc_snd := by
    rintro s _ c t rfl
    rw [ρ.state_alloc]
  pushRoot := by
    rintro s _ id rfl
    exact (ρ.state_pushRoot s id).symm

/-- **Parsing and renaming**, in either order. -/
theorem Renaming.run_program (ρ : Renaming) (room : Nat) (s : State) :
    ((Item.program (Statement.Inner.ofRoom room)).run (ρ.state s)).2 =
      ρ.state ((Item.program (Statement.Inner.ofRoom room)).run s).2 := by
  have limit_eq : ∀ s s', (Simulation.ofRenaming ρ).rel s s' → s'.limit = s.limit := by
    rintro s _ rfl
    rfl
  exact (Item.follows_program (Statement.follows_ofRoom limit_eq room) rfl trivial).2

end Viper
