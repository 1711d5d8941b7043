/-
# A printed expression is parsed back

An expression stops at its own end, whatever follows it, as long as what follows could not go on with it:
an operand is not followed by what would index, call or select from a name, and a whole expression
moreover not by an operator. The canonical text keeps to that, with parentheses around the operands that
are binary operators themselves. So the words of an expression are accepted where it stands, if there are
levels enough for it (`Expression.accepted`). Data types, which are one word, are accepted likewise.

Key definitions: `Expression.AcceptsOperand`, `Expression.AcceptsWhole`, `Expression.Accepted`.
Key theorems: `Expression.accepted`, `DataType.accepts_parseOrInvalid`.
-/
import ViperFrontend.Proofs.Parser.Accepting
import ViperFrontend.Proofs.Parser.Construction

namespace Viper

open Viper.Parser Program
open Word (symbol nextKind)

/-- The kinds of token that do not go on with an expression. -/
def TokenKind.endsExpression (kind : TokenKind) : Bool :=
  kind.endsOperand && kind.precedence?.isNone

variable {s last : State} {rest : List Word}

theorem operator?_of_endsExpression (here : s.Ahead rest)
    (follow : (nextKind rest).endsExpression = true) : Expression.operator? s = none := by
  unfold Expression.operator?
  rw [here.kind_current]
  exact Option.isNone_iff_eq_none.1 (Bool.and_eq_true_iff.1 follow).2

/-- The digits of a number are read as the number. -/
theorem Literal.integer?_toDigits (value : UInt64) :
    Literal.integer? (String.ofList (Nat.toDigits 10 value.toNat)) = some value := by
  have decimal : Literal.decimalValue (Nat.toDigits 10 value.toNat) = value.toNat := by
    rw [Literal.decimalValue, ← Nat.ofDigitChars_eq_foldl]
    exact Nat.ofDigitChars_ten_toDigits
  have small : value.toNat < UInt64.size := value.toNat_lt
  simp only [Literal.integer?, String.toList_ofList, decimal, if_pos small, UInt64.ofNat_toNat]

namespace Expression

/-- The tree of the expression is at the node. -/
abbrev Holds (last : State) (e : Expr Unit) (node : NodeId) : Prop :=
  last.ast.HoldsExpr Token.forget node e

/-- The words of an operand are accepted where an operand stands. -/
def AcceptsOperand (last : State) (e : Expr Unit) : Prop :=
  ∀ room s rest, s.Ahead (e.operand ++ rest) → (nextKind rest).endsOperand = true →
    (primary (.ofRoom room)).Accepts last s (e.operandLevels ≤ room) rest (Holds last e)

/-- The words of a whole expression are accepted as such. -/
def AcceptsWhole (last : State) (e : Expr Unit) : Prop :=
  ∀ room s rest, s.Ahead (e.words ++ rest) → (nextKind rest).endsExpression = true →
    (parse (.ofRoom room)).Accepts last s (e.levels ≤ room) rest (Holds last e)

/-- The words of a name with what follows it are accepted as such. -/
def AcceptsNamed (last : State) (e : Expr Unit) : Prop :=
  ∀ room s rest, s.Ahead (e.words ++ rest) → (nextKind rest).endsOperand = true →
    (identifier (.ofRoom room)).Accepts last s (e.operandLevels ≤ room) rest (Holds last e)

variable {e : Expr Unit} {room : Nat}

/-- An operand that is one level further in. -/
theorem accepts_inner_primary (h : AcceptsOperand last e) (here : s.Ahead (e.operand ++ rest))
    (follow : (nextKind rest).endsOperand = true) :
    (Inner.ofRoom room).primary.Accepts last s (e.operandLevels + 1 ≤ room) rest
      (Holds last e) := by
  rw [Inner.ofRoom_primary]
  exact accepts_nested fun room => h room s rest here follow

theorem acceptsWhole_of_operand (notBinary : e.isBinary = false) (h : AcceptsOperand last e) :
    AcceptsWhole last e := by
  intro room s rest here follow
  have ends : (nextKind rest).endsOperand = true := (Bool.and_eq_true_iff.1 follow).1
  have operand : s.Ahead (e.operand ++ rest) := by
    simpa [Expr.operand, operandWords, notBinary] using here
  have levels : e.levels = e.operandLevels + 1 := by
    simp [Expr.levels, notBinary]
  rw [levels]
  refine (accepts_inner_primary h operand ends).bind id fun node t yes here held => ?_
  exact Attempt.accepts_foldWhile_done (operator?_of_endsExpression here follow) yes here held

theorem accepts_binary {right : Expr Unit} {op : TokenKind} (h : AcceptsOperand last right)
    (left : NodeId) (p : Precedence) (here : s.Ahead (symbol op :: (right.operand ++ rest)))
    (follow : (nextKind rest).endsExpression = true) :
    (binary (.ofRoom room) left p).Accepts last s (right.operandLevels + 1 ≤ room) rest fun node =>
      ∃ r, last.ast.Shows Token.forget node (.binary left op r) () ∧ Holds last right r := by
  have ends : (nextKind rest).endsOperand = true := (Bool.and_eq_true_iff.1 follow).1
  refine Attempt.accepts_advance_bind here fun operator t word after => ?_
  obtain rfl : operator.kind = op := congrArg Word.kind word
  refine (accepts_inner_primary h after ends).bind id fun operand t yes here held => ?_
  refine (Attempt.accepts_foldWhile_done (Q := Holds last right) ?_ yes here held).bind id ?_
  · rw [operator?_of_endsExpression here follow]
    rfl
  · intro r t yes here held
    exact Attempt.accepts_lift (accepts_alloc yes here fun node shown => ⟨r, shown, held⟩)

theorem acceptsWhole_binary {left right : Expr Unit} {op : TokenKind}
    (isOperator : op.precedence?.isSome = true) (hl : AcceptsOperand last left)
    (hr : AcceptsOperand last right) : AcceptsWhole last (.binary () left op right) := by
  intro room s rest here follow
  obtain ⟨p, isP⟩ := Option.isSome_iff_exists.1 isOperator
  have first : s.Ahead (left.operand ++ (symbol op :: (right.operand ++ rest))) := by
    simpa [Expr.words, Expr.operand] using here
  have levels : (Expr.binary () left op right).levels =
      max left.operandLevels right.operandLevels + 1 := by
    simp [Expr.levels, Expr.isBinary, Expr.operandLevels]
  rw [levels]
  refine (accepts_inner_primary hl first (TokenKind.endsOperand_of_precedence? isOperator)).bind
    (by omega) fun l t yes here heldLeft => ?_
  have given : operator? t = some p := by
    unfold operator?
    rw [here.kind_current]
    exact isP
  refine Attempt.accepts_foldWhile_again given ?_
  refine (accepts_binary hr l p here follow).bind (by omega) ?_
  rintro node t yes' here ⟨r, shown, heldRight⟩
  refine Attempt.accepts_foldWhile_done (operator?_of_endsExpression here follow) (by omega) here ?_
  exact .binary shown heldLeft heldRight

/-- A binary operator stands in parentheses where an operand does. -/
theorem acceptsOperand_of_whole (isBinary : e.isBinary = true) (h : AcceptsWhole last e) :
    AcceptsOperand last e := by
  intro room s rest here _
  have opening : s.Ahead (symbol .openParen :: (e.words ++ symbol .closeParen :: rest)) := by
    simpa [Expr.operand, operandWords, isBinary] using here
  have levels : e.levels = e.operandLevels := by
    simp [Expr.levels, isBinary]
  rw [← levels]
  apply Attempt.accepts_look_bind
  rw [show s.current.kind = .openParen from opening.kind_current]
  refine Attempt.accepts_advance_bind opening fun _ t _ here => ?_
  refine (h room t _ here rfl).bind id fun node t yes here held => ?_
  refine accepts_lift_eat_bind here rfl fun _ t _ here => ?_
  exact Attempt.accepts_pure yes here held

theorem acceptsOperand_of_named (isNamed : e.isNamed = true) (h : AcceptsNamed last e) :
    AcceptsOperand last e := by
  intro room s rest here follow
  have operand : e.operand = e.words := by
    cases e <;> first | rfl | cases isNamed
  have kind : s.current.kind = .identifier := by
    rw [here.kind_current, operand]
    cases e <;> first | rfl | cases isNamed
  rw [operand] at here
  apply Attempt.accepts_look_bind
  rw [kind]
  exact h room s rest here follow

/-- A literal is one word. -/
theorem accepts_literal {make : Token → Construct} {w : Word} {fits : Prop} {Q : NodeId → Prop}
    (here : s.Ahead (w :: rest)) (yes : fits)
    (h : ∀ token node, token.word = w → last.ast.Shows Token.forget node (make token) () → Q node) :
    (advance >>= fun token => alloc (make token) token).Accepts last s fits rest Q :=
  accepts_advance_bind here fun token _ word here =>
    accepts_alloc yes here fun node shown => h token node word shown

theorem acceptsOperand_integer (value : UInt64) : AcceptsOperand last (.integer () value) := by
  intro room s rest here _
  apply Attempt.accepts_look_bind
  rw [show s.current.kind = .integer from here.kind_current]
  refine Attempt.accepts_advance_bind here fun token t word here => ?_
  have text : token.text = String.ofList (Nat.toDigits 10 value.toNat) :=
    congrArg Word.text word
  rw [text, Literal.integer?_toDigits]
  exact Attempt.accepts_lift (accepts_alloc (Nat.zero_le _) here fun node shown => .integer shown)

theorem acceptsOperand_boolean (value : Bool) : AcceptsOperand last (.boolean () value) := by
  intro room s rest here _
  have literal : Expression.boolean.Accepts last s (0 ≤ room) rest (Holds last (.boolean () value)) := by
    refine accepts_literal here (Nat.zero_le _) fun token node word shown => .boolean ?_
    have kind : token.kind = if value then .kwTrue else .kwFalse := congrArg Word.kind word
    cases value <;> simpa [kind] using shown
  apply Attempt.accepts_look_bind
  rw [here.kind_current]
  cases value <;> exact literal

theorem acceptsOperand_string (value : String) : AcceptsOperand last (.string () value) := by
  intro room s rest here _
  apply Attempt.accepts_look_bind
  rw [show s.current.kind = .string from here.kind_current]
  refine Attempt.accepts_lift
    (accepts_literal here (Nat.zero_le _) fun token node word shown => .string ?_)
  rwa [show token.text = value from congrArg Word.text word] at shown

theorem acceptsOperand_prefixed {op : TokenKind} (isOperator : op.isPrefixOperator = true)
    (h : AcceptsOperand last e) : AcceptsOperand last (.prefixed () op e) := by
  intro room s rest here follow
  have opening : s.Ahead (symbol op :: (e.operand ++ rest)) := here
  have kind : s.current.kind = op := opening.kind_current
  have accepts : (prefixed (.ofRoom room)).Accepts last s (e.operandLevels + 1 ≤ room) rest
      (Holds last (.prefixed () op e)) := by
    refine Attempt.accepts_advance_bind opening fun operator t word after => ?_
    obtain rfl : operator.kind = op := congrArg Word.kind word
    refine (accepts_inner_primary h after follow).bind id fun operand t yes here held => ?_
    exact Attempt.accepts_lift (accepts_alloc yes here fun node shown => .prefixed shown held)
  apply Attempt.accepts_look_bind
  rw [kind]
  cases op <;> first | exact accepts | cases isOperator

theorem acceptsNamed_name (n : String) : AcceptsNamed last (.name () n) := by
  intro room s rest here follow
  have kind : s.peek.kind = nextKind rest := State.Ahead.kind_peek here
  apply Attempt.accepts_look_bind
  rw [kind]
  split
  · rename_i isParen
    simp [isParen, TokenKind.endsOperand] at follow
  · rename_i isBracket
    simp [isBracket, TokenKind.endsOperand] at follow
  · rename_i isDot
    simp [isDot, TokenKind.endsOperand] at follow
  · refine Attempt.accepts_lift
      (accepts_literal here (Nat.zero_le _) fun token node word shown => .name ?_)
    rwa [show token.text = n from congrArg Word.text word] at shown

theorem acceptsNamed_index (n : String) (h : AcceptsWhole last e) :
    AcceptsNamed last (.index () n e) := by
  intro room s rest here _
  have opening : s.Ahead (nameWord n :: symbol .openBracket ::
      (e.words ++ symbol .closeBracket :: rest)) := by
    simpa [Expr.words] using here
  have levels : (Expr.index () n e).operandLevels = e.levels := rfl
  rw [levels]
  apply Attempt.accepts_look_bind
  rw [show s.peek.kind = .openBracket from opening.kind_peek]
  apply Attempt.accepts_lift
  refine accepts_advance_bind opening fun token t word here => ?_
  refine accepts_advance_bind here fun _ t _ here => ?_
  refine (accepts_recover (h room t _ here rfl)).bind id fun index t yes here held => ?_
  refine accepts_eat_bind here rfl fun _ t _ here => ?_
  rw [show token.text = n from congrArg Word.text word]
  exact accepts_alloc yes here fun node shown => .index shown held

theorem acceptsNamed_call {arguments : List (Expr Unit)} (callee : String)
    (valid : ∀ e ∈ arguments, e.isValid = true)
    (h : ∀ e ∈ arguments, AcceptsWhole last e) :
    AcceptsNamed last (.call () callee arguments) := by
  intro room s rest here _
  have opening : s.Ahead (nameWord callee :: symbol .openParen ::
      (commaSeparated (arguments.map Expr.words) ++ symbol .closeParen :: rest)) := by
    simpa [Expr.words, Expr.wordsOf_eq_map] using here
  have levels : (Expr.call () callee arguments).operandLevels =
      (arguments.map Expr.levels).foldr max 0 := Expr.argumentLevels_eq_foldr arguments
  rw [levels, foldr_max_le_iff]
  have items : ∀ e ∈ arguments, AcceptsItem (parseOrInvalid (.ofRoom room)) last
      (·.levels ≤ room) Expr.words (fun node e => Holds last e node) e := by
    intro e mem t rest follow here
    have starts := here.kind_current ▸ e.startsExpression_words (valid e mem) rest
    refine ⟨?_, ?_, accepts_recover (h e mem room t rest here ?_)⟩
    · intro isClosing
      simp [isClosing, TokenKind.startsExpression] at starts
    · intro isEof
      simp [isEof, TokenKind.startsExpression] at starts
    · rcases follow with kind | kind <;> rw [kind] <;> rfl
  apply Attempt.accepts_look_bind
  rw [show s.peek.kind = .openParen from opening.kind_peek]
  apply Attempt.accepts_lift
  refine accepts_advance_bind opening fun token t word here => ?_
  refine accepts_advance_bind here fun _ t _ here => ?_
  refine (accepts_commaList items here rfl).bind id fun ids t yes here held => ?_
  refine accepts_eat_bind here rfl fun _ t _ here => ?_
  rw [show token.text = callee from congrArg Word.text word]
  exact accepts_alloc yes here fun node shown => .call shown held

theorem accepts_inner_identifier (h : AcceptsNamed last e) (here : s.Ahead (e.words ++ rest))
    (follow : (nextKind rest).endsOperand = true) :
    (Inner.ofRoom room).identifier.Accepts last s (e.operandLevels + 1 ≤ room) rest
      (Holds last e) := by
  rw [Inner.ofRoom_identifier]
  exact accepts_nested fun room => h room s rest here follow

theorem acceptsNamed_member (object : String) (isNamed : e.isNamed = true)
    (h : AcceptsNamed last e) : AcceptsNamed last (.member () () object e) := by
  intro room s rest here follow
  have opening : s.Ahead (nameWord object :: symbol .dot :: (e.words ++ rest)) := here
  have kind : nextKind (e.words ++ rest) = .identifier := by
    cases e <;> first | rfl | cases isNamed
  have levels : (Expr.member () () object e).operandLevels = e.operandLevels + 1 := rfl
  rw [levels]
  apply Attempt.accepts_look_bind
  rw [show s.peek.kind = .dot from opening.kind_peek]
  refine Attempt.accepts_advance_bind opening fun token t word here => ?_
  rw [show token.text = object from congrArg Word.text word]
  refine Attempt.Accepts.bind (Attempt.accepts_lift (accepts_alloc trivial here fun _ shown => shown))
    (fun _ => trivial) fun o t _ here shownObject => ?_
  refine Attempt.accepts_advance_bind here fun dot t _ here => ?_
  apply Attempt.accepts_look_bind
  rw [if_pos (here.kind_current.trans kind)]
  refine (accepts_inner_identifier h here follow).bind id fun field t yes here held => ?_
  exact Attempt.accepts_lift (accepts_alloc yes here fun node shown =>
    .member shown shownObject held)

/-- The words of an expression are accepted wherever it may stand. -/
structure Accepted (last : State) (e : Expr Unit) : Prop where
  operand : AcceptsOperand last e
  whole : AcceptsWhole last e
  named : e.isNamed = true → AcceptsNamed last e

theorem Accepted.of_operand (notBinary : e.isBinary = false) (notNamed : e.isNamed = false)
    (h : AcceptsOperand last e) : Accepted last e where
  operand := h
  whole := acceptsWhole_of_operand notBinary h
  named isNamed := absurd (notNamed.symm.trans isNamed) (by decide)

theorem Accepted.of_named (notBinary : e.isBinary = false) (isNamed : e.isNamed = true)
    (h : AcceptsNamed last e) : Accepted last e where
  operand := acceptsOperand_of_named isNamed h
  whole := acceptsWhole_of_operand notBinary (acceptsOperand_of_named isNamed h)
  named _ := h

/-- **Every expression that can be written is accepted.** -/
theorem accepted (e : Expr Unit) (valid : e.isValid = true) : Accepted last e := by
  match e with
  | .integer _ value => exact .of_operand rfl rfl (acceptsOperand_integer value)
  | .float .. => cases valid
  | .boolean _ value => exact .of_operand rfl rfl (acceptsOperand_boolean value)
  | .string _ value => exact .of_operand rfl rfl (acceptsOperand_string value)
  | .name _ n => exact .of_named rfl rfl (acceptsNamed_name n)
  | .index _ n i =>
    have index := accepted i (Bool.and_eq_true_iff.1 valid).2
    exact .of_named rfl rfl (acceptsNamed_index n index.whole)
  | .call _ callee arguments =>
    have valid : ∀ e ∈ arguments, e.isValid = true := fun e mem =>
      Expr.isValid_of_mem (Bool.and_eq_true_iff.1 valid).2 mem
    have all : ∀ e ∈ arguments, AcceptsWhole last e := fun e mem => (accepted e (valid e mem)).whole
    exact .of_named rfl rfl (acceptsNamed_call callee valid all)
  | .member _ _ object field =>
    simp only [Expr.isValid, Bool.and_eq_true] at valid
    have named := (accepted field valid.2).named valid.1.2
    exact .of_named rfl rfl (acceptsNamed_member object valid.1.2 named)
  | .prefixed _ op e =>
    obtain ⟨isOperator, inner⟩ := Bool.and_eq_true_iff.1 valid
    exact .of_operand rfl rfl (acceptsOperand_prefixed isOperator (accepted e inner).operand)
  | .binary _ left op right =>
    simp only [Expr.isValid, Bool.and_eq_true] at valid
    have first := (accepted left valid.1.2).operand
    have second := (accepted right valid.2).operand
    have whole := acceptsWhole_binary valid.1.1 first second
    exact ⟨acceptsOperand_of_whole rfl whole, whole, fun isNamed => absurd isNamed Bool.false_ne_true⟩
termination_by sizeOf e

end Expression

/-! ### Data types -/

namespace DataType

variable {type : TypeRef Unit}

theorem accepts_token (here : s.Ahead (type.word :: rest)) :
    token.Accepts last s True rest fun t => t.text = type.name := by
  have text : type.word.text = type.name := by
    unfold TypeRef.word
    split
    · rename_i isVoid
      rw [isVoid]
      rfl
    · rfl
  have kind : s.current.kind = .identifier ∨ s.current.kind = .kwVoid := by
    rw [here.kind_current]
    show type.word.kind = _ ∨ type.word.kind = _
    unfold TypeRef.word
    split
    · exact .inr rfl
    · exact .inl rfl
  have pass : advance.Accepts last s True rest fun t => t.text = type.name :=
    accepts_advance here trivial fun t word => (congrArg Word.text word).trans text
  apply Attempt.accepts_look_bind
  rcases kind with kind | kind <;> rw [kind] <;> exact pass

theorem accepts_parseOrInvalid (here : s.Ahead (type.word :: rest)) :
    parseOrInvalid.Accepts last s True rest fun node =>
      last.ast.HoldsType Token.forget node type := by
  refine accepts_recover ((accepts_token here).bind id fun t u yes here text => ?_)
  rw [text]
  exact Attempt.accepts_lift (accepts_alloc yes here fun node shown => shown)

end DataType
end Viper
