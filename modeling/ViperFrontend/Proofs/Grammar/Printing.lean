/-
# The canonical text of a program

A program is written word by word, with a space between each two of them. A binary operator
that is an operand of another operator stands in parentheses, and the fields of a struct come
before its methods; otherwise there is one way to write each construct.

Not every tree of the types of `Tree` can be written: names must be names, a string cannot hold
a quote, and a float has no canonical text here (`Expr.isValid`, `Stmt.isValid`,
`ItemDecl.isValid`). A construct that can be written opens some number of levels when it is
parsed, which is also a matter of its tree (`Expr.levels`, `Stmt.levels`, `ItemDecl.levels`).

Key definitions: `Program.Expr.words`, `Program.Stmt.words`, `Program.ItemDecl.words`,
`Program.text`.
Key theorems: `Program.ItemDecl.all_isSpelled`.
-/
import ViperFrontend.Number.Literal
import ViperFrontend.Proofs.Ast.Slots
import ViperFrontend.Proofs.Grammar.Tree
import ViperFrontend.Proofs.Token.Spelling

namespace Viper
namespace Program

open Word (symbol)

variable {τ : Type}

/-! ### Words -/

/-- A name as a word. -/
def nameWord (name : String) : Word :=
  ⟨.identifier, name⟩

/-- Lists of words with a comma between each two of them. -/
def commaSeparated : List (List Word) → List Word
  | [] => []
  | [ws] => ws
  | ws :: rest => ws ++ symbol .comma :: commaSeparated rest

/-- The words of an operand: in parentheses if it is a binary operator. -/
def operandWords (binary : Bool) (ws : List Word) : List Word :=
  if binary then symbol .openParen :: ws ++ [symbol .closeParen] else ws

namespace Expr

/-- A binary operator with its operands. -/
def isBinary : Expr τ → Bool
  | .binary .. => true
  | _ => false

mutual
/-- The words of an expression. -/
def words : Expr τ → List Word
  | .integer _ value => [⟨.integer, String.ofList (Nat.toDigits 10 value.toNat)⟩]
  | .float _ value => [⟨.float, value.text⟩]
  | .boolean _ value => [symbol (if value then .kwTrue else .kwFalse)]
  | .string _ value => [⟨.string, value⟩]
  | .name _ n => [nameWord n]
  | .index _ n i => nameWord n :: symbol .openBracket :: i.words ++ [symbol .closeBracket]
  | .call _ callee arguments =>
    nameWord callee :: symbol .openParen :: commaSeparated (wordsOf arguments) ++
      [symbol .closeParen]
  | .member _ _ object field => nameWord object :: symbol .dot :: field.words
  | .prefixed _ operator e => symbol operator :: operandWords e.isBinary e.words
  | .binary _ left operator right =>
    operandWords left.isBinary left.words ++
      symbol operator :: operandWords right.isBinary right.words

/-- The words of each of some expressions. -/
def wordsOf : List (Expr τ) → List (List Word)
  | [] => []
  | e :: es => e.words :: wordsOf es
end

theorem wordsOf_eq_map : ∀ es : List (Expr τ), wordsOf es = es.map words
  | [] => rfl
  | e :: es => congrArg (e.words :: ·) (wordsOf_eq_map es)

/-- The words of an expression where an operand stands. -/
def operand (e : Expr τ) : List Word :=
  operandWords e.isBinary e.words

end Expr

/-- A type as a word. -/
def TypeRef.word (type : TypeRef τ) : Word :=
  if type.name = "void" then symbol .kwVoid else nameWord type.name

def VarDecl.words (decl : VarDecl τ) : List Word :=
  symbol .kwLet :: nameWord decl.name :: symbol .colon :: decl.type.word :: symbol .assignment ::
    decl.value.words ++ [symbol .semicolon]

mutual
/-- The words of a statement. -/
def Stmt.words : Stmt τ → List Word
  | .varDecl decl => decl.words
  | .expr _ e => e.words ++ [symbol .semicolon]
  | .ret _ none => [symbol .kwReturn, symbol .semicolon]
  | .ret _ (some e) => symbol .kwReturn :: e.words ++ [symbol .semicolon]
  | .ifElse _ condition body next =>
    symbol .kwIf :: condition.words ++ body.words ++ next.words
  | .whileLoop _ condition body => symbol .kwWhile :: condition.words ++ body.words
  | .doWhileLoop _ body condition =>
    symbol .kwDo :: body.words ++ symbol .kwWhile :: condition.words ++ [symbol .semicolon]
  | .forLoop _ init condition _ action body =>
    symbol .kwFor :: symbol .openParen :: init.words ++ condition.words ++
      symbol .semicolon :: action.words ++ symbol .closeParen :: body.words
  | .block body => body.words

def Block.words : Block τ → List Word
  | .mk _ body => symbol .openCurly :: Stmt.wordsOf body ++ [symbol .closeCurly]

/-- The words of some statements, one after the other. -/
def Stmt.wordsOf : List (Stmt τ) → List Word
  | [] => []
  | stmt :: stmts => stmt.words ++ Stmt.wordsOf stmts

def Link.words : Link τ → List Word
  | .done => []
  | .elifLink _ condition body next =>
    symbol .kwElif :: condition.words ++ body.words ++ next.words
  | .elseLink _ body => symbol .kwElse :: body.words
end

def ParamDecl.words (param : ParamDecl τ) : List Word :=
  [nameWord param.name, symbol .colon, param.type.word]

def ProcDecl.words (proc : ProcDecl τ) : List Word :=
  symbol .kwProc :: nameWord proc.name :: symbol .openParen ::
    commaSeparated (proc.params.map ParamDecl.words) ++
    symbol .closeParen :: symbol .colon :: proc.type.word :: proc.body.words

def FieldDecl.words (field : FieldDecl τ) : List Word :=
  [nameWord field.name, symbol .doubleColon, field.type.word, symbol .semicolon]

/-- The words of an item. -/
def ItemDecl.words : ItemDecl τ → List Word
  | .varDecl decl => decl.words
  | .struct _ name fields methods =>
    symbol .kwStruct :: nameWord name :: symbol .openCurly :: fields.flatMap FieldDecl.words ++
      methods.flatMap ProcDecl.words ++ [symbol .closeCurly]
  | .proc p => p.words

/-- The canonical text of a program. -/
def text (program : List (ItemDecl τ)) : String :=
  String.ofList (Word.join (program.flatMap ItemDecl.words))

/-! ### What can be written -/

mutual
/-- Whether an expression can be written. -/
def Expr.isValid : Expr τ → Bool
  | .integer .. | .boolean .. => true
  | .float .. => false
  | .string _ value => !value.toList.contains '"'
  | .name _ n => isName n
  | .index _ n i => isName n && i.isValid
  | .call _ callee arguments => isName callee && Expr.areValid arguments
  | .member _ _ object field => isName object && field.isNamed && field.isValid
  | .prefixed _ operator e => operator.isPrefixOperator && e.isValid
  | .binary _ left operator right =>
    operator.precedence?.isSome && left.isValid && right.isValid

def Expr.areValid : List (Expr τ) → Bool
  | [] => true
  | e :: es => e.isValid && Expr.areValid es
end

/-- Whether a type can be written. -/
def TypeRef.isValid (type : TypeRef τ) : Bool :=
  isName type.name || type.name == "void"

def VarDecl.isValid (decl : VarDecl τ) : Bool :=
  isName decl.name && decl.type.isValid && decl.value.isValid

mutual
/-- Whether a statement can be written. -/
def Stmt.isValid : Stmt τ → Bool
  | .varDecl decl => decl.isValid
  | .expr _ e => e.isValid
  | .ret _ none => true
  | .ret _ (some e) => e.isValid
  | .ifElse _ condition body next => condition.isValid && body.isValid && next.isValid
  | .whileLoop _ condition body => condition.isValid && body.isValid
  | .doWhileLoop _ body condition => body.isValid && condition.isValid
  | .forLoop _ init condition _ action body =>
    init.isValid && condition.isValid && action.isValid && body.isValid
  | .block body => body.isValid

def Block.isValid : Block τ → Bool
  | .mk _ body => Stmt.areValid body

def Stmt.areValid : List (Stmt τ) → Bool
  | [] => true
  | stmt :: stmts => stmt.isValid && Stmt.areValid stmts

def Link.isValid : Link τ → Bool
  | .done => true
  | .elifLink _ condition body next => condition.isValid && body.isValid && next.isValid
  | .elseLink _ body => body.isValid
end

def ParamDecl.isValid (param : ParamDecl τ) : Bool :=
  isName param.name && param.type.isValid

def ProcDecl.isValid (proc : ProcDecl τ) : Bool :=
  isName proc.name && proc.params.all ParamDecl.isValid && proc.type.isValid && proc.body.isValid

def FieldDecl.isValid (field : FieldDecl τ) : Bool :=
  isName field.name && field.type.isValid

/-- Whether an item can be written. -/
def ItemDecl.isValid : ItemDecl τ → Bool
  | .varDecl decl => decl.isValid
  | .struct _ name fields methods =>
    isName name && fields.all FieldDecl.isValid && methods.all ProcDecl.isValid
  | .proc p => p.isValid

/-! ### Levels -/

mutual
/-- How many levels an expression opens where an operand stands: each operand of an operator
and each member is one level further in. -/
def Expr.operandLevels : Expr τ → Nat
  | .integer .. | .float .. | .boolean .. | .string .. | .name .. => 0
  | .index _ _ i => if i.isBinary then i.operandLevels else i.operandLevels + 1
  | .call _ _ arguments => Expr.argumentLevels arguments
  | .member _ _ _ field => field.operandLevels + 1
  | .prefixed _ _ e => e.operandLevels + 1
  | .binary _ left _ right => max left.operandLevels right.operandLevels + 1

def Expr.argumentLevels : List (Expr τ) → Nat
  | [] => 0
  | e :: es =>
    max (if e.isBinary then e.operandLevels else e.operandLevels + 1) (Expr.argumentLevels es)
end

/-- How many levels a whole expression opens. An expression that is no binary operator is an
operand, and one level further in. -/
def Expr.levels (e : Expr τ) : Nat :=
  if e.isBinary then e.operandLevels else e.operandLevels + 1

mutual
/-- How many levels a statement opens: each statement of a block and each link of a chain of
conditionals is one level further in. -/
def Stmt.levels : Stmt τ → Nat
  | .varDecl decl => decl.value.levels
  | .expr _ e => e.levels
  | .ret _ none => 0
  | .ret _ (some e) => e.levels
  | .ifElse _ condition body next => max condition.levels (max body.levels next.levels)
  | .whileLoop _ condition body => max condition.levels body.levels
  | .doWhileLoop _ body condition => max body.levels condition.levels
  | .forLoop _ init condition _ action body =>
    max init.levels (max condition.levels (max action.levels body.levels))
  | .block body => body.levels

def Block.levels : Block τ → Nat
  | .mk _ body => Stmt.bodyLevels body

def Stmt.bodyLevels : List (Stmt τ) → Nat
  | [] => 0
  | stmt :: stmts => max (stmt.levels + 1) (Stmt.bodyLevels stmts)

def Link.levels : Link τ → Nat
  | .done => 0
  | .elifLink _ condition body next => max condition.levels (max body.levels next.levels) + 1
  | .elseLink _ body => body.levels + 1
end

/-- How many levels an item opens. -/
def ItemDecl.levels : ItemDecl τ → Nat
  | .varDecl decl => decl.value.levels
  | .struct _ _ _ methods => (methods.map (·.body.levels)).foldr max 0
  | .proc p => p.body.levels

theorem Expr.argumentLevels_eq_foldr : ∀ es : List (Expr τ),
    Expr.argumentLevels es = (es.map Expr.levels).foldr max 0
  | [] => rfl
  | e :: es => congrArg (max e.levels) (Expr.argumentLevels_eq_foldr es)

/-- There is room for the deepest if there is room for each. -/
theorem foldr_max_le_iff {κ : Type} (levels : κ → Nat) (room : Nat) : ∀ xs : List κ,
    (xs.map levels).foldr max 0 ≤ room ↔ ∀ x ∈ xs, levels x ≤ room
  | [] => by simp
  | x :: xs => by
    rw [List.forall_mem_cons, ← foldr_max_le_iff levels room xs]
    exact Nat.max_le

/-! ### Every word is spelled as its kind asks for -/

theorem isSpelled_symbol {kind : TokenKind} (h : kind.symbol?.isSome = true) :
    (symbol kind).isSpelled = true := by
  revert h
  cases kind <;> decide

@[simp]
theorem isSpelled_nameWord (name : String) : (nameWord name).isSpelled = isName name := rfl

theorem isSome_symbol?_of_precedence? {kind : TokenKind} (h : kind.precedence?.isSome = true) :
    kind.symbol?.isSome = true := by
  revert h
  cases kind <;> decide

theorem isSome_symbol?_of_isPrefixOperator {kind : TokenKind}
    (h : kind.isPrefixOperator = true) : kind.symbol?.isSome = true := by
  revert h
  cases kind <;> decide

/-- The digits of a number are a number without a point. -/
theorem isSpelled_integer (n : Nat) :
    (⟨.integer, String.ofList (Nat.toDigits 10 n)⟩ : Word).isSpelled = true := by
  show Word.isNumber 0 (String.ofList (Nat.toDigits 10 n)) = true
  have digits : ∀ c ∈ Nat.toDigits 10 n, c.isDigit = true :=
    fun c mem => Nat.isDigit_of_mem_toDigits (by decide) (by decide) mem
  unfold Word.isNumber
  rw [String.toList_ofList]
  split
  · rename_i none
    exact absurd none Nat.toDigits_ne_nil
  · rename_i c cs chars
    rw [chars] at digits
    have others : ∀ d ∈ cs, d.isDigit = true := fun d mem => digits d (List.mem_cons_of_mem _ mem)
    have run : cs.all Lexeme.continuesNumber = true :=
      List.all_eq_true.2 fun d mem => by simp [Lexeme.continuesNumber, others d mem]
    have points : cs.count '.' = 0 :=
      List.count_eq_zero.2 fun mem => absurd (others '.' mem) (by decide)
    simp [digits c (by simp), run, points]

theorem all_isSpelled_commaSeparated : ∀ wss : List (List Word),
    (∀ ws ∈ wss, ws.all Word.isSpelled = true) → (commaSeparated wss).all Word.isSpelled = true
  | [], _ => rfl
  | [ws], h => h ws (by simp)
  | ws :: ws' :: wss, h => by
    have others := all_isSpelled_commaSeparated (ws' :: wss) fun vs mem =>
      h vs (List.mem_cons_of_mem _ mem)
    simp only [commaSeparated, List.all_append, List.all_cons, h ws (by simp), others]
    rfl

theorem all_isSpelled_operandWords (binary : Bool) {ws : List Word}
    (h : ws.all Word.isSpelled = true) : (operandWords binary ws).all Word.isSpelled = true := by
  cases binary with
  | false => exact h
  | true =>
    simp only [operandWords, if_true, List.cons_append, List.all_cons, List.all_append, h]
    rfl

theorem Expr.isValid_of_mem : ∀ {es : List (Expr τ)} {e : Expr τ}, Expr.areValid es = true →
    e ∈ es → e.isValid = true
  | _ :: _, e, valid, mem => by
    obtain ⟨first, others⟩ := Bool.and_eq_true_iff.1 valid
    rcases List.mem_cons.1 mem with rfl | mem
    · exact first
    · exact Expr.isValid_of_mem others mem

theorem Expr.all_isSpelled (e : Expr τ) (valid : e.isValid = true) :
    e.words.all Word.isSpelled = true := by
  match e with
  | .integer _ value => simp +decide [words, isSpelled_integer]
  | .float .. => cases valid
  | .boolean _ value => cases value <;> rfl
  | .string _ value => simpa [words, Word.isSpelled, isValid] using valid
  | .name _ n => simpa [words, isValid] using valid
  | .index _ n i =>
    obtain ⟨name, index⟩ := Bool.and_eq_true_iff.1 valid
    have spelled := all_isSpelled i index
    simp +decide [words, name, spelled]
  | .call _ callee arguments =>
    obtain ⟨name, others⟩ := Bool.and_eq_true_iff.1 valid
    have spelled : (commaSeparated (wordsOf arguments)).all Word.isSpelled = true := by
      apply all_isSpelled_commaSeparated
      intro ws mem
      rw [wordsOf_eq_map] at mem
      obtain ⟨e, arg, rfl⟩ := List.mem_map.1 mem
      exact all_isSpelled e (isValid_of_mem others arg)
    simp +decide [words, name, spelled]
  | .member _ _ object field =>
    simp only [isValid, Bool.and_eq_true] at valid
    have spelled := all_isSpelled field valid.2
    simp +decide [words, valid.1.1, spelled]
  | .prefixed _ operator e =>
    obtain ⟨isOperator, inner⟩ := Bool.and_eq_true_iff.1 valid
    have spelled := all_isSpelled_operandWords e.isBinary (all_isSpelled e inner)
    simp +decide [words, spelled, isSpelled_symbol (isSome_symbol?_of_isPrefixOperator isOperator)]
  | .binary _ left operator right =>
    simp only [isValid, Bool.and_eq_true] at valid
    have first := all_isSpelled_operandWords left.isBinary
      (all_isSpelled left valid.1.2)
    have second := all_isSpelled_operandWords right.isBinary
      (all_isSpelled right valid.2)
    simp +decide [words, first, second, isSpelled_symbol (isSome_symbol?_of_precedence? valid.1.1)]
termination_by sizeOf e

theorem TypeRef.isSpelled_word {type : TypeRef τ} (valid : type.isValid = true) :
    type.word.isSpelled = true := by
  unfold isValid at valid
  unfold word
  split
  · simp +decide
  · rename_i other
    simpa [other] using valid

theorem VarDecl.all_isSpelled {decl : VarDecl τ} (valid : decl.isValid = true) :
    decl.words.all Word.isSpelled = true := by
  simp only [isValid, Bool.and_eq_true] at valid
  have type := TypeRef.isSpelled_word valid.1.2
  have value := Expr.all_isSpelled decl.value valid.2
  simp +decide [words, valid.1.1, type, value]

theorem Stmt.isValid_of_mem : ∀ {stmts : List (Stmt τ)} {stmt : Stmt τ},
    Stmt.areValid stmts = true → stmt ∈ stmts → stmt.isValid = true
  | _ :: _, stmt, valid, mem => by
    obtain ⟨first, others⟩ := Bool.and_eq_true_iff.1 valid
    rcases List.mem_cons.1 mem with rfl | mem
    · exact first
    · exact Stmt.isValid_of_mem others mem

mutual
theorem Stmt.all_isSpelled (stmt : Stmt τ) (valid : stmt.isValid = true) :
    stmt.words.all Word.isSpelled = true := by
  match stmt with
  | .varDecl decl => exact VarDecl.all_isSpelled valid
  | .expr _ e =>
    have spelled := Expr.all_isSpelled e valid
    simp +decide [Stmt.words, spelled]
  | .ret _ none => simp +decide [Stmt.words]
  | .ret _ (some e) =>
    have spelled := Expr.all_isSpelled e valid
    simp +decide [Stmt.words, spelled]
  | .ifElse _ condition body next =>
    simp only [Stmt.isValid, Bool.and_eq_true] at valid
    have guard := Expr.all_isSpelled condition valid.1.1
    have block := Block.all_isSpelled body valid.1.2
    have link := Link.all_isSpelled next valid.2
    simp +decide [Stmt.words, guard, block, link]
  | .whileLoop _ condition body =>
    simp only [Stmt.isValid, Bool.and_eq_true] at valid
    have guard := Expr.all_isSpelled condition valid.1
    have block := Block.all_isSpelled body valid.2
    simp +decide [Stmt.words, guard, block]
  | .doWhileLoop _ body condition =>
    simp only [Stmt.isValid, Bool.and_eq_true] at valid
    have guard := Expr.all_isSpelled condition valid.2
    have block := Block.all_isSpelled body valid.1
    simp +decide [Stmt.words, guard, block]
  | .forLoop _ init condition _ action body =>
    simp only [Stmt.isValid, Bool.and_eq_true] at valid
    have first := Stmt.all_isSpelled init valid.1.1.1
    have guard := Expr.all_isSpelled condition valid.1.1.2
    have step := Expr.all_isSpelled action valid.1.2
    have block := Block.all_isSpelled body valid.2
    simp +decide [Stmt.words, first, guard, step, block]
  | .block body => exact Block.all_isSpelled body valid

theorem Block.all_isSpelled (block : Block τ) (valid : block.isValid = true) :
    block.words.all Word.isSpelled = true := by
  match block with
  | .mk _ body =>
    have spelled := Stmt.all_isSpelled_wordsOf body valid
    simp +decide [Block.words, spelled]

theorem Stmt.all_isSpelled_wordsOf (stmts : List (Stmt τ)) (valid : Stmt.areValid stmts = true) :
    (Stmt.wordsOf stmts).all Word.isSpelled = true := by
  match stmts with
  | [] => rfl
  | stmt :: stmts =>
    obtain ⟨first, others⟩ := Bool.and_eq_true_iff.1 valid
    simp +decide [Stmt.wordsOf, Stmt.all_isSpelled stmt first, Stmt.all_isSpelled_wordsOf stmts others]

theorem Link.all_isSpelled (link : Link τ) (valid : link.isValid = true) :
    link.words.all Word.isSpelled = true := by
  match link with
  | .done => rfl
  | .elifLink _ condition body next =>
    simp only [Link.isValid, Bool.and_eq_true] at valid
    have guard := Expr.all_isSpelled condition valid.1.1
    have block := Block.all_isSpelled body valid.1.2
    have link := Link.all_isSpelled next valid.2
    simp +decide [Link.words, guard, block, link]
  | .elseLink _ body =>
    have block := Block.all_isSpelled body valid
    simp +decide [Link.words, block]
end

theorem ParamDecl.all_isSpelled {param : ParamDecl τ} (valid : param.isValid = true) :
    param.words.all Word.isSpelled = true := by
  obtain ⟨name, type⟩ := Bool.and_eq_true_iff.1 valid
  simp +decide [words, name, TypeRef.isSpelled_word type]

theorem ProcDecl.all_isSpelled {proc : ProcDecl τ} (valid : proc.isValid = true) :
    proc.words.all Word.isSpelled = true := by
  simp only [isValid, Bool.and_eq_true] at valid
  have params : (commaSeparated (proc.params.map ParamDecl.words)).all Word.isSpelled = true := by
    apply all_isSpelled_commaSeparated
    intro ws mem
    obtain ⟨param, listed, rfl⟩ := List.mem_map.1 mem
    exact ParamDecl.all_isSpelled (List.all_eq_true.1 valid.1.1.2 param listed)
  have type := TypeRef.isSpelled_word valid.1.2
  have body := Block.all_isSpelled proc.body valid.2
  simp +decide [words, valid.1.1.1, params, type, body]

theorem FieldDecl.all_isSpelled {field : FieldDecl τ} (valid : field.isValid = true) :
    field.words.all Word.isSpelled = true := by
  obtain ⟨name, type⟩ := Bool.and_eq_true_iff.1 valid
  simp +decide [words, name, TypeRef.isSpelled_word type]

/-- The words of an item that can be written are spelled as their kinds ask for. -/
theorem ItemDecl.all_isSpelled (item : ItemDecl τ) (valid : item.isValid = true) :
    item.words.all Word.isSpelled = true := by
  cases item with
  | varDecl decl => exact VarDecl.all_isSpelled valid
  | proc p => exact ProcDecl.all_isSpelled valid
  | struct mark name fields methods =>
    simp only [isValid, Bool.and_eq_true] at valid
    have spelledFields : (fields.flatMap FieldDecl.words).all Word.isSpelled = true := by
      rw [List.all_flatMap]
      exact List.all_eq_true.2 fun field mem =>
        FieldDecl.all_isSpelled (List.all_eq_true.1 valid.1.2 field mem)
    have spelledMethods : (methods.flatMap ProcDecl.words).all Word.isSpelled = true := by
      rw [List.all_flatMap]
      exact List.all_eq_true.2 fun proc mem =>
        ProcDecl.all_isSpelled (List.all_eq_true.1 valid.2 proc mem)
    simp only [words, List.cons_append, List.all_cons, List.all_append, spelledFields,
      spelledMethods, isSpelled_nameWord, valid.1.1]
    decide

/-! ### How constructs start -/

end Program

/-- The kinds of token that start an expression. -/
def TokenKind.startsExpression : TokenKind → Bool
  | .bang | .dash | .tilde | .kwTrue | .kwFalse | .integer | .float | .string | .identifier
  | .openParen => true
  | _ => false

/-- The kinds of token that start a statement that can be written. -/
def TokenKind.opensStatement (kind : TokenKind) : Bool :=
  match kind with
  | .kwLet | .kwReturn | .kwIf | .kwWhile | .kwDo | .kwFor | .openCurly => true
  | _ => kind.startsExpression

theorem TokenKind.opensStatement_of_startsExpression {kind : TokenKind}
    (h : kind.startsExpression = true) : kind.opensStatement = true := by
  revert h
  cases kind <;> decide

namespace Program

open Word (symbol nextKind)

theorem startsExpression_operandWords {binary : Bool} {ws : List Word} (rest : List Word)
    (h : binary = false → (nextKind (ws ++ rest)).startsExpression = true) :
    (nextKind (operandWords binary ws ++ rest)).startsExpression = true := by
  cases binary with
  | true => rfl
  | false => exact h rfl

theorem Expr.startsExpression_words (e : Expr τ) (valid : e.isValid = true) (rest : List Word) :
    (nextKind (e.words ++ rest)).startsExpression = true := by
  match e with
  | .integer .. | .string .. | .name .. | .index .. | .call .. | .member .. => rfl
  | .float .. => cases valid
  | .boolean _ value => cases value <;> rfl
  | .prefixed _ operator e =>
    have isOperator := (Bool.and_eq_true_iff.1 valid).1
    show operator.startsExpression = true
    revert isOperator
    cases operator <;> decide
  | .binary _ left operator right =>
    simp only [isValid, Bool.and_eq_true] at valid
    rw [words, List.append_assoc]
    exact startsExpression_operandWords _ fun _ => left.startsExpression_words valid.1.2 _

theorem Stmt.opensStatement_words (stmt : Stmt τ) (valid : stmt.isValid = true) (rest : List Word) :
    (nextKind (stmt.words ++ rest)).opensStatement = true := by
  match stmt with
  | .varDecl .. | .ret _ none | .ret _ (some _) | .ifElse .. | .whileLoop .. | .doWhileLoop ..
  | .forLoop .. | .block (.mk ..) => rfl
  | .expr _ e =>
    rw [words, List.append_assoc]
    exact TokenKind.opensStatement_of_startsExpression (e.startsExpression_words valid _)

end Program
end Viper
