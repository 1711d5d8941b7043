/-
# The grammar of the language

What a run of tokens may be, as rules: each relation holds of the tokens of a construct and
of its tree, whose marks are the tokens it was read from. A list in parentheses may end with a
comma, and neither commas nor the parentheses of a group leave anything in the tree.

An expression is a chain of operands with binary operators between them, and its tree is any
tree of binary operators whose in-order reading is that chain (`InOrder`): how a chain is
grouped is not a matter of this grammar.

Key definitions: `Grammar.Chain`, `Grammar.Stmt`, `Grammar.Item`, `Grammar.Program`.
-/
import ViperFrontend.Proofs.Ast.Slots
import ViperFrontend.Proofs.Grammar.Tree
import ViperFrontend.Number.Literal

namespace Viper
namespace Grammar

open Program

variable {α : Type}

/-! ### Sequences -/

/-- One after the other, any number of times. -/
inductive Many (G : List Token → α → Prop) : List Token → List α → Prop
  | nil : Many G [] []
  | cons {ts us a as} : G ts a → Many G us as → Many G (ts ++ us) (a :: as)

/-- Between commas, and perhaps with a comma at the end. -/
inductive CommaList (G : List Token → α → Prop) : List Token → List α → Prop
  | nil : CommaList G [] []
  | last {ts a} : G ts a → CommaList G ts [a]
  | cons {ts comma us a as} : G ts a → comma.kind = .comma → CommaList G us as →
      CommaList G (ts ++ comma :: us) (a :: as)

/-- Operands with binary operators between them. -/
inductive Operands (G : List Token → Expr Token → Prop) :
    List Token → List (Expr Token) → List Token → Prop
  | one {ts e} : G ts e → Operands G ts [e] []
  | more {ts operator us e es operators} : G ts e → operator.kind.precedence?.isSome = true →
      Operands G us es operators →
      Operands G (ts ++ operator :: us) (e :: es) (operator :: operators)

/-- Reading the tree in order gives the operands and the operators between them. -/
inductive InOrder : Expr Token → List (Expr Token) → List Token → Prop
  | operand {e} : InOrder e [e] []
  | binary {left operator right ls ms rs ns} : InOrder left ls ms → InOrder right rs ns →
      InOrder (.binary operator left operator.kind right) (ls ++ rs) (ms ++ operator :: ns)

/-! ### Expressions -/

mutual
/-- An operand. -/
inductive Primary : List Token → Expr Token → Prop
  | prefixed {operator ts e} : operator.kind.isPrefixOperator = true → Primary ts e →
      Primary (operator :: ts) (.prefixed operator operator.kind e)
  | true {t} : t.kind = .kwTrue → Primary [t] (.boolean t true)
  | false {t} : t.kind = .kwFalse → Primary [t] (.boolean t false)
  | integer {t value} : t.kind = .integer → Literal.integer? t.text = some value →
      Primary [t] (.integer t value)
  | float {t value} : t.kind = .float → Literal.float? t.text = some value →
      Primary [t] (.float t value)
  | string {t} : t.kind = .string → Primary [t] (.string t t.text)
  | named {ts e} : Named ts e → Primary ts e
  | group {opening ts e closing} : opening.kind = .openParen → Chain ts e →
      closing.kind = .closeParen → Primary (opening :: ts ++ [closing]) e

/-- A name and what follows it. -/
inductive Named : List Token → Expr Token → Prop
  | name {t} : t.kind = .identifier → Named [t] (.name t t.text)
  | index {t opening ts e closing} : t.kind = .identifier → opening.kind = .openBracket →
      Chain ts e → closing.kind = .closeBracket →
      Named (t :: opening :: ts ++ [closing]) (.index t t.text e)
  | call {t opening ts es closing} : t.kind = .identifier → opening.kind = .openParen →
      CommaList Chain ts es → closing.kind = .closeParen →
      Named (t :: opening :: ts ++ [closing]) (.call t t.text es)
  | member {t dot ts e} : t.kind = .identifier → dot.kind = .dot → Named ts e →
      Named (t :: dot :: ts) (.member dot t t.text e)

/-- An expression: a chain of operands, grouped in some way. -/
inductive Chain : List Token → Expr Token → Prop
  | mk {ts e es operators} : Operands Primary ts es operators → InOrder e es operators →
      Chain ts e
end

/-! ### Statements -/

/-- A name or `void`. -/
inductive TypeOf : List Token → TypeRef Token → Prop
  | mk {t} : t.kind = .identifier ∨ t.kind = .kwVoid → TypeOf [t] ⟨t, t.text⟩

/-- `let name: type = value;` -/
inductive Let : List Token → VarDecl Token → Prop
  | mk {start name colon ts type equals us value semicolon} : start.kind = .kwLet →
      name.kind = .identifier → colon.kind = .colon → TypeOf ts type →
      equals.kind = .assignment → Chain us value → semicolon.kind = .semicolon →
      Let (start :: name :: colon :: ts ++ equals :: us ++ [semicolon])
        ⟨start, name.text, type, value⟩

mutual
/-- A statement. -/
inductive Stmt : List Token → Program.Stmt Token → Prop
  | varDecl {ts decl} : Let ts decl → Stmt ts (.varDecl decl)
  | expr {t ts e semicolon} : Chain (t :: ts) e → semicolon.kind = .semicolon →
      Stmt (t :: ts ++ [semicolon]) (.expr t e)
  | ret {start semicolon} : start.kind = .kwReturn → semicolon.kind = .semicolon →
      Stmt [start, semicolon] (.ret start none)
  | retValue {start ts e semicolon} : start.kind = .kwReturn → Chain ts e →
      semicolon.kind = .semicolon → Stmt (start :: ts ++ [semicolon]) (.ret start (some e))
  | ifElse {start ts condition us body vs next} : start.kind = .kwIf → Chain ts condition →
      Block us body → Link vs next →
      Stmt (start :: ts ++ us ++ vs) (.ifElse start condition body next)
  | whileLoop {start ts condition us body} : start.kind = .kwWhile → Chain ts condition →
      Block us body → Stmt (start :: ts ++ us) (.whileLoop start condition body)
  | doWhileLoop {start ts body keyword us condition semicolon} : start.kind = .kwDo →
      Block ts body → keyword.kind = .kwWhile → Chain us condition →
      semicolon.kind = .semicolon →
      Stmt (start :: ts ++ keyword :: us ++ [semicolon]) (.doWhileLoop start body condition)
  | forLoop {start opening ts init us condition semicolon t vs action closing ws body} :
      start.kind = .kwFor → opening.kind = .openParen → Stmt ts init → Chain us condition →
      semicolon.kind = .semicolon → Chain (t :: vs) action → closing.kind = .closeParen →
      Block ws body →
      Stmt (start :: opening :: ts ++ us ++ semicolon :: t :: vs ++ closing :: ws)
        (.forLoop start init condition t action body)
  | block {ts body} : Block ts body → Stmt ts (.block body)

/-- Statements between curly brackets. -/
inductive Block : List Token → Program.Block Token → Prop
  | mk {opening ts body closing} : opening.kind = .openCurly → Many Stmt ts body →
      closing.kind = .closeCurly → Block (opening :: ts ++ [closing]) (.mk opening body)

/-- The links after the body of an `if` or `elif`. -/
inductive Link : List Token → Program.Link Token → Prop
  | done : Link [] .done
  | elifLink {start ts condition us body vs next} : start.kind = .kwElif →
      Chain ts condition → Block us body → Link vs next →
      Link (start :: ts ++ us ++ vs) (.elifLink start condition body next)
  | elseLink {start ts body} : start.kind = .kwElse → Block ts body →
      Link (start :: ts) (.elseLink start body)
end

/-! ### Items -/

/-- `name: type` -/
inductive Param : List Token → ParamDecl Token → Prop
  | mk {name colon ts type} : name.kind = .identifier → colon.kind = .colon →
      TypeOf ts type → Param (name :: colon :: ts) ⟨name, name.text, type⟩

/-- `proc name(param, ...): type body`, or the same with `define`. -/
inductive Proc : List Token → ProcDecl Token → Prop
  | mk {start name opening ts params closing colon us type vs body} :
      start.kind = .kwProc ∨ start.kind = .kwDefine → name.kind = .identifier →
      opening.kind = .openParen → CommaList Param ts params → closing.kind = .closeParen →
      colon.kind = .colon → TypeOf us type → Block vs body →
      Proc (start :: name :: opening :: ts ++ closing :: colon :: us ++ vs)
        ⟨start, name.text, params, type, body⟩

/-- `name :: type;` -/
inductive StructField : List Token → FieldDecl Token → Prop
  | mk {name colons ts type semicolon} : name.kind = .identifier →
      colons.kind = .doubleColon → TypeOf ts type → semicolon.kind = .semicolon →
      StructField (name :: colons :: ts ++ [semicolon]) ⟨name, name.text, type⟩

/-- Fields and procedures in any order; the tree has them apart. -/
inductive Members : List Token → List (FieldDecl Token) → List (ProcDecl Token) → Prop
  | nil : Members [] [] []
  | field {ts us field fields methods} : StructField ts field → Members us fields methods →
      Members (ts ++ us) (field :: fields) methods
  | method {ts us fields method methods} : Proc ts method → Members us fields methods →
      Members (ts ++ us) fields (method :: methods)

/-- An item of a file. -/
inductive Item : List Token → ItemDecl Token → Prop
  | varDecl {ts decl} : Let ts decl → Item ts (.varDecl decl)
  | struct {start name opening ts fields methods closing} : start.kind = .kwStruct →
      name.kind = .identifier → opening.kind = .openCurly → Members ts fields methods →
      closing.kind = .closeCurly →
      Item (start :: name :: opening :: ts ++ [closing])
        (.struct start name.text fields methods)
  | proc {ts proc} : Proc ts proc → Item ts (.proc proc)

/-- A file. -/
def Program : List Token → List (ItemDecl Token) → Prop :=
  Many Item

/-! ### Rules that follow -/

theorem Many.snoc {G : List Token → α → Prop} {ts us : List Token} {as : List α} {a : α}
    (h : Many G ts as) (last : G us a) : Many G (ts ++ us) (as ++ [a]) := by
  induction h with
  | nil => simpa using Many.cons last .nil
  | cons first _ ih =>
    rw [List.append_assoc]
    exact .cons first ih

theorem Operands.append {G : List Token → Expr Token → Prop} {ts us ms ns : List Token}
    {es fs : List (Expr Token)} {operator : Token} (h : Operands G ts es ms)
    (binary : operator.kind.precedence?.isSome = true) (k : Operands G us fs ns) :
    Operands G (ts ++ operator :: us) (es ++ fs) (ms ++ operator :: ns) := by
  induction h with
  | one first => exact .more first binary k
  | more first between _ ih =>
    rw [List.append_assoc]
    exact .more first between ih

theorem Chain.operand {ts : List Token} {e : Expr Token} (h : Primary ts e) : Chain ts e :=
  .mk (.one h) .operand

/-- A binary operator joins two chains to one. -/
theorem Chain.binary {ts us : List Token} {left right : Expr Token} {operator : Token}
    (h : Chain ts left) (binary : operator.kind.precedence?.isSome = true)
    (k : Chain us right) :
    Chain (ts ++ operator :: us) (.binary operator left operator.kind right) := by
  obtain ⟨operands, reading⟩ := h
  obtain ⟨operands', reading'⟩ := k
  exact .mk (operands.append binary operands') (.binary reading reading')

theorem Chain.ne_nil {ts : List Token} {e : Expr Token} (h : Chain ts e) : ts ≠ [] := by
  obtain ⟨operands, -⟩ := h
  cases operands with
  | one first =>
    cases first with
    | named named => cases named <;> simp
    | _ => simp
  | more => simp

theorem Members.snoc_field {ts us : List Token} {fields : List (FieldDecl Token)}
    {methods : List (ProcDecl Token)} {field : FieldDecl Token} (h : Members ts fields methods)
    (last : StructField us field) : Members (ts ++ us) (fields ++ [field]) methods := by
  induction h with
  | nil => simpa using Members.field last .nil
  | field first _ ih =>
    rw [List.append_assoc]
    exact .field first ih
  | method first _ ih =>
    rw [List.append_assoc]
    exact .method first ih

theorem Members.snoc_method {ts us : List Token} {fields : List (FieldDecl Token)}
    {methods : List (ProcDecl Token)} {method : ProcDecl Token}
    (h : Members ts fields methods) (last : Proc us method) :
    Members (ts ++ us) fields (methods ++ [method]) := by
  induction h with
  | nil => simpa using Members.method last .nil
  | field first _ ih =>
    rw [List.append_assoc]
    exact .field first ih
  | method first _ ih =>
    rw [List.append_assoc]
    exact .method first ih

end Grammar
end Viper
