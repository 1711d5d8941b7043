/-
# The values of literals

Everything that a parse makes is made of tokens it has come to (`State.Grounded`): a number of a number
literal with this value, and the error that a number is too large of a number literal without one. The
text of an integer literal is digits, of any length, and that of a float literal digits with a point, which
always have a value. So no integer in the tree of a parse has wrapped, and a number is reported as too large
only if it is an integer of 2^64 or more (`Source.integers_never_wrap`).

Key definitions: `Parser.State.Grounded`.
Key theorems: `Parser.State.Course.grounded`, `Expression.primary_of_integer`,
`Source.integers_never_wrap`.
-/
import ViperFrontend.Proofs.Parser.Levels
import ViperFrontend.Proofs.Parser.Session
import ViperFrontend.Proofs.Token.Numerals

namespace Viper

open Viper.Parser

namespace Parser.State

variable {origin t : State} {hand : List (NodeId × Nat)}

/-- What there is in `t` has been made of tokens that the parse from `origin` has come to. -/
structure Grounded (origin t : State) : Prop where
  made : ∀ face ∈ t.ast.faces, face.1 ≠ .invalid → origin.Makes face.2 face.1
  raised : ∀ d ∈ t.errors, ∀ fault, d.fault = .syntactic fault →
    ∃ u, origin.Reaches u ∧ SyntaxError.MadeAt ⟨fault, d.line⟩ u.current

theorem Grounded.advance (h : origin.Grounded t) : origin.Grounded t.advance where
  made := ast_advance t ▸ h.made
  raised d mem fault isFault :=
    h.raised d (mem_errors_of_advance mem (by rw [isFault]; rfl)) fault isFault

theorem Grounded.iterate_advance (h : origin.Grounded t) (n : Nat) :
    origin.Grounded (State.advance^[n] t) := by
  induction n with
  | zero => exact h
  | succ n ih =>
    rw [Function.iterate_succ_apply']
    exact ih.advance

theorem Grounded.record (h : origin.Grounded t) {e : SyntaxError} {u : State} (earlier : origin.Reaches u)
    (here : e.MadeAt u.current) : origin.Grounded (t.record e) where
  made := h.made
  raised d mem fault isFault := by
    rcases Array.mem_push.1 mem with before | rfl
    · exact h.raised d before fault isFault
    · cases isFault
      exact ⟨u, earlier, here⟩

theorem Grounded.alloc (h : origin.Grounded t) {construct : Construct} {token : Token}
    (made : construct ≠ .invalid → origin.Makes token construct) :
    origin.Grounded (t.alloc construct token).2 where
  made := by
    show ∀ face ∈ (t.ast.alloc construct token).2.faces, _
    rw [Ast.faces_alloc, List.forall_mem_append, List.forall_mem_singleton]
    exact ⟨h.made, made⟩
  raised := h.raised

/-- **A parse makes everything of tokens.** -/
theorem Course.grounded (h : origin.Course t hand) (start : origin.Grounded origin) :
    origin.Grounded t := by
  induction h with
  | start => exact start
  | advance _ ih => exact ih.advance
  | record n before here ih => exact (ih.iterate_advance n).record before.reaches here
  | alloc token _ made _ _ ih => exact ih.alloc fun _ => made
  | recover _ before raises ih =>
    exact (ih.record before.reaches raises.here).alloc fun valid => absurd rfl valid
  | widen _ _ ih => exact ih
  | pushRoot _ ih => exact ⟨ih.made, ih.raised⟩

theorem grounded_start (limit : Nat) (source : Source) :
    (start limit source).Grounded (start limit source) where
  made face mem := by simp [start, Ast.empty, Ast.faces] at mem
  raised d mem fault isFault := by
    have syntactic : d.fault.isLexical = false := by rw [isFault]; rfl
    have none := mem_of_mem_noteFault (mem_of_mem_noteFault mem syntactic) syntactic
    simp at none

end Parser.State

namespace Expression

variable (inner : Inner) {s : State}

/-- **An integer literal where an operand stands** is the integer it stands for if that is below 2^64, and
an error at its token if not. -/
theorem primary_of_integer (here : s.current.kind = .integer) :
    (primary inner).run.run s =
      let value := Nat.ofDigitChars 10 s.current.text.toList 0
      if value < UInt64.size then
        (.ok s.advance.ast.size, (s.advance.alloc (.integer (UInt64.ofNat value)) s.current).2)
      else (.error ⟨.numberTooLarge s.current.text, s.current.line⟩, s.advance) := by
  have literal : (primary inner).run.run s = integer.run.run s := by simp [primary, here]
  rw [literal]
  dsimp only
  split
  · rename_i small
    exact numeral_of_some (Literal.integer?_eq_some_iff.2 (UInt64.toNat_ofNat_of_lt small).symm)
  · rename_i large
    exact numeral_of_none (Literal.integer?_eq_none_iff.2 (Nat.le_of_not_lt large))

/-- A float literal where an operand stands is the float it stands for, and an error at its token if it stands
for none. -/
theorem primary_of_float (here : s.current.kind = .float) :
    (primary inner).run.run s =
      match Literal.float? s.current.text with
      | some value => (.ok s.advance.ast.size, (s.advance.alloc (.float value) s.current).2)
      | none => (.error ⟨.numberTooLarge s.current.text, s.current.line⟩, s.advance) := by
  have literal : (primary inner).run.run s = float.run.run s := by simp [primary, here]
  rw [literal]
  split
  · rename_i value given
    exact numeral_of_some given
  · rename_i none
    exact numeral_of_none none

end Expression

namespace Source

/-- The current token of a parse is one of the source. -/
theorem current_mem_tokenize {limit : Nat} {source : Source} {t : State}
    (h : (State.start limit source).Reaches t) : t.current ∈ source.tokenize.1 := by
  obtain ⟨i, reached⟩ := h.exists_reachesIn
  rw [reached.at.current_eq]
  exact source.tokenAt_mem i

/-- A float literal of a source has a value. -/
theorem exists_float?_of_mem {source : Source} {t : Token} (mem : t ∈ source.tokenize.1)
    (kind : t.kind = .float) : ∃ value, Literal.float? t.text = some value :=
  Option.isSome_iff_exists.1 (Literal.isSome_float?_iff.2 ((source.numeral_tokenize mem).2 kind))

theorem exists_grounded (limit : Nat) (source : Source) :
    ∃ last, source.parseWith limit = .ofState last ∧ (State.start limit source).Grounded last := by
  obtain ⟨last, ends, -, course⟩ := source.course_parseWith limit
  exact ⟨last, ends, course.grounded (State.grounded_start limit source)⟩

/-- A number that is reported as too large is an integer literal on the line of the report. -/
theorem token_of_tooLarge {limit : Nat} {source : Source} {d : Diagnostic} {literal : String}
    (mem : d ∈ (source.parseWith limit).errors)
    (tooLarge : d.fault = .syntactic (.numberTooLarge literal)) :
    ⟨.integer, literal, d.line⟩ ∈ source.tokenize.1 ∧ Literal.integer? literal = none := by
  obtain ⟨last, ends, grounded⟩ := source.exists_grounded limit
  rw [ends] at mem
  obtain ⟨u, reached, here⟩ := grounded.raised d mem _ tooLarge
  have token := current_mem_tokenize reached
  obtain ⟨text, line⟩ := SyntaxError.mk.inj here.isAt
  obtain rfl : literal = u.current.text := SyntaxFault.numberTooLarge.inj text
  rcases here.tooLarge _ rfl with ⟨kind, noValue⟩ | ⟨kind, noValue⟩
  · rw [line, ← kind]
    exact ⟨token, noValue⟩
  · obtain ⟨value, given⟩ := exists_float?_of_mem token kind
    rw [given] at noValue
    cases noValue

/-- What a number in the tree of a parse was made of is a token of the source. -/
theorem token_of_number {source : Source} {node : Node} (mem : node ∈ source.parse.ast.nodes) :
    (∀ value, node.construct = .integer value → node.token ∈ source.tokenize.1 ∧
      node.token.kind = .integer ∧ Literal.integer? node.token.text = some value) ∧
    ∀ value, node.construct = .float value → node.token ∈ source.tokenize.1 ∧
      node.token.kind = .float ∧ Literal.float? node.token.text = some value := by
  obtain ⟨last, ends, grounded⟩ := source.exists_grounded maxNesting
  have tree : source.parse.ast = last.ast := congrArg Parsed.ast ends
  rw [tree] at mem
  have face : (node.construct, node.token) ∈ last.ast.faces :=
    List.mem_map.2 ⟨node, Array.mem_toList_iff.2 mem, rfl⟩
  constructor
  all_goals
    intro value isNumber
    rw [isNumber] at face
    obtain ⟨u, reached, here, kind, hasValue⟩ := grounded.made _ face nofun
    have token := current_mem_tokenize reached
    rw [here] at token
    exact ⟨token, kind, hasValue⟩

/-- **Integers never wrap.** An integer in the tree of a parse, also in what recovery has thrown away, has
the value of its token, an integer literal of the source. A number that is reported as too large is the
text of an integer literal on the line of the report, and its value is 2^64 or more. At an operand an
integer literal is an integer if its value is below 2^64 and such an error if not. A float literal, which
has digits before its point and perhaps behind it, has a value, so wherever a parse comes to one at an
operand it is a float and no error. -/
theorem integers_never_wrap (source : Source) :
    (∀ node ∈ source.parse.ast.nodes, ∀ value, node.construct = .integer value →
      node.token ∈ source.tokenize.1 ∧ node.token.kind = .integer ∧
        Literal.IsDigits node.token.text.toList ∧
        value.toNat = Nat.ofDigitChars 10 node.token.text.toList 0) ∧
    (∀ node ∈ source.parse.ast.nodes, ∀ value, node.construct = .float value →
      node.token ∈ source.tokenize.1 ∧ node.token.kind = .float ∧
        Literal.float? node.token.text = some value) ∧
    (∀ d ∈ source.parse.errors, ∀ literal, d.fault = .syntactic (.numberTooLarge literal) →
      ⟨.integer, literal, d.line⟩ ∈ source.tokenize.1 ∧ Literal.IsDigits literal.toList ∧
        UInt64.size ≤ Nat.ofDigitChars 10 literal.toList 0) ∧
    (∀ t ∈ source.tokenize.1, t.kind = .float → Literal.IsPointed t.text) ∧
    (∀ (inner : Expression.Inner) (s : State), s.current.kind = .integer →
      (Expression.primary inner).run.run s =
        let value := Nat.ofDigitChars 10 s.current.text.toList 0
        if value < UInt64.size then
          (.ok s.advance.ast.size, (s.advance.alloc (.integer (UInt64.ofNat value)) s.current).2)
        else (.error ⟨.numberTooLarge s.current.text, s.current.line⟩, s.advance)) ∧
    (∀ (inner : Expression.Inner) (s : State), s.current.kind = .float →
      (Expression.primary inner).run.run s =
        match Literal.float? s.current.text with
        | some value => (.ok s.advance.ast.size, (s.advance.alloc (.float value) s.current).2)
        | none => (.error ⟨.numberTooLarge s.current.text, s.current.line⟩, s.advance)) ∧
    (∀ (limit : Nat) (inner : Expression.Inner) (s : State), (State.start limit source).Reaches s →
      s.current.kind = .float → ∃ value, Literal.float? s.current.text = some value ∧
        (Expression.primary inner).run.run s =
          (.ok s.advance.ast.size, (s.advance.alloc (.float value) s.current).2)) := by
  refine ⟨?_, fun node mem => (token_of_number mem).2, ?_, fun t mem => (source.numeral_tokenize mem).2,
    fun inner s => Expression.primary_of_integer inner,
    fun inner s => Expression.primary_of_float inner, ?_⟩
  · intro node mem value isInteger
    obtain ⟨token, kind, hasValue⟩ := (token_of_number mem).1 value isInteger
    exact ⟨token, kind, (source.numeral_tokenize token).1 kind,
      (Literal.integer?_eq_some_iff.1 hasValue).symm⟩
  · intro d mem literal tooLarge
    obtain ⟨token, noValue⟩ := token_of_tooLarge mem tooLarge
    exact ⟨token, (source.numeral_tokenize token).1 rfl, Literal.integer?_eq_none_iff.1 noValue⟩
  · intro limit inner s reached kind
    obtain ⟨value, given⟩ := exists_float?_of_mem (current_mem_tokenize reached) kind
    have outcome := Expression.primary_of_float inner kind
    rw [given] at outcome
    exact ⟨value, given, outcome⟩

end Source
end Viper
