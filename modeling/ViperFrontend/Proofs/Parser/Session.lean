/-
# Sessions with a parser

A session is any use of the operations of a parser, in any order: passing tokens, requiring
them, recording errors, making nodes, parsing a construct or the whole file, and running a session
one level further in. What is done next may depend on what came before. The depth of nesting is
kept in a counter (`Machine.depth`), which goes up before a nested session and down after it; that
comes to the same as handing the room that is left to the parsers (`Session.exec_eq`).

Whatever a session does, its parser sees the tokens of the source one after the other. After `i`
tokens have been passed, the current token and the one after it are those at the places `i` and
`i + 1`, and of the texts just the faults of the tokens up to there are reported, as if the tokens
were pulled from a lexer one at a time (`Source.session_sees_tokens`). The number `i` goes up with what is done:
by one where the session advances, by one or not at all where a token is required, and it stays where the session
looks, records an error or makes a node (`Session.reachesIn_andThen`).

Key definitions: `Parser.State.ReachesIn`, `Rule`, `Session`, `Session.exec`, `Session.passes?`.
Key theorems: `Parser.State.ReachesIn.at`, `Session.exec_eq`, `Session.reachesIn_andThen`,
`Source.session_sees_tokens`.
-/
import ViperFrontend.Proofs.Parser.Progress
import ViperFrontend.Proofs.Token.Pull

namespace Viper

open Viper.Parser

/-! ### Where a parse stands -/

namespace Parser.State

/-- The states that come after `s` in a parse, `n` tokens further on. -/
inductive ReachesIn (s : State) : Nat → State → Prop
  | refl : ReachesIn s 0 s
  | advance {n : Nat} {t : State} : ReachesIn s n t → ReachesIn s (n + 1) t.advance
  | record {n : Nat} {t : State} (e : SyntaxError) : ReachesIn s n t → ReachesIn s n (t.record e)
  | alloc {n : Nat} {t : State} (construct : Construct) (token : Token) :
      ReachesIn s n t → ReachesIn s n (t.alloc construct token).2
  | pushRoot {n : Nat} {t : State} (id : NodeId) : ReachesIn s n t → ReachesIn s n (t.pushRoot id)

/-- Every way from state to state passes some number of tokens. -/
theorem Reaches.exists_reachesIn {s t : State} (h : s.Reaches t) : ∃ n, s.ReachesIn n t := by
  induction h with
  | refl => exact ⟨0, .refl⟩
  | advance _ ih =>
    obtain ⟨n, reached⟩ := ih
    exact ⟨n + 1, .advance reached⟩
  | record e _ ih =>
    obtain ⟨n, reached⟩ := ih
    exact ⟨n, .record e reached⟩
  | alloc construct token _ ih =>
    obtain ⟨n, reached⟩ := ih
    exact ⟨n, .alloc construct token reached⟩
  | pushRoot id _ ih =>
    obtain ⟨n, reached⟩ := ih
    exact ⟨n, .pushRoot id reached⟩

theorem ReachesIn.trans {s t u : State} {n k : Nat} (h : s.ReachesIn n t) (onward : t.ReachesIn k u) :
    s.ReachesIn (n + k) u := by
  induction onward with
  | refl => exact h
  | advance _ ih => exact ih.advance
  | record e _ ih => exact ih.record e
  | alloc construct token _ ih => exact ih.alloc construct token
  | pushRoot id _ ih => exact ih.pushRoot id

/-- Where a token is required, it is passed; another one in its place is passed as well, unless it is a
boundary. -/
theorem reachesIn_expect (expected : TokenKind) (s : State) :
    s.ReachesIn (if s.current.kind = expected ∨ s.current.kind.isBoundary = false then 1 else 0)
      ((expect expected).run.run s).2 := by
  by_cases required : s.current.kind = expected
  · simpa [expect, required] using ReachesIn.refl.advance
  · by_cases boundary : s.current.kind.isBoundary = true
    · simpa [expect, passOffending, required, boundary] using ReachesIn.refl
    · simpa [expect, passOffending, required, boundary] using ReachesIn.refl.advance

/-- The reported faults of texts, in order. -/
def lexicalErrors (s : State) : List Diagnostic :=
  s.errors.toList.filter (·.fault.isLexical)

/-- The parse of a source stands at its token number `i`, and the faults of the texts up to one token
further are reported. -/
structure At (t : State) (source : Source) (i : Nat) : Prop where
  file_eq : t.file = source.name
  ahead_eq : t.ahead = source.scan.scanned.drop i
  endLine_eq : t.endLine = source.scan.endLine
  lexical_eq : t.lexicalErrors = source.diagnosticsOfFirst (i + 2)

variable {source : Source} {i : Nat} {t : State}

theorem isLexical_of_diagnostic? {file : String} {x : Scanned} {d : Diagnostic}
    (h : x.diagnostic? file = some d) : d.fault.isLexical = true := by
  obtain ⟨fault, -, rfl⟩ := Option.map_eq_some_iff.1 h
  rfl

/-- When a token is read no error of the syntax is recorded. -/
theorem mem_of_mem_noteFault {file : String} {read : Option Scanned} {errors : Array Diagnostic}
    {d : Diagnostic} (mem : d ∈ noteFault file read errors) (syntactic : d.fault.isLexical = false) :
    d ∈ errors := by
  rw [← Array.mem_toList_iff, toList_noteFault, List.mem_append] at mem
  rcases mem with before | noted
  · exact Array.mem_toList_iff.1 before
  · obtain ⟨x, -, diagnosed⟩ := Option.bind_eq_some_iff.1 (Option.mem_toList.1 noted)
    rw [isLexical_of_diagnostic? diagnosed] at syntactic
    cases syntactic

theorem mem_errors_of_advance {d : Diagnostic} (mem : d ∈ t.advance.errors)
    (syntactic : d.fault.isLexical = false) : d ∈ t.errors := by
  unfold State.advance at mem
  split at mem
  · exact mem
  · exact mem_of_mem_noteFault mem syntactic

theorem filter_noteFault (file : String) (read : Option Scanned) (errors : Array Diagnostic) :
    (noteFault file read errors).toList.filter (·.fault.isLexical) =
      errors.toList.filter (·.fault.isLexical) ++ (read.bind (·.diagnostic? file)).toList := by
  rw [toList_noteFault, List.filter_append]
  congr 1
  refine List.filter_eq_self.2 fun d mem => ?_
  obtain ⟨x, -, fault⟩ := Option.bind_eq_some_iff.1 (Option.mem_toList.1 mem)
  exact isLexical_of_diagnostic? fault

theorem at_start (limit : Nat) (source : Source) : (start limit source).At source 0 := by
  refine ⟨rfl, rfl, rfl, ?_⟩
  show (noteFault _ _ (noteFault _ _ #[])).toList.filter _ = _
  rw [filter_noteFault, filter_noteFault, source.diagnosticsOfFirst_succ 1,
    source.diagnosticsOfFirst_succ 0]
  rfl

theorem At.advance (h : t.At source i) : t.advance.At source (i + 1) := by
  have later : source.scan.scanned.drop (i + 1) = t.ahead.tail := by
    rw [h.ahead_eq, List.tail_drop]
  have read : source.scan.scanned[i + 2]? = t.ahead.tail[1]? := by
    rw [← later, List.getElem?_drop]
  have reported := source.diagnosticsOfFirst_succ (i + 2)
  rw [read, ← h.lexical_eq] at reported
  unfold State.advance
  split
  · rename_i none
    refine ⟨h.file_eq, ?_, h.endLine_eq, ?_⟩
    · rw [later, none]
      rfl
    · rw [reported, none]
      simp
  · rename_i first rest ahead
    rw [ahead] at later reported
    refine ⟨h.file_eq, later.symm, h.endLine_eq, ?_⟩
    rw [reported, ← h.file_eq]
    exact filter_noteFault _ _ _

/-- **A parse sees the tokens of its source one after the other.** -/
theorem ReachesIn.at {limit : Nat} (h : (start limit source).ReachesIn i t) : t.At source i := by
  induction h with
  | refl => exact at_start limit source
  | advance _ ih => exact ih.advance
  | record e _ ih =>
    refine ⟨ih.file_eq, ih.ahead_eq, ih.endLine_eq, Eq.trans ?_ ih.lexical_eq⟩
    simp [lexicalErrors, State.record, Fault.isLexical]
  | alloc construct token _ ih => exact ⟨ih.file_eq, ih.ahead_eq, ih.endLine_eq, ih.lexical_eq⟩
  | pushRoot id _ ih => exact ⟨ih.file_eq, ih.ahead_eq, ih.endLine_eq, ih.lexical_eq⟩

theorem At.current_eq (h : t.At source i) : t.current = source.tokenAt i := by
  have here : source.scan.scanned[i]? = t.ahead[0]? := by
    rw [h.ahead_eq, List.getElem?_drop, Nat.add_zero]
  rw [Source.tokenAt_eq, here, ← h.endLine_eq]
  unfold current
  cases t.ahead <;> rfl

theorem At.peek_eq (h : t.At source i) : t.peek = source.tokenAt (i + 1) := by
  rw [← current_advance]
  exact h.advance.current_eq

/-- With no token ahead everything is reported. -/
theorem At.lexical_eq_of_ahead_eq_nil (h : t.At source i) (ended : t.ahead = []) :
    t.lexicalErrors = source.tokenize.2 := by
  have behind := h.ahead_eq.symm.trans ended
  rw [List.drop_eq_nil_iff] at behind
  rw [h.lexical_eq, Source.diagnosticsOfFirst_of_length_le (by omega)]

end Parser.State

/-! ### Sessions -/

/-- The parsers of constructs that may be called. -/
inductive Rule where
  | expr | exprOrInvalid | exprPrimary | exprPrefixed | exprGrouping | exprIdentifier | exprCall
  | exprBinary (left : NodeId) (p : Precedence)
  | stmt | exprStmt | varDecl | returnStmt | ifStmt | danglingClause | whileLoop | doWhileLoop | forLoop
  | block | struct | procedure
  | dataType | dataTypeOrInvalid

namespace Rule

/-- The parser of a construct, given those one level further in. -/
def parser (inner : Statement.Inner) : Rule → Attempt NodeId
  | .expr => Expression.parse inner.exprs
  | .exprOrInvalid => Expression.parseOrInvalid inner.exprs
  | .exprPrimary => Expression.primary inner.exprs
  | .exprPrefixed => Expression.prefixed inner.exprs
  | .exprGrouping => Expression.grouping inner.exprs
  | .exprIdentifier => Expression.identifier inner.exprs
  | .exprCall => Expression.call inner.exprs
  | .exprBinary left p => Expression.binary inner.exprs left p
  | .stmt => Statement.parse inner
  | .exprStmt => Statement.expression inner
  | .varDecl => Statement.varDecl inner
  | .returnStmt => Statement.returnStmt inner
  | .ifStmt => Statement.conditional inner .ifBranch
  | .danglingClause => Statement.dangling inner
  | .whileLoop => Statement.whileLoop inner
  | .doWhileLoop => Statement.doWhileLoop inner
  | .forLoop => Statement.forLoop inner
  | .block => Statement.block inner
  | .struct => Item.struct inner
  | .procedure => Item.procedure inner
  | .dataType => DataType.parse
  | .dataTypeOrInvalid => DataType.parseOrInvalid

end Rule

/-- A use of the operations of a parser. -/
inductive Session : Type → Type 1
  | done {α : Type} (a : α) : Session α
  /-- one session and then another, which may depend on what the first gave -/
  | andThen {α β : Type} (first : Session α) (next : α → Session β) : Session β
  | current : Session Token
  | peek : Session Token
  | advance : Session Token
  | expect (expected : TokenKind) : Session (Except SyntaxError Token)
  | eat (expected : TokenKind) : Session Token
  /-- the error that another token than the current one was required -/
  | unexpected (expected : TokenKind) : Session SyntaxError
  /-- records such an error, also one that was built earlier -/
  | record (expected : TokenKind) (found : Token) : Session Unit
  | alloc (construct : Construct) (token : Token) : Session NodeId
  /-- the node of a result that another operation gave -/
  | recover (result : Except SyntaxError NodeId) : Session NodeId
  | nested (body : Session (Except SyntaxError NodeId)) : Session (Except SyntaxError NodeId)
  | rule (construct : Rule) : Session (Except SyntaxError NodeId)
  | dataTypeToken : Session (Except SyntaxError Token)
  | program : Session Unit

/-- The state of a parse and how deep it is nested. -/
structure Machine where
  state : State
  depth : Nat

namespace Machine

/-- A parser before the first token of a source. -/
def start (source : Source) : Machine :=
  ⟨State.start maxNesting source, 0⟩

/-- The levels that are left. -/
def room (m : Machine) : Nat :=
  m.state.limit - m.depth

/-- Runs a parser, which leaves the depth as it is. -/
def perform {α : Type} (m : Machine) (p : Parser α) : α × Machine :=
  ((p.run m.state).1, ⟨(p.run m.state).2, m.depth⟩)

end Machine

namespace Session

/-- What a session does as a parser with room for `room` more levels. -/
def parser {α : Type} : Session α → Nat → Parser α
  | .done a, _ => pure a
  | .andThen first next, room => first.parser room >>= fun a => (next a).parser room
  | .current, _ => Parser.current
  | .peek, _ => Parser.peek
  | .advance, _ => Parser.advance
  | .expect expected, _ => (Parser.expect expected).run
  | .eat expected, _ => Parser.eat expected
  | .unexpected expected, _ => Parser.unexpected expected <$> Parser.current
  | .record expected found, _ => Parser.record (Parser.unexpected expected found)
  | .alloc construct token, _ => Parser.alloc construct token
  | .recover result, _ => Parser.recover (ExceptT.mk (pure result))
  | .nested body, room => (Parser.nested room fun room => ExceptT.mk (body.parser room)).run
  | .rule construct, room => (construct.parser (Statement.Inner.ofRoom room)).run
  | .dataTypeToken, _ => DataType.token.run
  | .program, room => Item.program (Statement.Inner.ofRoom room)

/-- Runs a session. A counter holds the depth: up before what is nested, down after it. -/
def exec {α : Type} : Session α → Machine → α × Machine
  | .andThen first next, m =>
    let done := first.exec m
    (next done.1).exec done.2
  | .nested body, m =>
    if m.state.limit ≤ m.depth then m.perform tooDeep.run
    else
      let done := body.exec { m with depth := m.depth + 1 }
      (done.1, { done.2 with depth := done.2.depth - 1 })
  | session, m => m.perform (session.parser m.room)

/-- **The counter of depth and the room that is left** say the same, and after a session the counter
is back where it was. -/
theorem exec_eq {α : Type} (session : Session α) (m : Machine) :
    session.exec m = m.perform (session.parser m.room) := by
  induction session generalizing m with
  | andThen first next ihFirst ihNext =>
    rw [exec, ihFirst, ihNext]
    have same : (m.perform (first.parser m.room)).2.room = m.room := by
      show ((first.parser m.room).run m.state).2.limit - m.depth = m.room
      rw [((first.parser m.room).reaches m.state).limit_eq]
      rfl
    rw [same]
    rfl
  | nested body ih =>
    rw [exec, parser]
    split
    · rename_i full
      have none : m.room = 0 := Nat.sub_eq_zero_of_le full
      rw [none]
      rfl
    · rename_i free
      have less : m.room = (⟨m.state, m.depth + 1⟩ : Machine).room + 1 := by
        simp only [Machine.room]
        omega
      rw [ih, less]
      rfl
  | _ => rfl

theorem depth_exec {α : Type} (session : Session α) (m : Machine) :
    (session.exec m).2.depth = m.depth := by
  rw [exec_eq]
  rfl

theorem reaches_exec {α : Type} (session : Session α) (m : Machine) :
    m.state.Reaches (session.exec m).2.state := by
  rw [exec_eq]
  exact (session.parser m.room).reaches m.state

theorem reaches_exec_start {α : Type} (session : Session α) (source : Source) :
    (State.start maxNesting source).Reaches (session.exec (Machine.start source)).2.state :=
  session.reaches_exec (Machine.start source)

/-- What one session and then another reaches, the other reaches from where the first ends. -/
theorem reaches_andThen {α β : Type} (first : Session α) (next : α → Session β) (m : Machine) :
    (first.exec m).2.state.Reaches ((first.andThen next).exec m).2.state :=
  reaches_exec _ _

/-- How many tokens an operation passes in a state if it parses no construct. A token that is required is
passed, and one in its place as well, unless that is a boundary. -/
def passes? (s : State) {α : Type} : Session α → Option Nat
  | .done _ | .current | .peek | .unexpected _ | .record _ _ | .alloc _ _ | .recover _ => some 0
  | .advance => some 1
  | .expect expected | .eat expected =>
    some (if s.current.kind = expected ∨ s.current.kind.isBoundary = false then 1 else 0)
  | .andThen _ _ | .nested _ | .rule _ | .dataTypeToken | .program => none

theorem reachesIn_of_passes {α : Type} {session : Session α} {s : State} {n : Nat} (room : Nat)
    (passes : session.passes? s = some n) : s.ReachesIn n ((session.parser room).run s).2 := by
  cases session with
  | andThen | nested | rule | dataTypeToken | program => cases passes
  | done | current | peek | unexpected =>
    cases passes
    exact .refl
  | advance =>
    cases passes
    exact .advance .refl
  | record =>
    cases passes
    exact .record _ .refl
  | alloc =>
    cases passes
    exact .alloc _ _ .refl
  | recover result =>
    cases passes
    cases result with
    | ok => exact .refl
    | error e => exact .alloc _ _ (.record e .refl)
  | expect expected =>
    cases passes
    exact State.reachesIn_expect expected s
  | eat expected =>
    cases passes
    have required := State.reachesIn_expect expected s
    unfold parser Parser.eat
    rw [run_bind, run_current, run_bind]
    rcases outcome : (Parser.expect expected).run.run s with ⟨result, t⟩
    rw [outcome] at required
    cases result with
    | ok => exact required
    | error e => exact required.record e

/-- **The number of tokens that are passed goes up with the operations**: where a session has passed `i` tokens
and what it does next passes `n` of them, it has then passed `i + n`. -/
theorem reachesIn_andThen {α β : Type} {first : Session α} {next : α → Session β} {m : Machine} {s : State}
    {i n : Nat} (reached : s.ReachesIn i (first.exec m).2.state)
    (passes : (next (first.exec m).1).passes? (first.exec m).2.state = some n) :
    s.ReachesIn (i + n) ((first.andThen next).exec m).2.state := by
  have onward := reachesIn_of_passes (first.exec m).2.room passes
  rw [exec, exec_eq]
  exact reached.trans onward

/-- After the whole file is parsed no token is left. -/
theorem ahead_exec_program {α : Type} (first : Session α) (source : Source) :
    ((first.andThen fun _ => .program).exec (Machine.start source)).2.state.ahead = [] := by
  refine Source.ahead_eq_nil_of_reaches (reaches_exec_start _ source) ?_
  exact Item.kind_current_program _ _

end Session

namespace Source

/-- **A parser sees the tokens of its source one after the other**, whatever is done with it. After
every session the depth is 0, what was reported stays in front of what is reported later, and if `i`
tokens have been passed, the current token and the one after it are those at the places `i` and `i + 1`
and the reported faults of texts are those of the first `i + 2` tokens, just as for tokens that are
pulled one at a time. Once the whole file has been parsed the current token ends it, and all faults
of its text are reported. -/
theorem session_sees_tokens (source : Source) {α : Type} (session : Session α) :
    let m := (session.exec (Machine.start source)).2
    m.depth = 0 ∧
      (∀ (β : Type) (next : α → Session β), m.state.errors.toList <+:
        ((session.andThen next).exec (Machine.start source)).2.state.errors.toList) ∧
      (∃ i, (State.start maxNesting source).ReachesIn i m.state) ∧
      (∀ i, (State.start maxNesting source).ReachesIn i m.state →
        (m.state.current = source.tokenAt i ∧ m.state.peek = source.tokenAt (i + 1) ∧
          m.state.lexicalErrors = source.diagnosticsOfFirst (i + 2)) ∧
        (m.state.current = (Window.after source i).current ∧
          m.state.peek = (Window.after source i).peek ∧
          m.state.lexicalErrors = (Window.after source i).taken.toList)) ∧
      ∀ (β : Type) (next : Unit → Session β),
        let last := (((session.andThen fun _ => .program).andThen next).exec (Machine.start source)).2
        last.state.current = Token.endOfFile source.scan.endLine ∧
          last.state.lexicalErrors = source.tokenize.2 := by
  intro m
  have reached := session.reaches_exec_start source
  refine ⟨session.depth_exec _, fun β next => ?_, reached.exists_reachesIn, fun i steps => ?_,
    fun β next => ?_⟩
  · exact (session.reaches_andThen next _).errors_extend
  · have here := steps.at
    have window := Window.at_after source i
    refine ⟨⟨here.current_eq, here.peek_eq, here.lexical_eq⟩, ?_, ?_, ?_⟩
    · rw [here.current_eq, window.current_eq]
    · rw [here.peek_eq, window.peek_eq]
    · rw [here.lexical_eq, window.taken_eq]
  · intro last
    have parsed := session.ahead_exec_program source
    have onward := (session.andThen fun _ => .program).reaches_andThen next (Machine.start source)
    have ended : last.state.ahead = [] := List.suffix_nil.1 (parsed ▸ onward.ahead_suffix)
    obtain ⟨i, steps⟩ := (Session.reaches_exec_start _ source).exists_reachesIn
    refine ⟨?_, steps.at.lexical_eq_of_ahead_eq_nil ended⟩
    unfold State.current
    rw [ended, ← steps.at.endLine_eq]
    rfl

end Source
end Viper
