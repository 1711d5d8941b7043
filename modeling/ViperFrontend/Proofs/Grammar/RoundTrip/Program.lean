/-
# A printed program is parsed back

The items of a program are accepted one after the other, and each is added to the file: what is parsed of
the canonical text of a program holds the program at its roots, and nothing else (`Item.settles_items`).
Whether there are levels enough is said by the program alone. If there are, nothing is reported; if not, it
is reported that something is nested too deeply (`Source.parse_text`).

Key theorems: `Item.accepts_item`, `Item.settles_items`, `Source.parse_text`.
-/
import ViperFrontend.Proofs.Grammar.RoundTrip.Statement

namespace Viper

open Viper.Parser Program
open Word (symbol nextKind)

variable {s last : State} {rest : List Word}

namespace Item

open Statement (Inner accepts_varDecl accepts_blockOrInvalid acceptsBlock beforeBoundary?
  beforeBoundary?_eq_none beforeBoundary?_eq_some)

variable {room : Nat}

theorem accepts_parameter {param : ParamDecl Unit} (here : s.Ahead (param.words ++ rest)) :
    parameter.Accepts last s True rest fun node => last.ast.HoldsParam Token.forget node param := by
  refine accepts_eat_bind here rfl fun name t word here => ?_
  refine accepts_eat_bind here rfl fun _ t _ here => ?_
  refine (DataType.accepts_token here).settle trivial fun type t here text => ?_
  show (alloc (.procParameter name.text type) name).Accepts _ _ _ _ _
  rw [show name.text = param.name from congrArg Word.text word]
  exact accepts_alloc trivial here fun node shown => ⟨type, shown, text, rfl⟩

theorem accepts_procedure {proc : ProcDecl Unit} (valid : proc.isValid = true)
    (here : s.Ahead (proc.words ++ rest)) :
    (procedure (.ofRoom room)).Accepts last s (proc.body.levels ≤ room) rest fun node =>
      last.ast.HoldsProc Token.forget node proc := by
  simp only [ProcDecl.isValid, Bool.and_eq_true] at valid
  have opening : s.Ahead (symbol .kwProc :: nameWord proc.name :: symbol .openParen ::
      (commaSeparated (proc.params.map ParamDecl.words) ++ symbol .closeParen :: symbol .colon ::
        proc.type.word :: (proc.body.words ++ rest))) := by
    simpa [ProcDecl.words] using here
  have items : ∀ param ∈ proc.params, AcceptsItem parameter last (fun _ => True) ParamDecl.words
      (last.ast.HoldsParam Token.forget) param := by
    intro param _ t rest _ here
    have kind : t.current.kind = .identifier := State.Ahead.kind_current here
    exact ⟨by rw [kind]; decide, by rw [kind]; decide, accepts_parameter here⟩
  refine accepts_advance_bind opening fun start t _ here => ?_
  refine accepts_eat_bind here rfl fun name t word here => ?_
  refine accepts_eat_bind here rfl fun _ t _ here => ?_
  refine (accepts_commaList items here rfl).bind (fun _ _ _ => trivial) ?_
  intro params t _ here heldParams
  refine accepts_eat_bind here rfl fun _ t _ here => ?_
  refine accepts_eat_bind here rfl fun _ t _ here => ?_
  refine (DataType.accepts_parseOrInvalid here).bind (fun _ => trivial) ?_
  intro type t _ here heldType
  refine (accepts_blockOrInvalid (acceptsBlock proc.body valid.2) here).bind id ?_
  intro body t yes here heldBody
  rw [show name.text = proc.name from congrArg Word.text word]
  exact accepts_alloc yes here fun node shown =>
    ⟨params, type, body, shown, heldParams, heldType, heldBody⟩

theorem accepts_field {field : FieldDecl Unit} (here : s.Ahead (field.words ++ rest)) :
    Item.field.Accepts last s True rest fun node => last.ast.HoldsField Token.forget node field := by
  refine accepts_advance_bind here fun name t word here => ?_
  refine accepts_eat_bind here rfl fun _ t _ here => ?_
  refine (DataType.accepts_parseOrInvalid here).bind id fun type t yes here heldType => ?_
  refine accepts_eat_bind here rfl fun _ t _ here => ?_
  rw [show name.text = field.name from congrArg Word.text word]
  exact accepts_alloc yes here fun node shown => ⟨type, shown, heldType⟩

/-! ### Structs -/

/-- The fields of a struct come first. -/
theorem accepts_fields_from {fits : Prop} {ws : List Word} {Q : Members → Prop} :
    ∀ (fields : List (FieldDecl Unit)) (members : Members) (s : State),
    s.Ahead (fields.flatMap FieldDecl.words ++ ws) →
    (∀ t nodes, t.Ahead ws → List.Forall₂ (last.ast.HoldsField Token.forget) nodes fields →
      (foldWhile beforeBoundary? (memberRound (.ofRoom room)) (moves_memberRound _)
        { members with fields := members.fields ++ nodes.toArray }).Accepts last t fits rest Q) →
    (foldWhile beforeBoundary? (memberRound (.ofRoom room)) (moves_memberRound _) members).Accepts
      last s fits rest Q
  | [], members, s, here, next => by
    simpa using next s [] here .nil
  | field :: fields, members, s, here, next => by
    rw [List.flatMap_cons, List.append_assoc] at here
    have kind : s.current.kind = .identifier := State.Ahead.kind_current here
    refine accepts_foldWhile_again (beforeBoundary?_eq_some (by rw [kind]; rfl)) ?_
    have round : (memberRound (.ofRoom room) s.current members).Accepts last s True
        (fields.flatMap FieldDecl.words ++ ws) fun ms => ∃ node,
          ms = { members with fields := members.fields.push node } ∧
            last.ast.HoldsField Token.forget node field := by
      unfold memberRound
      rw [kind]
      exact (accepts_field here).bind id fun node t yes here held =>
        accepts_pure yes here ⟨node, rfl, held⟩
    refine round.bind (fun _ => trivial) ?_
    rintro _ t _ here ⟨node, rfl, held⟩
    refine accepts_fields_from fields _ t here fun u nodes here' heldNodes => ?_
    have all := next u (node :: nodes) here' (.cons held heldNodes)
    simpa using all

theorem accepts_methods_from : ∀ (methods : List (ProcDecl Unit)) (members : Members) (s : State),
    methods.all ProcDecl.isValid = true →
    s.Ahead (methods.flatMap ProcDecl.words ++ symbol .closeCurly :: rest) →
    (foldWhile beforeBoundary? (memberRound (.ofRoom room)) (moves_memberRound _) members).Accepts
      last s (∀ proc ∈ methods, proc.body.levels ≤ room) (symbol .closeCurly :: rest) fun ms =>
        ms.fields = members.fields ∧ ∃ nodes, ms.methods.toList = members.methods.toList ++ nodes ∧
          List.Forall₂ (last.ast.HoldsProc Token.forget) nodes methods
  | [], members, s, _, here => by
    have boundary : beforeBoundary? s = none :=
      beforeBoundary?_eq_none (by rw [here.kind_current]; rfl)
    exact accepts_foldWhile_done boundary (by simp) here ⟨rfl, [], by simp, .nil⟩
  | proc :: methods, members, s, valid, here => by
    obtain ⟨validFirst, validOthers⟩ := Bool.and_eq_true_iff.1 valid
    rw [List.flatMap_cons, List.append_assoc] at here
    have kind : s.current.kind = .kwProc := State.Ahead.kind_current here
    refine accepts_foldWhile_again (beforeBoundary?_eq_some (by rw [kind]; rfl)) ?_
    have round : (memberRound (.ofRoom room) s.current members).Accepts last s
        (proc.body.levels ≤ room)
        (methods.flatMap ProcDecl.words ++ symbol .closeCurly :: rest) fun ms => ∃ node,
          ms = { members with methods := members.methods.push node } ∧
            last.ast.HoldsProc Token.forget node proc := by
      unfold memberRound
      rw [kind]
      exact (accepts_procedure validFirst here).bind id fun node t yes here held =>
        accepts_pure yes here ⟨node, rfl, held⟩
    refine round.bind (fun all => all proc (by simp)) ?_
    rintro _ t yes here ⟨node, rfl, held⟩
    refine (accepts_methods_from methods _ t validOthers here).imp ?_ ?_
    · rw [List.forall_mem_cons]
      exact (and_iff_right yes).symm
    · rintro ms ⟨fields, nodes, split, heldNodes⟩
      exact ⟨fields, node :: nodes, by simp [split], .cons held heldNodes⟩

theorem accepts_struct {name : String} {fields : List (FieldDecl Unit)}
    {methods : List (ProcDecl Unit)} (valid : methods.all ProcDecl.isValid = true)
    (here : s.Ahead ((ItemDecl.struct () name fields methods).words ++ rest)) :
    (Item.struct (.ofRoom room)).Accepts last s
      ((ItemDecl.struct () name fields methods).levels ≤ room) rest fun node =>
        last.ast.HoldsItem Token.forget node (.struct () name fields methods) := by
  have opening : s.Ahead (symbol .kwStruct :: nameWord name :: symbol .openCurly ::
      (fields.flatMap FieldDecl.words ++
        (methods.flatMap ProcDecl.words ++ symbol .closeCurly :: rest))) := by
    simpa [ItemDecl.words] using here
  rw [show (ItemDecl.struct () name fields methods).levels =
    (methods.map (·.body.levels)).foldr max 0 from rfl, foldr_max_le_iff]
  refine accepts_advance_bind opening fun start t _ here => ?_
  refine accepts_eat_bind here rfl fun token t word here => ?_
  refine accepts_eat_bind here rfl fun _ t _ here => ?_
  have body : (Item.members (.ofRoom room)).Accepts last t
      (∀ proc ∈ methods, proc.body.levels ≤ room) (symbol .closeCurly :: rest) fun ms =>
        List.Forall₂ (last.ast.HoldsField Token.forget) ms.fields.toList fields ∧
          List.Forall₂ (last.ast.HoldsProc Token.forget) ms.methods.toList methods := by
    refine accepts_fields_from fields _ t here fun u nodes here heldFields => ?_
    refine (accepts_methods_from methods _ u valid here).imp .rfl ?_
    rintro ms ⟨sameFields, procs, split, heldMethods⟩
    rw [sameFields, split]
    exact ⟨by simpa using heldFields, by simpa using heldMethods⟩
  refine body.bind id ?_
  rintro ms t yes here ⟨heldFields, heldMethods⟩
  refine accepts_eat_bind here rfl fun _ t _ here => ?_
  rw [show token.text = name from congrArg Word.text word]
  exact accepts_alloc yes here fun node shown => .struct shown heldFields heldMethods

/-! ### Programs -/

/-- The first word of an item says which parser it is for, and that accepts it. -/
theorem accepts_item (last : State) (room : Nat) (item : ItemDecl Unit) (valid : item.isValid = true)
    (here : s.Ahead (item.words ++ rest)) :
    s.current.kind ≠ .eof ∧ ∃ parser, ofToken? (.ofRoom room) s.current = some parser ∧
      parser.Accepts last s (item.levels ≤ room) rest fun node =>
        last.ast.HoldsItem Token.forget node item := by
  cases item with
  | varDecl decl =>
    have kind : s.current.kind = .kwLet := State.Ahead.kind_current here
    refine ⟨by rw [kind]; decide, Statement.varDecl (.ofRoom room), ?_, ?_⟩
    · simp [ofToken?, kind]
    · exact (accepts_varDecl valid here).imp .rfl fun _ held => .varDecl held
  | struct _ name fields methods =>
    have kind : s.current.kind = .kwStruct := State.Ahead.kind_current here
    refine ⟨by rw [kind]; decide, Item.struct (.ofRoom room), ?_, ?_⟩
    · simp [ofToken?, kind]
    · exact accepts_struct (Bool.and_eq_true_iff.1 valid).2 here
  | proc p =>
    have kind : s.current.kind = .kwProc := State.Ahead.kind_current here
    refine ⟨by rw [kind]; decide, procedure (.ofRoom room), ?_, ?_⟩
    · simp [ofToken?, kind]
    · exact (accepts_procedure valid here).imp .rfl fun _ held => .proc held

/-- A round at an item reads it and adds its node to the roots, if it fits. -/
theorem settles_programRound (last : State) (room : Nat) (item : ItemDecl Unit)
    (valid : item.isValid = true) (here : s.Ahead (item.words ++ rest)) (opened : RootsOpen s)
    (skipping : Bool) :
    (programRound (.ofRoom room) s.current skipping).Ensures s fun _ t =>
      RootsOpen t ∧ s.Settles t last (item.levels ≤ room) rest
        (∃ node, t.ast.roots = s.ast.roots.push node ∧
          last.ast.HoldsItem Token.forget node item) := by
  obtain ⟨-, parser, starts, accepts⟩ := accepts_item last room item valid here
  have roots := roots_ofToken? (Statement.builds_ofRoom room) starts opened
  refine ⟨open_programRound (Statement.builds_ofRoom room) s.current skipping opened, ?_⟩
  unfold programRound
  rw [starts]
  intro reached
  rcases accepts (.trans (.pushRoot _ .refl) reached) with ⟨yes, here, same, held⟩ | no
  · exact .inl ⟨yes, here, same, _, congrArg (Array.push · _) roots, held⟩
  · exact .inr no

/-- **The items of a program are read one after the other**, if all of them fit. -/
theorem settles_items (last : State) (room : Nat) : ∀ (items : List (ItemDecl Unit))
    (skipping : Bool) (s : State), (∀ item ∈ items, item.isValid = true) →
    s.Ahead (items.flatMap ItemDecl.words) → RootsOpen s →
    (foldWhile beforeEnd? (programRound (.ofRoom room)) (moves_programRound _) skipping).Ensures s
      fun _ t => s.Settles t last (∀ item ∈ items, item.levels ≤ room) []
        (∃ nodes, t.ast.roots.toList = s.ast.roots.toList ++ nodes ∧
          List.Forall₂ (last.ast.HoldsItem Token.forget) nodes items)
  | [], skipping, s, _, here, _ => by
    have ended : beforeEnd? s = none := by
      unfold beforeEnd?
      rw [here.kind_current]
      rfl
    exact ensures_foldWhile_done ended fun _ => .inl ⟨by simp, here, rfl, [], by simp, .nil⟩
  | item :: items, skipping, s, valid, here, opened => by
    obtain ⟨validFirst, validOthers⟩ := List.forall_mem_cons.1 valid
    rw [List.flatMap_cons] at here
    have more : beforeEnd? s = some s.current := by
      unfold beforeEnd?
      rw [if_neg (accepts_item last room item validFirst here).1]
    apply ensures_foldWhile_again more
    refine (settles_programRound last room item validFirst here opened skipping).bind ?_
    rintro skipping t - ⟨opened, first⟩ reached
    rw [List.forall_mem_cons]
    have later := (foldWhile beforeEnd? (programRound (.ofRoom room)) (moves_programRound _)
      skipping).reaches t |>.trans reached
    rcases first later with ⟨yes, here, same, node, roots, held⟩ | ⟨no, deep⟩
    · have others := settles_items last room items skipping t validOthers here opened
      rcases others reached with ⟨yes', here, same', nodes, split, held'⟩ | ⟨no, deep⟩
      · refine .inl ⟨⟨yes, yes'⟩, here, same'.trans same, node :: nodes, ?_, .cons held held'⟩
        rw [split, roots]
        simp
      · exact .inr ⟨fun both => no both.2, deep⟩
    · exact .inr ⟨fun both => no both.1, deep⟩

/-- All items of a program are read, if they fit. -/
theorem settles_program (last : State) (room : Nat) {items : List (ItemDecl Unit)}
    (valid : ∀ item ∈ items, item.isValid = true) (here : s.Ahead (items.flatMap ItemDecl.words))
    (opened : RootsOpen s) :
    (program (.ofRoom room)).Ensures s fun _ t =>
      s.Settles t last (∀ item ∈ items, item.levels ≤ room) []
        (∃ nodes, t.ast.roots.toList = s.ast.roots.toList ++ nodes ∧
          List.Forall₂ (last.ast.HoldsItem Token.forget) nodes items) :=
  (settles_items last room items false s valid here opened).bind fun _ _ _ settled => settled

end Item

namespace Source

/-- The words of a program are ahead where the parse of its text starts, and nothing is
recorded yet. -/
theorem start_text (limit : Nat) (name : String) {program : List (ItemDecl Unit)}
    (valid : ∀ item ∈ program, item.isValid = true) :
    let start := State.start limit ⟨name, text program⟩
    start.Ahead (program.flatMap ItemDecl.words) ∧ start.errors = #[] := by
  intro start
  have spelled : (program.flatMap ItemDecl.words).all Word.isSpelled = true := by
    rw [List.all_flatMap]
    exact List.all_eq_true.2 fun item mem => item.all_isSpelled (valid item mem)
  have here : start.Ahead (program.flatMap ItemDecl.words) := by
    have scanned := Word.scanned_join _ 1 spelled
    rw [← String.toList_ofList (l := Word.join _)] at scanned
    exact scanned
  have none : ∀ i errors, State.noteFault name start.ahead[i]? errors = errors :=
    State.noteFault_getElem? here.clean name
  exact ⟨here, (none 1 _).trans (none 0 #[])⟩

/-- **The text of a program is parsed back, whatever the limit of nesting**, if each item fits
into it; if one does not, that is reported. -/
theorem parseWith_text (limit : Nat) (name : String) {program : List (ItemDecl Unit)}
    (valid : ∀ item ∈ program, item.isValid = true) :
    let parsed := (⟨name, text program⟩ : Source).parseWith limit
    ((∀ item ∈ program, item.levels ≤ limit) ∧ parsed.errors = #[] ∧
        List.Forall₂ (parsed.ast.HoldsItem Token.forget) parsed.ast.roots.toList program) ∨
      (¬ (∀ item ∈ program, item.levels ≤ limit) ∧
        ∃ d ∈ parsed.errors, d.fault = .syntactic (.nestingTooDeep limit)) := by
  intro parsed
  obtain ⟨here, clean⟩ := start_text limit name valid
  have opened := Item.rootsOpen_start limit ⟨name, text program⟩
  have settled := Item.settles_program _ limit valid here opened .refl
  rcases settled with ⟨fits, -, errors, nodes, roots, held⟩ | ⟨no, d, mem, fault⟩
  · refine .inl ⟨fits, errors.trans clean, ?_⟩
    rw [show parsed.ast.roots.toList = nodes from roots]
    exact held
  · refine .inr ⟨no, d, mem, ?_⟩
    rwa [(Parser.reaches _ _).limit_eq] at fault

/-- **The text of a program is parsed back.** The levels of an item are those its parse needs:
under each limit, that something is nested too deeply is reported just if an item has more
levels. If no item has more than the limit of a parse, nothing is reported, and the trees at the
roots are the program and no other. -/
theorem parse_text (name : String) (program : List (ItemDecl Unit))
    (valid : ∀ item ∈ program, item.isValid = true) :
    let source : Source := ⟨name, text program⟩
    (∀ limit, (∃ d ∈ (source.parseWith limit).errors,
        d.fault = .syntactic (.nestingTooDeep limit)) ↔ ∃ item ∈ program, limit < item.levels) ∧
      ((∀ item ∈ program, item.levels ≤ maxNesting) →
        source.parse.errors = #[] ∧
          ∀ trees, List.Forall₂ (source.parse.ast.HoldsItem Token.forget)
            source.parse.ast.roots.toList trees ↔ trees = program) := by
  intro source
  constructor
  · intro limit
    rcases parseWith_text limit name valid with ⟨fits, clean, -⟩ | ⟨no, deep⟩
    · constructor
      · rintro ⟨d, mem, -⟩
        simp [source, clean] at mem
      · rintro ⟨item, mem, more⟩
        exact absurd (fits item mem) (Nat.not_le.2 more)
    · refine iff_of_true deep ?_
      simpa using no
  · intro fits
    rcases parseWith_text maxNesting name valid with ⟨-, clean, held⟩ | ⟨no, -⟩
    · exact ⟨clean, fun trees => Ast.holdsItems_iff_eq held⟩
    · exact absurd fits no

theorem parse_text_three_items :
    let int : TypeRef Unit := ⟨(), "int"⟩
    let sum : Expr Unit := .binary () (.name () "a") .plus (.prefixed () .dash (.integer () 2))
    let call : Expr Unit := .call () "f" [.member () () "q" (.name () "x"), .string () "s"]
    let program : List (ItemDecl Unit) :=
      [.struct () "p" [⟨(), "x", int⟩] [⟨(), "m", [], ⟨(), "void"⟩, .mk () [.ret () none]⟩],
        .varDecl ⟨(), "n", int, .binary () sum .star (.index () "c" call)⟩,
        .proc ⟨(), "f", [⟨(), "k", int⟩], int, .mk () [
          .forLoop () (.varDecl ⟨(), "i", int, .integer () 0⟩) (.boolean () true) () (.name () "i")
            (.mk () [.ifElse () (.name () "k") (.mk () []) (.elseLink () (.mk () []))])]⟩]
    let source : Source := ⟨"three.viper", text program⟩
    source.content = "struct p \x7b x :: int ; proc m ( ) : void \x7b return ; \x7d \x7d " ++
        "let n : int = ( a + - 2 ) * c [ f ( q . x , \"s\" ) ] ; " ++
        "proc f ( k : int ) : int \x7b for ( let i : int = 0 ; true ; i ) " ++
        "\x7b if k \x7b \x7d else \x7b \x7d \x7d \x7d" ∧
      (∀ item ∈ program, item.isValid = true) ∧ (∀ item ∈ program, item.levels ≤ maxNesting) ∧
      source.parse.errors = #[] ∧
        ∀ trees, List.Forall₂ (source.parse.ast.HoldsItem Token.forget)
          source.parse.ast.roots.toList trees ↔ trees = program := by
  intro int sum call program source
  have valid : ∀ item ∈ program, item.isValid = true := by decide +kernel
  have fits : ∀ item ∈ program, item.levels ≤ maxNesting := by decide +kernel
  exact ⟨by decide +kernel, valid, fits, (parse_text "three.viper" program valid).2 fits⟩

end Source
end Viper
