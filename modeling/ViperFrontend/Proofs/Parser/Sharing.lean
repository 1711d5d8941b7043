/-
# A parse with more tokens behind

Two parses go through the same tokens, and in the second more tokens follow (`Parser.Shares`). As
long as the first parse records nothing and has a token left, it cannot tell the difference, and the
second does the same. That is a simulation (`Simulation.sharing`), but an item of a file may end
with the last token of the first parse. So it matters where an item ends: with a `}` or a `;` that it
passes, which closes it (`Parser.Closes`).

So a parse of a file that records nothing is shared item by item, to the last
(`Item.shares_items`): what stands behind the file is parsed as if the file ended there.

Key definitions: `Parser.Shares`, `Parser.Simulation.sharing`.
Key theorems: `Item.closes_ofToken?`, `Item.shares_items`.
-/
import ViperFrontend.Proofs.Parser.Closing
import ViperFrontend.Proofs.Parser.Lockstep
import ViperFrontend.Proofs.Token.Scan

namespace Viper

open Viper.Parser

namespace Parser

/-- Behind the tokens of the first parse, with whose texts nothing is wrong, the second has some
more. Their faults are reported as soon as they are read, and nothing else is. -/
structure Shares (rest : List Scanned) (endLine : UInt32) (s s' : State) : Prop where
  file_eq : s'.file = s.file
  limit_eq : s'.limit = s.limit
  ast_eq : s'.ast = s.ast
  endLine_eq : s'.endLine = endLine
  ahead_eq : s'.ahead = s.ahead ++ rest
  clean : ∀ x ∈ s.ahead, x.fault? = none
  errors_eq : s'.errors.toList =
    (rest.take (2 - s.ahead.length)).filterMap (·.diagnostic? s'.file)

variable {rest : List Scanned} {endLine : UInt32} {s s' : State}

namespace Shares

theorem current_eq (h : Shares rest endLine s s') (left : s.ahead ≠ []) : s'.current = s.current :=
  State.current_eq_of_append h.ahead_eq left

/-- The token that is read when one is passed is shared, without a fault, or one of those behind. -/
theorem advance (h : Shares rest endLine s s') (left : s.ahead ≠ []) :
    Shares rest endLine s.advance s'.advance := by
  obtain ⟨x, xs, ahead⟩ := List.exists_cons_of_ne_nil left
  have ahead' : s'.ahead = x :: (xs ++ rest) := by rw [h.ahead_eq, ahead, List.cons_append]
  have clean : ∀ y ∈ xs, y.fault? = none := fun y mem =>
    h.clean y (by rw [ahead]; exact List.mem_cons_of_mem _ mem)
  have errors := h.errors_eq
  rw [ahead, List.length_cons] at errors
  unfold State.advance
  rw [ahead, ahead']
  refine ⟨h.file_eq, h.limit_eq, h.ast_eq, h.endLine_eq, rfl, clean, ?_⟩
  show (State.noteFault s'.file (xs ++ rest)[1]? s'.errors).toList =
    (rest.take (2 - xs.length)).filterMap (·.diagnostic? s'.file)
  rw [State.toList_noteFault, errors]
  match xs, clean with
  | [], _ => exact (filterMap_take_succ _ rest 1).symm
  | [y], _ => exact (filterMap_take_succ _ rest 0).symm
  | y :: z :: xs, clean =>
    have shared : z.diagnostic? s'.file = none := by
      simp [Scanned.diagnostic?, clean z (by simp)]
    simp [shared]

/-- What is done to the trees alone changes nothing else. -/
theorem withAst (h : Shares rest endLine s s') (ast : Ast) :
    Shares rest endLine { s with ast } { s' with ast } :=
  ⟨h.file_eq, h.limit_eq, rfl, h.endLine_eq, h.ahead_eq, h.clean, h.errors_eq⟩

end Shares

/-- The second parse does what the first does, while nothing is recorded and a token is left. -/
def Simulation.sharing (rest : List Scanned) (endLine : UInt32) : Simulation Renaming.same where
  rel := Shares rest endLine
  live s := s.errors = #[] ∧ s.ahead ≠ []
  live_of_reaches := State.Reaches.quiet
  current_eq related live := by
    rw [Renaming.token_same]
    exact related.current_eq live.2
  advance related live := related.advance live.2
  record := by
    rintro s s' e - ⟨clean, -⟩
    simp [State.record] at clean
  alloc_fst c t related := by rw [Renaming.alloc_of_ast_eq related.ast_eq]
  alloc_snd c t related := by
    rw [Renaming.alloc_of_ast_eq related.ast_eq]
    exact related.withAst _
  pushRoot root related := by
    rw [Renaming.pushRoot_of_ast_eq related.ast_eq]
    exact related.withAst _

instance : (Simulation.sharing rest endLine).Quiet where
  live_iff _ := Iff.rfl

end Parser

/-! ### Items -/

theorem Statement.follows_sharing (rest : List Scanned) (endLine : UInt32) (room : Nat) :
    (Inner.ofRoom room).Follows (Simulation.sharing rest endLine) (Inner.ofRoom room) :=
  follows_ofRoom (fun _ _ => Shares.limit_eq) room

variable {rest : List Scanned} {endLine : UInt32} {s s' : State}

namespace Statement

variable {inner : Inner}

theorem closes_varDecl (h : inner.Follows (Simulation.sharing rest endLine) inner) :
    Closes (Simulation.sharing rest endLine) Renaming.same.node (varDecl inner) (varDecl inner) s s' := by
  refine Closes.bind follows_advance fun start t t' _ => ?_
  refine Closes.bind (follows_eat (by decide)) fun name t t' _ => ?_
  refine Closes.bind (follows_eat (by decide)) fun _ t t' _ => ?_
  refine Closes.bind DataType.follows_parseOrInvalid fun type t t' _ => ?_
  refine Closes.bind (follows_eat (by decide)) fun _ t t' _ => ?_
  refine Closes.bind (Expression.follows_parseOrInvalid h.exprs) fun value t t' _ => ?_
  refine (closes_eat (by decide)).bind_alloc fun _ => ?_
  rw [Renaming.token_same]
  rfl

/-- A block where one is required, without the attempt. -/
theorem blockOrInvalid_eq (inner : Inner) : blockOrInvalid inner = (do
    let start ← current
    if start.kind = .openCurly then
      let _ ← advance
      let body ← statements inner
      let _ ← eat .closeCurly
      alloc (.block body.toList) start
    else recover (throw (unexpected .openCurly start))) := by
  apply Parser.ext
  intro s
  by_cases opens : s.current.kind = .openCurly <;> simp [blockOrInvalid, recover, block, opens]

theorem closes_blockOrInvalid (h : inner.Follows (Simulation.sharing rest endLine) inner) :
    Closes (Simulation.sharing rest endLine) Renaming.same.node (blockOrInvalid inner) (blockOrInvalid inner) s s' := by
  rw [blockOrInvalid_eq]
  refine closes_current_bind ?_
  rw [Renaming.kind_token]
  split
  · refine Closes.bind follows_advance fun start t t' _ => ?_
    refine Closes.bind (follows_statements h) fun body t t' _ => ?_
    refine (closes_eat (by decide)).bind_alloc fun _ => ?_
    simp [Renaming.construct]
  · exact closes_of_errors_ne (by simp [recover, record, State.record, alloc, State.alloc])

end Statement

namespace Item

open Statement (Inner)

variable {inner : Inner}

theorem closes_procedure (h : inner.Follows (Simulation.sharing rest endLine) inner) :
    Closes (Simulation.sharing rest endLine) Renaming.same.node (procedure inner) (procedure inner) s s' := by
  refine Closes.bind follows_advance fun start t t' _ => ?_
  refine Closes.bind (follows_eat (by decide)) fun name t t' _ => ?_
  refine Closes.bind (follows_eat (by decide)) fun _ t t' _ => ?_
  refine Closes.bind (follows_commaList fun t t' => follows_parameter) fun parameters t t' _ => ?_
  refine Closes.bind (follows_eat (by decide)) fun _ t t' _ => ?_
  refine Closes.bind (follows_eat (by decide)) fun _ t t' _ => ?_
  refine Closes.bind DataType.follows_parseOrInvalid fun type t t' _ => ?_
  refine (Statement.closes_blockOrInvalid h).bind_alloc fun body => ?_
  rw [Renaming.token_same]
  rfl

theorem closes_struct (h : inner.Follows (Simulation.sharing rest endLine) inner) :
    Closes (Simulation.sharing rest endLine) Renaming.same.node (struct inner) (struct inner) s s' := by
  refine Closes.bind follows_advance fun start t t' _ => ?_
  refine Closes.bind (follows_eat (by decide)) fun name t t' _ => ?_
  refine Closes.bind (follows_eat (by decide)) fun _ t t' _ => ?_
  refine Closes.bind (follows_members h) fun members t t' _ => ?_
  refine (closes_eat (by decide)).bind_alloc fun _ => ?_
  rw [Renaming.token_same]
  simp [Renaming.construct, Members.rename]
  rfl

theorem closes_ofToken? (h : inner.Follows (Simulation.sharing rest endLine) inner) {token : Token}
    {item : Parser NodeId} (starts : ofToken? inner token = some item) :
    Closes (Simulation.sharing rest endLine) Renaming.same.node item item s s' := by
  unfold ofToken? at starts
  split at starts <;> cases starts
  · exact closes_procedure h
  · exact closes_procedure h
  · exact closes_struct h
  · exact Statement.closes_varDecl h

/-- A round that records nothing adds an item to the file. -/
theorem exists_item_of_clean {token : Token}
    (clean : ((programRound inner token false).run s).2.errors = #[]) :
    ∃ item, ofToken? inner token = some item ∧ programRound inner token false =
      item >>= fun id => pushRoot id >>= fun _ => pure false := by
  unfold programRound at clean ⊢
  cases starts : ofToken? inner token with
  | some item => exact ⟨item, rfl, rfl⟩
  | none =>
    rw [starts] at clean
    have noted : (s.record ⟨.expectedTopLevelItem token.kind token.text, token.line⟩).errors = #[] :=
      (State.Reaches.advance .refl).errors_eq_empty clean
    simp [State.record] at noted

/-- One more item of a file that is parsed without an error. -/
theorem shares_programRound (h : inner.Follows (Simulation.sharing rest endLine) inner) {token : Token}
    (related : Shares rest endLine s s')
    (clean : ((programRound inner token false).run s).2.errors = #[]) :
    ((programRound inner token false).run s).1 = false ∧
      ((programRound inner token false).run s').1 = false ∧
      Shares rest endLine ((programRound inner token false).run s).2
        ((programRound inner token false).run s').2 := by
  obtain ⟨item, starts, round⟩ := exists_item_of_clean clean
  rw [round] at clean ⊢
  obtain ⟨value, after⟩ := (closes_ofToken? h starts).follows related clean
  refine ⟨rfl, rfl, ?_⟩
  simp only [run_bind, value]
  exact (Simulation.sharing rest endLine).pushRoot _ after

/-- **A file that is parsed without an error is parsed in the same way with more tokens behind**, and
parsing goes on with these. -/
theorem shares_items (h : inner.Follows (Simulation.sharing rest endLine) inner)
    (related : Shares rest endLine s s') (clean : ((items inner false).run s).2.errors = #[]) :
    ∃ t', Shares rest endLine ((items inner false).run s).2 t' ∧
      (items inner false).run s' = (items inner false).run t' := by
  induction length : s.ahead.length using Nat.strongRecOn generalizing s s' with
  | ind n ih =>
    cases given : beforeEnd? s with
    | none =>
      rw [items_of_end false given]
      exact ⟨s', related, rfl⟩
    | some token =>
      have moved := moves_programRound inner token false s given
      obtain ⟨rfl, isToken⟩ := current_of_beforeEnd? given
      have same := related.current_eq (State.ahead_ne_nil isToken)
      have given' : beforeEnd? s' = some s.current := by
        rw [beforeEnd?, same, if_neg isToken]
      rw [items_of_token false given, run_bind] at clean ⊢
      have quiet := (Parser.reaches _ _).errors_eq_empty clean
      obtain ⟨value, value', after⟩ := shares_programRound h related quiet
      rw [value] at clean ⊢
      obtain ⟨t', shared, onward⟩ := ih _ (length ▸ moved) after clean rfl
      refine ⟨t', shared, ?_⟩
      rw [items_of_token false given', run_bind, value', onward]

end Item
end Viper
