/-
# The limit of nesting

A construct for which there is no room is skipped, and the error of that is recorded, if not at
once then by whoever is handed it: nobody drops an error. So a parse that reports no construct as
nested too deeply has never asked for a level that it did not have. What the parsers of those
levels do makes no difference to it, and it goes as under any higher limit
(`Simulation.unlimited`).

To say which levels a parse opens, the parsers are built in such a way that a level which is opened
while `outer` levels are open announces itself (`Statement.Inner.watched`). Apart from the
announcements the parse goes on as before (`Source.watch_spec`).

Key definitions: `Parsed.TooDeep`, `Attempt.RaisesTooDeep`, `Statement.Inner.watched`,
`Source.Opens`, `Parser.Simulation.unlimited`.
Key theorems: `Statement.follows_watched`, `Source.watch_spec`, `Source.nesting_transparent`.
-/
import Mathlib.Data.List.Infix
import ViperFrontend.Proofs.Parser.Lockstep

namespace Viper

open Viper.Parser

/-- Something is nested too deeply. -/
def Fault.isTooDeep : Fault → Bool
  | .syntactic (.nestingTooDeep _) => true
  | _ => false

/-- Some construct is reported as nested too deeply. -/
def Parsed.TooDeep (parsed : Parsed) : Prop :=
  ∃ d ∈ parsed.errors, d.fault.isTooDeep = true

instance (parsed : Parsed) : Decidable parsed.TooDeep :=
  inferInstanceAs (Decidable (∃ d ∈ parsed.errors, d.fault.isTooDeep = true))

/-! ### Watching for the levels that are opened -/

/-- What a level that is opened records. No parse with room for a level records this. -/
def levelOpened : SyntaxError :=
  ⟨.nestingTooDeep 0, 0⟩

/-- Records that a level is opened before it is parsed. -/
def announcing (attempt : Attempt NodeId) : Attempt NodeId := do
  record levelOpened
  attempt

namespace Expression.Inner

variable (inner : Inner)

/-- The parsers of a level that announces itself. -/
def announced : Inner where
  primary := announcing inner.primary
  binary left p := announcing (inner.binary left p)
  identifier := announcing inner.identifier
  moves_binary left p s h := inner.moves_binary left p (s.record levelOpened) h

/-- `ofRoom room`, where a level that is opened while `outer` levels are open announces itself. -/
def watched : Nat → Nat → Inner
  | 0, _ => refusing
  | room + 1, 0 => (around (ofRoom room)).announced
  | room + 1, outer + 1 => around (watched room outer)

end Expression.Inner

namespace Statement.Inner

variable (inner : Inner)

/-- The parsers of a level that announces itself. -/
def announced : Inner where
  exprs := inner.exprs.announced
  statement := announcing inner.statement
  conditional branch := announcing (inner.conditional branch)
  moves_statement s h := inner.moves_statement (s.record levelOpened) h

/-- `ofRoom room`, where a level that is opened while `outer` levels are open announces itself. -/
def watched : Nat → Nat → Inner
  | 0, _ => refusing
  | room + 1, 0 => (around (ofRoom room)).announced
  | room + 1, outer + 1 => around (watched room outer)

/-- Where there are no more than `outer` levels, none is opened inside of so many. -/
theorem watched_of_le : ∀ {room outer : Nat}, room ≤ outer → watched room outer = ofRoom room
  | 0, _, _ => rfl
  | _ + 1, _ + 1, h => congrArg around (watched_of_le (Nat.le_of_succ_le_succ h))

end Statement.Inner

namespace Source

/-- Parses a source, where each level that is opened while `outer` levels are open announces
itself. -/
def watch (limit outer : Nat) (source : Source) : Parsed :=
  .ofState ((Item.program (Statement.Inner.watched limit outer)).run (State.start limit source)).2

/-- The parse under a limit opens a level while `outer` levels are open, so it has more than
`outer` open at once. -/
def Opens (limit outer : Nat) (source : Source) : Prop :=
  (source.parseWith limit).errors.size < (source.watch limit outer).errors.size

instance (limit outer : Nat) (source : Source) : Decidable (source.Opens limit outer) :=
  inferInstanceAs (Decidable (_ < _))

theorem watch_of_le {limit outer : Nat} (h : limit ≤ outer) (source : Source) :
    source.watch limit outer = source.parseWith limit := by
  unfold watch parseWith
  rw [Statement.Inner.watched_of_le h]

end Source

/-! ### Parsers with more room follow those with less -/

section Levels

variable {ρ : Renaming} {S : Simulation ρ}

/-- What announces itself follows as before, if a mark more makes no difference. -/
theorem follows_announcing (marked : ∀ s s', S.rel s s' → S.rel s (s'.record levelOpened))
    {p p' : Attempt NodeId} {s s' : State}
    (h : p.Follows S ρ.node p' s (s'.record levelOpened)) :
    p.Follows S ρ.node (announcing p') s s' :=
  fun related live => h (marked s s' related) live

theorem Expression.follows_announced
    (marked : ∀ s s', S.rel s s' → S.rel s (s'.record levelOpened)) {inner inner' : Inner}
    (h : inner.Follows S inner') : inner.Follows S inner'.announced where
  primary _ _ := follows_announcing marked (h.primary _ _)
  binary _ _ left p := follows_announcing marked (h.binary _ _ left p)
  identifier _ _ kind := follows_announcing marked (h.identifier _ _ kind)

theorem Statement.follows_announced
    (marked : ∀ s s', S.rel s s' → S.rel s (s'.record levelOpened)) {inner inner' : Inner}
    (h : inner.Follows S inner') : inner.Follows S inner'.announced where
  exprs := Expression.follows_announced marked h.exprs
  statement _ _ := follows_announcing marked (h.statement _ _)
  conditional _ _ branch := follows_announcing marked (h.conditional _ _ branch)

/-- A parse that must not refuse anything is followed by whatever stands where it would. -/
def Parser.Simulation.Unrefused (S : Simulation ρ) : Prop :=
  ∀ p' s s', tooDeep.Follows S ρ.node p' s s'

theorem Expression.follows_of_refusing (unrefused : S.Unrefused) (inner' : Inner) :
    Inner.refusing.Follows S inner' where
  primary := unrefused _
  binary s s' _ _ := unrefused _ s s'
  identifier s s' _ := unrefused _ s s'

theorem Statement.follows_of_refusing (unrefused : S.Unrefused) (inner' : Inner) :
    Inner.refusing.Follows S inner' where
  exprs := Expression.follows_of_refusing unrefused inner'.exprs
  statement := unrefused _
  conditional s s' _ := unrefused _ s s'

/-- Where nothing is refused, more room makes no difference. -/
theorem Expression.follows_ofRoom_of_le (unrefused : S.Unrefused) :
    ∀ {room room' : Nat}, room ≤ room' → (Inner.ofRoom room).Follows S (Inner.ofRoom room')
  | 0, _, _ => follows_of_refusing unrefused _
  | _ + 1, _ + 1, h => follows_around (follows_ofRoom_of_le unrefused (Nat.le_of_succ_le_succ h))

/-- **Where nothing is refused, no level is missed**: it makes no difference what the levels do that
the first parse does not have. -/
theorem Statement.follows_watched_of_le (unrefused : S.Unrefused) :
    ∀ {room room' outer : Nat}, room ≤ room' → room ≤ outer →
      (Inner.ofRoom room).Follows S (Inner.watched room' outer)
  | 0, _, _, _, _ => follows_of_refusing unrefused _
  | _ + 1, _ + 1, _ + 1, h, k =>
    follows_around
      (follows_watched_of_le unrefused (Nat.le_of_succ_le_succ h) (Nat.le_of_succ_le_succ k))

/-- Where the limit is the same and a mark more makes no difference, the announcements are the only
thing that is new. -/
theorem Statement.follows_watched (limit_eq : ∀ s s', S.rel s s' → s'.limit = s.limit)
    (marked : ∀ s s', S.rel s s' → S.rel s (s'.record levelOpened)) :
    ∀ room outer : Nat, (Inner.ofRoom room).Follows S (Inner.watched room outer)
  | 0, _ => follows_refusing limit_eq
  | room + 1, 0 => follows_announced marked (follows_ofRoom limit_eq (room + 1))
  | room + 1, outer + 1 => follows_around (follows_watched limit_eq marked room outer)

end Levels

/-! ### The announcements are all that is new -/

/-- The second list is the first with marks added. -/
structure Marked (mark : Diagnostic) (ds ds' : List Diagnostic) : Prop where
  sublist : ds.Sublist ds'
  unmarked_eq : (ds'.filter fun d => d ≠ mark) = ds.filter fun d => d ≠ mark

namespace Marked

variable {mark : Diagnostic} {ds ds' : List Diagnostic}

theorem append (h : Marked mark ds ds') (more : List Diagnostic) :
    Marked mark (ds ++ more) (ds' ++ more) :=
  ⟨h.sublist.append_right more, by rw [List.filter_append, List.filter_append, h.unmarked_eq]⟩

theorem append_mark (h : Marked mark ds ds') : Marked mark ds (ds' ++ [mark]) :=
  ⟨h.sublist.trans (List.sublist_append_left ds' [mark]), by simpa using h.unmarked_eq⟩

end Marked

/-- The diagnostic of a level that is opened. -/
def Source.levelOpenedIn (file : String) : Diagnostic :=
  ⟨.syntactic levelOpened.fault, levelOpened.line, file⟩

namespace Parser

/-- The states are the same but for what the second parse announced. -/
structure Announced (s s' : State) : Prop where
  state_eq : s' = { s with errors := s'.errors }
  errors : Marked (Source.levelOpenedIn s.file) s.errors.toList s'.errors.toList

variable {s s' : State}

theorem Announced.current_eq (h : Announced s s') : s'.current = s.current := by
  rw [h.state_eq]
  rfl

theorem Announced.record (h : Announced s s') (e : SyntaxError) :
    Announced (s.record e) (s'.record e) := by
  have file : s'.file = s.file := by rw [h.state_eq]
  refine ⟨by rw [h.state_eq]; rfl, ?_⟩
  simp only [State.record, Array.toList_push, file]
  exact h.errors.append _

theorem Announced.mark (h : Announced s s') : Announced s (s'.record levelOpened) := by
  have file : s'.file = s.file := by rw [h.state_eq]
  refine ⟨by rw [h.state_eq]; rfl, ?_⟩
  simp only [State.record, Array.toList_push, file]
  exact h.errors.append_mark

theorem Announced.advance (h : Announced s s') : Announced s.advance s'.advance := by
  have noted : s'.noted = s.noted := by
    rw [h.state_eq]
    rfl
  constructor
  · obtain ⟨file, limit, ahead, endLine, ast, errors⟩ := s
    rw [h.state_eq]
    cases ahead <;> rfl
  · rw [State.toList_errors_advance, State.toList_errors_advance, noted, State.file_advance]
    exact h.errors.append _

/-- A parse that announces levels goes on as before. -/
def Simulation.announced : Simulation Renaming.same where
  rel := Announced
  live _ := True
  live_of_reaches _ _ := trivial
  current_eq related _ := by
    rw [Renaming.token_same]
    exact related.current_eq
  advance related _ := related.advance
  record e related _ := by
    rw [Renaming.error_same]
    exact related.record e
  alloc_fst c t related := by
    rw [Renaming.construct_same, Renaming.token_same, related.state_eq]
    simp only [Renaming.node_same]
    rfl
  alloc_snd c t related := by
    rw [Renaming.construct_same, Renaming.token_same]
    refine ⟨?_, related.errors⟩
    rw [related.state_eq]
    rfl
  pushRoot root related := by
    simp only [Renaming.node_same]
    refine ⟨?_, related.errors⟩
    rw [related.state_eq]
    rfl

end Parser

theorem Parser.Announced.ast_eq {s s' : State} (h : Announced s s') : s'.ast = s.ast := by
  rw [h.state_eq]

/-- **Announcing changes nothing else**: the tree is that of the parse, and so are the diagnostics,
up to the marks. -/
theorem Source.watch_spec (limit outer : Nat) (source : Source) :
    (source.watch limit outer).ast = (source.parseWith limit).ast ∧
      Marked (levelOpenedIn source.name) (source.parseWith limit).errors.toList
        (source.watch limit outer).errors.toList := by
  have follows := Statement.follows_watched (S := Simulation.announced)
    (fun _ _ related => by rw [related.state_eq]) (fun _ _ => Announced.mark) limit outer
  have start : Announced (State.start limit source) (State.start limit source) :=
    ⟨rfl, List.Sublist.refl _, rfl⟩
  have ended := (Item.follows_program follows start trivial).2
  have file := (Parser.reaches (Item.program (Statement.Inner.ofRoom limit))
    (State.start limit source)).file_eq
  have errors := ended.errors
  rw [file] at errors
  exact ⟨ended.ast_eq, errors⟩

/-! ### Parses under two limits -/

namespace Parser

/-- Behind the first `n` diagnostics nothing is reported as nested too deeply. -/
def State.ShallowFrom (n : Nat) (s : State) : Prop :=
  ∀ d ∈ s.errors.toList.drop n, d.fault.isTooDeep = false

/-- The states are the same but for the limit, and `n` diagnostics are recorded. -/
structure Unlimited (n : Nat) (s s' : State) : Prop where
  state_eq : s' = { s with limit := s'.limit }
  recorded : n ≤ s.errors.size

variable {n : Nat} {s s' : State}

theorem Unlimited.of_reaches {t t' : State} (h : Unlimited n s s') (reached : s.Reaches t)
    (state_eq : t' = { t with limit := t'.limit }) : Unlimited n t t' :=
  ⟨state_eq, Nat.le_trans h.recorded reached.errors_extend.length_le⟩

theorem Unlimited.parsed_eq (h : Unlimited n s s') : Parsed.ofState s' = Parsed.ofState s := by
  rw [h.state_eq]
  rfl

/-- **While nothing is nested too deeply the limit makes no difference.** -/
def Simulation.unlimited (n : Nat) : Simulation Renaming.same where
  rel := Unlimited n
  live := State.ShallowFrom n
  live_of_reaches reached live d mem :=
    live d ((List.IsPrefix.drop reached.errors_extend n).subset mem)
  current_eq related _ := by
    rw [Renaming.token_same, related.state_eq]
    rfl
  advance := by
    intro s s' related _
    refine related.of_reaches (.advance .refl) ?_
    obtain ⟨file, limit, ahead, endLine, ast, errors⟩ := s
    rw [related.state_eq]
    cases ahead <;> rfl
  record e related _ := by
    rw [Renaming.error_same]
    refine related.of_reaches (.record e .refl) ?_
    rw [related.state_eq]
    rfl
  alloc_fst c t related := by
    rw [Renaming.construct_same, Renaming.token_same, related.state_eq]
    simp only [Renaming.node_same]
    rfl
  alloc_snd c t related := by
    rw [Renaming.construct_same, Renaming.token_same]
    refine related.of_reaches (.alloc c t .refl) ?_
    rw [related.state_eq]
    rfl
  pushRoot root related := by
    simp only [Renaming.node_same]
    refine related.of_reaches (.pushRoot root .refl) ?_
    rw [related.state_eq]
    rfl

/-- What is refused is an error that says so, on the line where the construct starts. -/
theorem fst_run_tooDeep (s : State) :
    (tooDeep.run.run s).1 = .error ⟨.nestingTooDeep s.limit, s.current.line⟩ := by
  by_cases boundary : s.current.kind.isBoundary <;> simp [tooDeep, boundary]

theorem run_tooDeep (s : State) :
    ∃ line t, tooDeep.run.run s = (.error ⟨.nestingTooDeep s.limit, line⟩, t) ∧ s.Reaches t :=
  ⟨s.current.line, (tooDeep.run.run s).2, Prod.ext (fst_run_tooDeep s) rfl, tooDeep.run.reaches s⟩

/-- Nothing is refused as long as nothing is nested too deeply. -/
theorem unrefused_unlimited (n : Nat) : (Simulation.unlimited n).Unrefused := by
  intro p' s s' related live
  obtain ⟨line, t, run, reached⟩ := run_tooDeep s
  rw [run] at live
  have recorded : n ≤ t.errors.toList.length :=
    Nat.le_trans related.recorded reached.errors_extend.length_le
  have shallow := live ⟨.syntactic (.nestingTooDeep s.limit), line, t.file⟩
    (by simp [State.record, List.drop_append_of_le_length recorded])
  cases shallow

end Parser

/-- The attempt reports that a construct is nested too deeply: it fails with that, or records it. -/
def Attempt.RaisesTooDeep (p : Attempt NodeId) (s : State) : Prop :=
  (∃ e t, p.run.run s = (.error e, t) ∧ (Fault.syntactic e.fault).isTooDeep = true) ∨
    ∃ d ∈ (p.run.run s).2.errors.toList.drop s.errors.size, d.fault.isTooDeep = true

/-- What ends without such a report is live in the comparison with a parse that has more room. -/
theorem Attempt.liveAfter_of_shallow {s : State} {p : Attempt NodeId} (shallow : ¬ p.RaisesTooDeep s) :
    (Simulation.unlimited s.errors.size).LiveAfter (p.run.run s).1 (p.run.run s).2 := by
  have reached := p.run.reaches s
  rcases outcome : p.run.run s with ⟨r, t⟩
  rw [outcome] at reached
  have quiet : t.ShallowFrom s.errors.size := fun d mem =>
    Bool.eq_false_iff.2 fun deep => shallow (.inr ⟨d, by rwa [outcome], deep⟩)
  cases r with
  | ok node => exact quiet
  | error e =>
    intro d mem
    have recorded : s.errors.size ≤ t.errors.toList.length := reached.errors_extend.length_le
    rw [State.record, Array.toList_push, List.drop_append_of_le_length recorded, List.mem_append,
      List.mem_singleton] at mem
    rcases mem with mem | rfl
    · exact quiet d mem
    · exact Bool.eq_false_iff.2 fun deep => shallow (.inl ⟨e, t, outcome, deep⟩)

/-- A parse that reports nothing as nested too deeply is followed under any higher limit, whatever
is announced on the way. -/
theorem Source.watch_eq_of_shallow {limit limit' outer : Nat} {source : Source}
    (higher : limit ≤ limit') (inside : limit ≤ outer)
    (shallow : ¬ (source.parseWith limit).TooDeep) :
    source.watch limit' outer = source.parseWith limit := by
  have follows := Statement.follows_watched_of_le (unrefused_unlimited 0) higher inside
  have start : Unlimited 0 (State.start limit source) (State.start limit' source) :=
    ⟨rfl, Nat.zero_le _⟩
  have live : State.ShallowFrom 0 ((Item.program (Statement.Inner.ofRoom limit)).run
      (State.start limit source)).2 := by
    intro d mem
    rw [List.drop_zero, Array.mem_toList_iff] at mem
    exact Bool.eq_false_iff.2 fun deep => shallow ⟨d, mem, deep⟩
  exact (Item.follows_program follows start live).2.parsed_eq

/-- **The limit of nesting cannot be seen until it is reported.** A parse that reports nothing as
nested too deeply gives what every parse under a higher limit gives; and if a parse under a higher
limit ever has more levels open at once than the limit, the parse under the limit reports it. So it is
with the limit that parses have. -/
theorem Source.nesting_transparent (source : Source) :
    (∀ limit limit' : Nat, limit ≤ limit' → ¬ (source.parseWith limit).TooDeep →
      source.parseWith limit' = source.parseWith limit) ∧
    (∀ limit limit' outer : Nat, limit ≤ limit' → limit ≤ outer → source.Opens limit' outer →
      (source.parseWith limit).TooDeep) ∧
    (∀ limit' : Nat, maxNesting ≤ limit' → ¬ source.parse.TooDeep →
      source.parseWith limit' = source.parse) := by
  have transparent : ∀ limit limit' : Nat, limit ≤ limit' → ¬ (source.parseWith limit).TooDeep →
      source.parseWith limit' = source.parseWith limit := by
    intro limit limit' higher shallow
    rw [← watch_of_le (Nat.le_refl limit') source]
    exact watch_eq_of_shallow higher higher shallow
  refine ⟨transparent, ?_, transparent maxNesting⟩
  intro limit limit' outer higher inside opened
  by_contra shallow
  unfold Source.Opens at opened
  rw [watch_eq_of_shallow higher inside shallow, transparent limit limit' higher shallow] at opened
  exact Nat.lt_irrefl _ opened

/-- A number in two pairs of parentheses takes three levels. -/
theorem Source.nesting_transparent_parentheses :
    let source : Source := ⟨"a.vp", "let x: int = ((1));"⟩
    (¬ (source.parseWith 3).TooDeep ∧ source.parseWith 5 = source.parseWith 3) ∧
    (source.Opens 5 2 ∧ (source.parseWith 2).TooDeep) ∧
    ¬ source.parse.TooDeep ∧ source.parseWith 300 = source.parse := by
  intro source
  have three : ¬ (source.parseWith 3).TooDeep := by decide +kernel
  have opened : source.Opens 5 2 := by decide +kernel
  have shallow : ¬ source.parse.TooDeep := by decide +kernel
  obtain ⟨transparent, reported, shipped⟩ := nesting_transparent source
  exact ⟨⟨three, transparent 3 5 (by decide) three⟩,
    ⟨opened, reported 2 5 2 (by decide) (by decide) opened⟩,
    shallow, shipped 300 (by decide) shallow⟩

end Viper
