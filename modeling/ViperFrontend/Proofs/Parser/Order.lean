/-
# The order of diagnostics

A parse reads two tokens beyond those that it has passed, and the fault of a text is reported when its
token is read. An error of the syntax is made at the current token, and may be recorded later: when the
token has been passed, when the construct that is too deep has been skipped, or in a frame further out.
But until then tokens are passed and nothing is recorded (`State.Raises`). So the errors of the syntax
are recorded in the order of the tokens that they are of, and each behind the report that its token is
illegal, if it is. Only a clause that follows no `if` is parsed as a whole before its error is recorded,
and the errors in it come first.

To follow this, every diagnostic has the place of its token in the source beside it
(`Source.Transcript`). What a transcript promises is kept when a token is read and when an error is
recorded, and so on the course of a parse (`State.Course.exists_transcribed`).

Key definitions: `Source.Concerns`, `Source.Transcript`, `Parser.State.Transcribed`.
Key theorems: `Source.Transcript.read`, `Source.Transcript.record`,
`Parser.State.Course.exists_transcribed`, `Source.diagnostics_in_order`.
-/
import ViperFrontend.Proofs.Parser.Levels
import ViperFrontend.Proofs.Parser.Session
import ViperFrontend.Proofs.Token.Factoring
import ViperFrontend.Proofs.Token.Schedule

namespace Viper

open Viper.Parser

/-! ### What was found -/

/-- The kind of the token that was found where something else was required. -/
def SyntaxFault.found? : SyntaxFault → Option TokenKind
  | .unexpectedToken _ found _ => some found
  | .expectedExpression found _ => some found
  | .expectedDataType found _ => some found
  | .expectedStructMember found _ => some found
  | .expectedTopLevelItem found _ => some found
  | .missingComma found => some found
  | .danglingElseClause _ | .numberTooLarge _ | .nestingTooDeep _ => none

/-- The error is that of the token where it was made: what was found is that token. -/
theorem SyntaxError.IsAt.kind_eq {e : SyntaxError} {token : Token} {kind : TokenKind}
    (here : e.IsAt token) (found : e.fault.found? = some kind) : token.kind = kind := by
  rw [here] at found
  revert found
  cases e.fault <;> simp [SyntaxFault.foundAt, SyntaxFault.found?]

namespace Diagnostic

/-- The kind of the token that an error of the syntax has found. -/
def found? (d : Diagnostic) : Option TokenKind :=
  match d.fault with
  | .lexical _ => none
  | .syntactic fault => fault.found?

/-- An error of the syntax that is recorded before anything else is parsed. -/
def isPrompt (d : Diagnostic) : Bool :=
  match d.fault with
  | .lexical _ => false
  | .syntactic fault => !fault.isDangling

end Diagnostic

namespace Source

variable {source : Source} {n i : Nat} {log : List (Nat × Diagnostic)} {d : Diagnostic}

/-! ### Transcripts -/

/-- The diagnostic is about the token at place `i`: it says what is wrong with its text, or it is an
error of the syntax that was made there. -/
def Concerns (source : Source) (i : Nat) (d : Diagnostic) : Prop :=
  source.Reports i d ∨
    ∃ e : SyntaxError, e.IsAt (source.tokenAt i) ∧ d = e.diagnostic source.name

/-- Diagnostics with the places of their tokens, when `n` tokens have been read. -/
structure Transcript (source : Source) (n : Nat) (log : List (Nat × Diagnostic)) : Prop where
  concerns : ∀ entry ∈ log, source.Concerns entry.1 entry.2
  /-- each illegal token is reported once, in the order in which they are read -/
  lexical_places : (log.filter (·.2.fault.isLexical)).map (·.1) = source.illegalPlaces n
  prompt_places : (log.filter (·.2.isPrompt)).Pairwise fun entry later => entry.1 ≤ later.1
  /-- that an illegal token was found is said behind the report that it is illegal -/
  reported_first : ∀ before i d, before ++ [(i, d)] <+: log → d.found? = some .illegal →
    ∃ e, (i, e) ∈ before ∧ source.Reports i e

theorem Reports.isLexical (h : source.Reports i d) : d.fault.isLexical = true := by
  obtain ⟨fault, lexical, -⟩ := h.explained
  rw [lexical]
  rfl

theorem Concerns.line_eq (h : source.Concerns i d) : d.line = (source.tokenAt i).line := by
  rcases h with reports | ⟨e, here, rfl⟩
  · exact reports.line_eq
  · exact here.line_eq

theorem Concerns.reports (h : source.Concerns i d) (lexical : d.fault.isLexical = true) :
    source.Reports i d := by
  rcases h with reports | ⟨e, -, rfl⟩
  · exact reports
  · cases lexical

theorem transcript_nil (source : Source) : source.Transcript 0 [] where
  concerns := by simp
  lexical_places := by simp [illegalPlaces]
  prompt_places := by simp
  reported_first := by simp

/-- An illegal token that has been read is in the transcript. -/
theorem Transcript.exists_report (h : source.Transcript n log) (read : i < n)
    (illegal : (source.tokenAt i).kind = .illegal) : ∃ e, (i, e) ∈ log ∧ source.Reports i e := by
  have place : i ∈ source.illegalPlaces n := by simp [illegalPlaces, read, illegal]
  rw [← h.lexical_places] at place
  obtain ⟨⟨i, e⟩, mem, rfl⟩ := List.mem_map.1 place
  obtain ⟨mem, lexical⟩ := List.mem_filter.1 mem
  exact ⟨e, mem, (h.concerns _ mem).reports lexical⟩

/-- What is added to a transcript when the token at place `n` is read. -/
def noteAt (source : Source) (n : Nat) : List (Nat × Diagnostic) :=
  (source.scan.scanned[n]?.bind (·.diagnostic? source.name)).toList.map fun d => (n, d)

theorem map_noteAt (source : Source) (n : Nat) :
    (source.noteAt n).map (·.2) =
      (source.scan.scanned[n]?.bind (·.diagnostic? source.name)).toList := by
  simp [noteAt, Function.comp_def]

theorem isPrompt_of_mem_noteAt {entry : Nat × Diagnostic} (mem : entry ∈ source.noteAt n) :
    entry.2.isPrompt = false := by
  obtain ⟨d, given, rfl⟩ := List.mem_map.1 mem
  obtain ⟨x, -, diagnosed⟩ := Option.bind_eq_some_iff.1 (Option.mem_toList.1 given)
  obtain ⟨fault, -, rfl⟩ := Option.map_eq_some_iff.1 diagnosed
  rfl

/-- **A token is read**, and reported if it is illegal. -/
theorem Transcript.read (h : source.Transcript n log) :
    source.Transcript (n + 1) (log ++ source.noteAt n) := by
  have reported := source.reports_tokenAt n
  have places := source.illegalPlaces_succ n
  unfold noteAt
  by_cases illegal : (source.tokenAt n).kind = .illegal
  · rw [if_pos illegal] at reported places
    obtain ⟨d, none, reports, nothing, single⟩ := List.forall₂_cons_left_iff.1 reported
    obtain rfl := List.forall₂_nil_left_iff.1 nothing
    have lexical := reports.isLexical
    have notPrompt : d.isPrompt = false ∧ d.found? = Option.none := by
      obtain ⟨fault, same, -⟩ := reports.explained
      simp [Diagnostic.isPrompt, Diagnostic.found?, same]
    rw [single, List.map_singleton]
    constructor
    · intro entry mem
      rcases List.mem_append.1 mem with older | new
      · exact h.concerns entry older
      · rw [List.mem_singleton.1 new]
        exact .inl reports
    · rw [places, ← h.lexical_places]
      simp [List.filter_append, lexical]
    · simpa [List.filter_append, notPrompt.1] using h.prompt_places
    · intro before i d' isPrefix found
      rcases List.prefix_concat_iff.1 isPrefix with whole | older
      · obtain ⟨-, -, rfl⟩ : before = log ∧ i = n ∧ d' = d := by simpa using whole
        simp [notPrompt.2] at found
      · exact h.reported_first before i d' older found
  · rw [if_neg illegal] at reported places
    rw [List.forall₂_nil_left_iff.1 reported, List.map_nil, List.append_nil]
    rw [List.append_nil] at places
    exact ⟨h.concerns, h.lexical_places.trans places.symm, h.prompt_places, h.reported_first⟩

/-- **An error is recorded.** Unless it is that of a clause that follows no `if`, its token has been read
and is not before those of the errors that are there. -/
theorem Transcript.record (h : source.Transcript n log) {e : SyntaxError}
    (here : e.IsAt (source.tokenAt i))
    (last : e.fault.isDangling = false →
      i < n ∧ ∀ entry ∈ log, entry.2.isPrompt = true → entry.1 ≤ i) :
    source.Transcript n (log ++ [(i, e.diagnostic source.name)]) := by
  constructor
  · intro entry mem
    rcases List.mem_append.1 mem with older | new
    · exact h.concerns entry older
    · rw [List.mem_singleton.1 new]
      exact .inr ⟨e, here, rfl⟩
  · rw [← h.lexical_places]
    simp [List.filter_append, SyntaxError.diagnostic, Fault.isLexical]
  · rw [List.filter_append, List.pairwise_append]
    refine ⟨h.prompt_places, ?_, ?_⟩
    · exact (List.pairwise_singleton _ _).filter _
    · intro entry older new isNew
      obtain ⟨mem, prompt⟩ := List.mem_filter.1 isNew
      rw [List.mem_singleton.1 mem] at prompt ⊢
      obtain ⟨before, wasPrompt⟩ := List.mem_filter.1 older
      exact (last (by simpa [Diagnostic.isPrompt, SyntaxError.diagnostic] using prompt)).2
        entry before wasPrompt
  · intro before j d isPrefix found
    rcases List.prefix_concat_iff.1 isPrefix with whole | older
    · obtain ⟨rfl, rfl, rfl⟩ : before = log ∧ j = i ∧ d = e.diagnostic source.name := by
        simpa using whole
      have given : e.fault.found? = some .illegal := found
      have prompt : e.fault.isDangling = false := by
        revert given
        cases e.fault <;> simp [SyntaxFault.found?, SyntaxFault.isDangling]
      exact h.exists_report (last prompt).1 (here.kind_eq given)
    · exact h.reported_first before j d older found

end Source

/-! ### Transcripts of a parse -/

namespace Parser.State

variable {source : Source} {limit last last' i j : Nat} {log : List (Nat × Diagnostic)} {t : State}

/-- A parse of the source stands at its token number `i`, and what it has recorded are the diagnostics
of a transcript; the errors of the syntax in it, but for clauses that follow no `if`, are about tokens up
to that at place `last`. -/
structure Transcribed (limit : Nat) (source : Source) (last i : Nat) (log : List (Nat × Diagnostic))
    (t : State) : Prop where
  reached : (start limit source).ReachesIn i t
  transcript : source.Transcript (i + 2) log
  errors_eq : t.errors.toList = log.map (·.2)
  prompt_le : ∀ entry ∈ log, entry.2.isPrompt = true → entry.1 ≤ last

theorem Transcribed.mono (h : Transcribed limit source last i log t) (le : last ≤ last') :
    Transcribed limit source last' i log t where
  reached := h.reached
  transcript := h.transcript
  errors_eq := h.errors_eq
  prompt_le entry mem prompt := Nat.le_trans (h.prompt_le entry mem prompt) le

theorem transcribed_start (limit : Nat) (source : Source) :
    Transcribed limit source 0 0 (source.noteAt 0 ++ source.noteAt 1) (start limit source) where
  reached := .refl
  transcript := source.transcript_nil.read.read
  errors_eq := by
    show (noteFault _ _ (noteFault _ _ #[])).toList = _
    rw [toList_noteFault, toList_noteFault, List.map_append, source.map_noteAt, source.map_noteAt]
    rfl
  prompt_le entry mem prompt := by
    rcases List.mem_append.1 mem with first | second
    · simp [Source.isPrompt_of_mem_noteAt first] at prompt
    · simp [Source.isPrompt_of_mem_noteAt second] at prompt

/-- What is recorded when a token is passed. -/
theorem ReachesIn.noted_eq (h : (start limit source).ReachesIn i t) :
    t.noted = (source.noteAt (i + 2)).map (·.2) := by
  rw [noted, h.at.file_eq, h.at.ahead_eq, List.tail_drop, List.getElem?_drop, source.map_noteAt]

theorem Transcribed.advance (h : Transcribed limit source last i log t) :
    Transcribed limit source last (i + 1) (log ++ source.noteAt (i + 2)) t.advance where
  reached := h.reached.advance
  transcript := h.transcript.read
  errors_eq := by
    rw [toList_errors_advance, h.errors_eq, h.reached.noted_eq, List.map_append]
  prompt_le entry mem prompt := by
    rcases List.mem_append.1 mem with older | new
    · exact h.prompt_le entry older prompt
    · simp [Source.isPrompt_of_mem_noteAt new] at prompt

theorem Transcribed.advances (h : Transcribed limit source last i log t) (n : Nat) :
    ∃ log, Transcribed limit source last (i + n) log (State.advance^[n] t) := by
  induction n with
  | zero => exact ⟨log, h⟩
  | succ n ih =>
    obtain ⟨log, passed⟩ := ih
    rw [Function.iterate_succ_apply']
    exact ⟨_, passed.advance⟩

theorem Transcribed.record (h : Transcribed limit source last i log t) {e : SyntaxError}
    (here : e.IsAt (source.tokenAt j)) (prompt : e.fault.isDangling = false → j = last)
    (read : last < i + 2) :
    Transcribed limit source last i (log ++ [(j, e.diagnostic source.name)]) (t.record e) where
  reached := h.reached.record e
  transcript := by
    refine h.transcript.record here fun isPrompt => ?_
    rw [prompt isPrompt]
    exact ⟨read, h.prompt_le⟩
  errors_eq := by simp [toList_errors_record, h.errors_eq, h.reached.at.file_eq]
  prompt_le entry mem isPrompt := by
    rcases List.mem_append.1 mem with older | new
    · exact h.prompt_le entry older isPrompt
    · rw [List.mem_singleton.1 new] at isPrompt ⊢
      exact Nat.le_of_eq (prompt (by simpa [Diagnostic.isPrompt, SyntaxError.diagnostic] using isPrompt))

theorem Transcribed.alloc (h : Transcribed limit source last i log t) (construct : Construct)
    (token : Token) : Transcribed limit source last i log (t.alloc construct token).2 :=
  ⟨h.reached.alloc construct token, h.transcript, h.errors_eq, h.prompt_le⟩

theorem Transcribed.pushRoot (h : Transcribed limit source last i log t) (id : NodeId) :
    Transcribed limit source last i log (t.pushRoot id) :=
  ⟨h.reached.pushRoot id, h.transcript, h.errors_eq, h.prompt_le⟩

/-- An error that has been handed on while tokens were passed comes behind those of earlier tokens. -/
theorem Transcribed.record_later (h : Transcribed limit source i i log t) {e : SyntaxError}
    (here : e.IsAt t.current) (n : Nat) :
    ∃ j log, Transcribed limit source j j log ((State.advance^[n] t).record e) := by
  obtain ⟨log, passed⟩ := h.advances n
  rw [h.reached.at.current_eq] at here
  have recorded := passed.record here (fun _ => rfl) (by omega)
  exact ⟨i + n, _, recorded.mono (Nat.le_add_right i n)⟩

/-- **Every parse has a transcript.** -/
theorem Course.exists_transcribed {hand : List (NodeId × Nat)}
    (h : (State.start limit source).Course t hand) : ∃ i log, Transcribed limit source i i log t := by
  induction h with
  | start => exact ⟨0, _, State.transcribed_start limit source⟩
  | advance _ ih =>
    obtain ⟨i, log, written⟩ := ih
    exact ⟨i + 1, _, written.advance.mono (Nat.le_succ i)⟩
  | record n _ here ih =>
    obtain ⟨i, log, written⟩ := ih
    exact written.record_later here.isAt n
  | alloc token _ _ _ _ ih =>
    obtain ⟨i, log, written⟩ := ih
    exact ⟨i, log, written.alloc _ token⟩
  | @recover u t _ _ _ e _ _ raises ihHere ihMade =>
    by_cases dangling : e.fault.isDangling = true
    · -- the errors of the clause are there already, and those of later clauses come behind
      obtain ⟨i, log, written⟩ := ihHere
      obtain ⟨j, _, made⟩ := ihMade
      have here := raises.here.isAt
      rw [made.reached.at.current_eq] at here
      have recorded := written.record here (fun prompt => by simp [dangling] at prompt) (by omega)
      exact ⟨i, _, recorded.alloc _ _⟩
    · obtain ⟨n, rfl⟩ := raises.prompt (Bool.eq_false_iff.2 dangling)
      obtain ⟨i, log, made⟩ := ihMade
      obtain ⟨j, log, recorded⟩ := made.record_later raises.here.isAt n
      exact ⟨j, log, recorded.alloc _ _⟩
  | widen _ _ ih => exact ih
  | pushRoot _ ih =>
    obtain ⟨i, log, written⟩ := ih
    exact ⟨i, log, written.pushRoot _⟩

end Parser.State

namespace Source

variable {source : Source} {i j n : Nat} {log : List (Nat × Diagnostic)}

/-! ### Places and lines -/

/-- The token at a place is one of the source; behind the last one it stays the same. -/
theorem tokenize_getElem? (source : Source) (i : Nat) :
    source.tokenize.1[min i source.scan.scanned.length]? = some (source.tokenAt i) := by
  have length : source.tokenize.1.length = source.scan.scanned.length + 1 := by
    simp [tokenize, TokenStream.tokens]
  by_cases within : i < source.scan.scanned.length
  · rw [Nat.min_eq_left (Nat.le_of_lt within), tokenAt, List.getD_eq_getElem?_getD,
      List.getElem?_eq_getElem (by omega)]
    rfl
  · rw [Nat.min_eq_right (Nat.le_of_not_lt within), tokenAt_of_length_le (Nat.le_of_not_lt within)]
    simp [tokenize, TokenStream.tokens]

/-- Later places are not on earlier lines. -/
theorem line_tokenAt_le (few : source.content.toList.count '\n' < UInt32.size - 1) (le : i ≤ j) :
    (source.tokenAt i).line ≤ (source.tokenAt j).line := by
  have sorted := List.pairwise_iff_getElem.1 (source.pairwise_line_le few)
  obtain ⟨bound, here⟩ := List.getElem?_eq_some_iff.1 (source.tokenize_getElem? i)
  obtain ⟨bound', later⟩ := List.getElem?_eq_some_iff.1 (source.tokenize_getElem? j)
  by_cases less : min i source.scan.scanned.length < min j source.scan.scanned.length
  · rw [← here, ← later]
    exact sorted _ _ bound bound' less
  · have same : min i source.scan.scanned.length = min j source.scan.scanned.length := by omega
    have tokens : source.tokenAt i = source.tokenAt j := by
      rw [← here, ← later]
      simp only [same]
    rw [tokens]
    exact UInt32.le_refl _

/-- Behind the last token none is illegal. -/
theorem illegalPlaces_of_length_le (all : source.scan.scanned.length ≤ n) :
    source.illegalPlaces n = source.illegalPlaces source.scan.scanned.length := by
  induction all with
  | refl => rfl
  | step behind ih =>
    rw [illegalPlaces_succ, ih, tokenAt_of_length_le behind, if_neg (by simp [Token.endOfFile]),
      List.append_nil]

theorem pairwise_illegalPlaces (source : Source) (n : Nat) :
    (source.illegalPlaces n).Pairwise (· < ·) :=
  List.pairwise_lt_range.filter _

/-- In a transcript, lines are in order where places are. -/
theorem Transcript.pairwise_line (h : source.Transcript n log)
    (few : source.content.toList.count '\n' < UInt32.size - 1) {p : Diagnostic → Bool}
    (sorted : (log.filter fun entry => p entry.2).Pairwise fun entry later => entry.1 ≤ later.1) :
    ((log.map (·.2)).filter p).Pairwise fun d later => d.line ≤ later.line := by
  rw [List.filter_map, List.pairwise_map]
  refine sorted.imp_of_mem fun {entry later} mem mem' le => ?_
  rw [(h.concerns entry (List.mem_of_mem_filter mem)).line_eq,
    (h.concerns later (List.mem_of_mem_filter mem')).line_eq]
  exact line_tokenAt_le few le

/-- What a parse has recorded in the end is a transcript of the whole source. -/
theorem exists_transcript (limit : Nat) (source : Source) :
    ∃ log, (source.parseWith limit).errors.toList = log.map (·.2) ∧
      source.Transcript source.scan.scanned.length log := by
  have level := Statement.trades_ofRoom (Nat.le_refl (2 * limit))
  have course := Item.course_program (s := State.start limit source) level
  obtain ⟨i, log, written⟩ := State.Course.exists_transcribed course
  have behind : source.scan.scanned.length ≤ i := by
    rw [← List.drop_eq_nil_iff, ← written.reached.at.ahead_eq]
    exact ahead_program limit limit source
  have read := written.transcript
  refine ⟨log, written.errors_eq, read.concerns, ?_, read.prompt_places, read.reported_first⟩
  rw [read.lexical_places, illegalPlaces_of_length_le (by omega)]

/-- **The order of diagnostics.** In the diagnostics of a source with fewer line feeds than lines can be
counted, the lines of the faults of texts do not decrease, and neither do the lines of the errors of the
syntax, but for those of clauses that follow no `if`. With the places of their tokens beside them the
diagnostics are a transcript of the source. So where an illegal token was found in place of what was
required, the report that this very token is illegal stands before, and it has the same line. -/
theorem diagnostics_in_order (source : Source)
    (few : source.content.toList.count '\n' < UInt32.size - 1) :
    let errors := source.parse.errors.toList
    (errors.filter (·.fault.isLexical)).Pairwise (fun d later => d.line ≤ later.line) ∧
    (errors.filter (·.isPrompt)).Pairwise (fun d later => d.line ≤ later.line) ∧
    ∃ log, errors = log.map (·.2) ∧ source.Transcript source.scan.scanned.length log ∧
      ∀ before i d, before ++ [(i, d)] <+: log → d.found? = some .illegal →
        ∃ e, (i, e) ∈ before ∧ source.Reports i e ∧ e.line = d.line := by
  intro errors
  obtain ⟨log, recorded, written⟩ := source.exists_transcript maxNesting
  have all : errors = log.map (·.2) := recorded
  have lexical : (log.filter (·.2.fault.isLexical)).Pairwise fun entry later => entry.1 ≤ later.1 := by
    refine List.pairwise_map.1 ?_
    rw [written.lexical_places]
    exact (source.pairwise_illegalPlaces _).imp Nat.le_of_lt
  refine ⟨?_, ?_, log, all, written, fun before i d isPrefix found => ?_⟩
  · rw [all]
    exact written.pairwise_line few lexical
  · rw [all]
    exact written.pairwise_line few written.prompt_places
  · obtain ⟨e, mem, reports⟩ := written.reported_first before i d isPrefix found
    have entry : (i, d) ∈ log := isPrefix.subset (by simp)
    exact ⟨e, mem, reports, reports.line_eq.trans (written.concerns _ entry).line_eq.symm⟩

/-- An `else` without an `if` on the second line, with illegal tokens in it and around it: its error is
recorded behind those on the third line, and the other errors come in order. -/
theorem diagnostics_in_order_dangling :
    let source : Source :=
      ⟨"f.viper", "proc f(): void \x7b x = @;\n  else \x7b\n  @; \x7d\n  x = ;\n\x7d #"⟩
    let errors := source.parse.errors.toList
    (source.content.toList.count '\n' < UInt32.size - 1 ∧
      errors.map (·.line) = [1, 1, 1, 1, 3, 3, 3, 3, 2, 4, 5, 5] ∧
      (errors.filter (·.isPrompt)).map (·.line) = [1, 1, 1, 3, 3, 3, 4, 5]) ∧
    (errors.filter (·.fault.isLexical)).Pairwise (fun d later => d.line ≤ later.line) ∧
    (errors.filter (·.isPrompt)).Pairwise (fun d later => d.line ≤ later.line) ∧
    ∃ log, errors = log.map (·.2) ∧ source.Transcript source.scan.scanned.length log ∧
      ∀ before i d, before ++ [(i, d)] <+: log → d.found? = some .illegal →
        ∃ e, (i, e) ∈ before ∧ source.Reports i e ∧ e.line = d.line := by
  intro source errors
  have few : source.content.toList.count '\n' < UInt32.size - 1 := by decide +kernel
  exact ⟨⟨few, by decide +kernel, by decide +kernel⟩, diagnostics_in_order source few⟩

end Source
end Viper
