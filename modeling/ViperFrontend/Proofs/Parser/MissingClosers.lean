/-
# Missing closers cost one diagnostic each

A source with closing tokens left out has the tree of the whole one, and a diagnostic for each of them
(`Source.parse_of_omits`), for no parser does anything else where one is missing. Two cases of this: a `;`
before a `}` (`Source.missing_semicolon`), and the `}` that end a file (`Source.unclosed_at_end`).

Key theorems: `Source.parse_of_omits`, `Source.missing_semicolon`, `Source.unclosed_at_end`.
-/
import ViperFrontend.Proofs.Parser.Concatenation
import ViperFrontend.Proofs.Parser.Mending
import ViperFrontend.Proofs.Token.Schedule

namespace Viper

open Viper.Parser

namespace Source

/-- Two parses start at the same place, nothing being wrong with the texts of the second one. -/
theorem lacks_start {a b : Source} {es : List SyntaxError}
    (legal : ∀ x ∈ b.scan.scanned, x.fault? = none)
    (omits : Omits b.scan.endLine a.scan.scanned b.scan.scanned es) (limit : Nat) :
    State.Lacks (es.map (·.diagnostic b.name)) (.start limit a) (.start limit b) where
  ast_eq := rfl
  legal := legal
  missing := by
    have none : (State.start limit b).errors.toList = [] := by
      rw [State.toList_errors_start, List.filterMap_eq_nil_iff]
      intro x mem
      simp [Scanned.diagnostic?, legal x (List.mem_of_mem_take mem)]
    exact ⟨es, omits, by rw [none]; rfl⟩

/-- **Closing tokens that are left out cost one diagnostic each, and nothing else.** If nothing is wrong
with a source, another one of the same tokens but for some that are left out has the same tree, and an
error for each of those. -/
theorem parse_of_omits {a b : Source} (clean : a.parse.errors = #[]) {es : List SyntaxError}
    (legal : ∀ x ∈ b.scan.scanned, x.fault? = none)
    (omits : Omits b.scan.endLine a.scan.scanned b.scan.scanned es) :
    b.parse.ast = a.parse.ast ∧ b.parse.errors.toList = es.map (·.diagnostic b.name) := by
  have level := Statement.mends_ofRoom maxNesting
  obtain ⟨-, last⟩ :=
    Item.mends_items level _ _ _ (lacks_start legal omits maxNesting) clean
  refine ⟨last.ast_eq, ?_⟩
  obtain ⟨left, rest, errors⟩ := last.missing
  have ended : ((Item.items (.ofRoom maxNesting) false).run (.start maxNesting a)).2.ahead = [] :=
    ahead_program maxNesting maxNesting a
  rw [ended] at rest
  rw [rest.eq_nil.2, List.map_nil, List.append_nil] at errors
  exact errors

/-! ### Two cases -/

/-- Nothing is wrong with the text of a token that is not illegal. -/
theorem fault_eq_none_of_legal {source : Source} (legal : ∀ t ∈ source.tokenize.1, t.kind ≠ .illegal) :
    ∀ x ∈ source.scan.scanned, x.fault? = none := by
  intro x mem
  obtain ⟨i, here⟩ := List.mem_iff_getElem?.1 mem
  rcases source.explained_scan.getElem? here with ⟨-, none⟩ | ⟨illegal, -⟩
  · exact none
  · exact absurd illegal (legal x.token (List.mem_append_left _ (List.mem_map_of_mem mem)))

/-- If nothing is wrong with a source, none of its tokens is illegal. -/
theorem legal_of_clean {source : Source} (clean : source.parse.errors = #[]) :
    ∀ t ∈ source.tokenize.1, t.kind ≠ .illegal := by
  intro t mem
  rcases List.mem_append.1 mem with token | last
  · obtain ⟨x, scanned, rfl⟩ := List.mem_map.1 token
    obtain ⟨i, here⟩ := List.mem_iff_getElem?.1 scanned
    rcases source.explained_scan.getElem? here with ⟨legal, -⟩ | ⟨-, fault, some, -⟩
    · exact legal
    · rw [fault_eq_none_of_clean clean x scanned] at some
      cases some
  · rw [List.mem_singleton.1 last]
    exact nofun

/-- The last token of a source ends the file, and those before it are scanned. -/
theorem tokens_of_tokenize {source : Source} {tokens : List Token} {last : Token}
    (all : source.tokenize.1 = tokens ++ [last]) :
    source.scan.scanned.map (·.token) = tokens ∧ last = .endOfFile source.scan.endLine := by
  have split : source.scan.scanned.map (·.token) ++ [Token.endOfFile source.scan.endLine] =
      tokens ++ [last] := all
  obtain ⟨before, ended⟩ := List.append_inj' split rfl
  exact ⟨before, (List.singleton_inj.1 ended).symm⟩

/-- Where no token is illegal, what is scanned are the tokens before the end of the file. -/
theorem scanned_eq_of_legal {source : Source} (legal : ∀ t ∈ source.tokenize.1, t.kind ≠ .illegal)
    {tokens : List Token} {last : Token} (all : source.tokenize.1 = tokens ++ [last]) :
    source.scan.scanned = tokens.map Scanned.ofToken := by
  rw [← (tokens_of_tokenize all).1, List.map_map]
  refine ((List.map_congr_left fun x mem => ?_).trans (List.map_id _)).symm
  show (⟨x.token, none⟩ : Scanned) = x
  rw [← fault_eq_none_of_legal legal x mem]

/-- **A missing `;` before a `}` costs one diagnostic and nothing else**, unless it stands in place of the
value of a `return`. If nothing is wrong with a source, another one that has the same tokens but for such
a `;` has the same tree, and an error on the line of the `}`. -/
theorem missing_semicolon {a b : Source} {before behind : List Token} {semicolon brace : Token}
    (clean : a.parse.errors = #[]) (isSemicolon : semicolon.kind = .semicolon)
    (isBrace : brace.kind = .closeCurly)
    (whole : a.tokenize.1 = before ++ semicolon :: brace :: behind)
    (value : ∀ last ∈ before.getLast?, last.kind ≠ .kwReturn)
    (left : b.tokenize.1 = before ++ brace :: behind) :
    b.parse.ast = a.parse.ast ∧ b.parse.errors =
      #[⟨.syntactic (.unexpectedToken .semicolon .closeCurly "\x7d"), brace.line, b.name⟩] := by
  have legal := legal_of_clean clean
  have legal' : ∀ t ∈ b.tokenize.1, t.kind ≠ .illegal := by
    intro t mem
    rw [left] at mem
    refine legal t ?_
    rw [whole]
    exact (List.Sublist.append_left (List.sublist_cons_self _ _) before).subset mem
  -- behind the brace the file ends at the earliest
  obtain rfl | ⟨behind, last, rfl⟩ := List.eq_nil_or_concat behind
  · have ended : brace = .endOfFile b.scan.endLine := (tokens_of_tokenize left).2
    rw [ended] at isBrace
    cases isBrace
  rw [List.concat_eq_append] at whole left
  have scanned : a.scan.scanned = (before ++ semicolon :: brace :: behind).map Scanned.ofToken :=
    scanned_eq_of_legal legal (by rw [whole, List.append_assoc]; rfl)
  have scanned' : b.scan.scanned = (before ++ brace :: behind).map Scanned.ofToken :=
    scanned_eq_of_legal legal' (by rw [left, List.append_assoc]; rfl)
  have omits : Omits b.scan.endLine a.scan.scanned b.scan.scanned [unexpected .semicolon brace] := by
    rw [scanned, scanned', List.map_append, List.map_append, ← isSemicolon]
    refine (Omits.leaveOut (.refl _ _) ?_ ?_ ?_).append (before.map Scanned.ofToken) ?_
    · show semicolon.kind.isCloser = true
      rw [isSemicolon]
      rfl
    · show brace.kind.isBoundary = true
      rw [isBrace]
      rfl
    · show brace.kind ≠ semicolon.kind
      rw [isBrace, isSemicolon]
      decide
    · intro x mem returns
      rw [List.getLast?_map] at mem
      obtain ⟨last, isLast, rfl⟩ := Option.map_eq_some_iff.1 mem
      exact absurd returns (value last isLast)
  have text : brace.text = "\x7d" := by
    refine a.text_eq_of_symbol? (Scanned.ofToken brace) ?_ _ ?_
    · simp [scanned]
    · show brace.kind.symbol? = _
      rw [isBrace]
      rfl
  obtain ⟨tree, errors⟩ := parse_of_omits clean (fault_eq_none_of_legal legal') omits
  refine ⟨tree, Array.toList_inj.1 ?_⟩
  rw [errors]
  simp [SyntaxError.diagnostic, unexpected, isBrace, text]

/-- Behind a `return` with a value: the name that is the value stands before the `}`. -/
theorem missing_semicolon_return :
    let a : Source := ⟨"a.viper", "proc f(): T \x7b\n return x;\n\x7d"⟩
    let b : Source := ⟨"b.viper", "proc f(): T \x7b\n return x\n\x7d"⟩
    let before := a.tokenize.1.take 9
    let behind := a.tokenize.1.drop 11
    let semicolon : Token := ⟨.semicolon, ";", 2⟩
    let brace : Token := ⟨.closeCurly, "\x7d", 3⟩
    (a.parse.errors = #[] ∧ semicolon.kind = .semicolon ∧ brace.kind = .closeCurly ∧
      a.tokenize.1 = before ++ semicolon :: brace :: behind ∧
      (∀ last ∈ before.getLast?, last.kind ≠ .kwReturn) ∧
      b.tokenize.1 = before ++ brace :: behind) ∧
    b.parse.ast = a.parse.ast ∧ b.parse.errors =
      #[⟨.syntactic (.unexpectedToken .semicolon .closeCurly "\x7d"), 3, "b.viper"⟩] := by
  intro a b before behind semicolon brace
  have clean : a.parse.errors = #[] := by decide +kernel
  have whole : a.tokenize.1 = before ++ semicolon :: brace :: behind := by decide +kernel
  have value : ∀ last ∈ before.getLast?, last.kind ≠ .kwReturn := by decide +kernel
  have left : b.tokenize.1 = before ++ brace :: behind := by decide +kernel
  exact ⟨⟨clean, rfl, rfl, whole, value, left⟩, missing_semicolon clean rfl rfl whole value left⟩

/-- **Blocks that are not closed at the end of a file keep the whole tree**, and cost one diagnostic for
each `}` that is missing. If nothing is wrong with a source, another one that has the same tokens but for
some of the last `}` has the same tree, and as many errors as are missing on the line where it ends. -/
theorem unclosed_at_end {a b : Source} {before removed : List Token} {last last' : Token}
    (clean : a.parse.errors = #[]) (braces : ∀ t ∈ removed, t.kind = .closeCurly)
    (whole : a.tokenize.1 = before ++ removed ++ [last])
    (left : b.tokenize.1 = before ++ [last']) :
    b.parse.ast = a.parse.ast ∧ b.parse.errors = Array.replicate removed.length
      ⟨.syntactic (.unexpectedToken .closeCurly .eof ""), last'.line, b.name⟩ := by
  have legal := legal_of_clean clean
  obtain ⟨-, ended⟩ := tokens_of_tokenize left
  have legal' : ∀ t ∈ b.tokenize.1, t.kind ≠ .illegal := by
    intro t mem
    rw [left] at mem
    rcases List.mem_append.1 mem with isBefore | isLast
    · exact legal t (by simp [whole, isBefore])
    · rw [List.mem_singleton.1 isLast, ended]
      show TokenKind.eof ≠ .illegal
      decide
  have scanned := scanned_eq_of_legal legal whole
  have scanned' := scanned_eq_of_legal legal' left
  have omits : Omits b.scan.endLine a.scan.scanned b.scan.scanned
      (List.replicate removed.length (unexpected .closeCurly last')) := by
    have other : (Scanned.upcoming b.scan.endLine []).kind ≠ .closeCurly := by
      intro same
      cases same
    have same : ∀ x ∈ removed.map Scanned.ofToken, x.token.kind = .closeCurly := by
      simpa [Scanned.ofToken] using braces
    have missing := Omits.replicate .closeCurly rfl rfl other same .nil
    rw [List.append_nil, List.append_nil, List.length_map] at missing
    have behind := missing.append (before.map Scanned.ofToken) fun _ _ _ semicolon => by
      cases removed with
      | nil => exact semicolon
      | cons t removed =>
        have both : TokenKind.closeCurly = .semicolon := (braces t List.mem_cons_self).symm.trans semicolon
        cases both
    rwa [List.append_nil, ← List.map_append, ← scanned, ← scanned', Scanned.upcoming, ← ended]
      at behind
  obtain ⟨tree, errors⟩ := parse_of_omits clean (fault_eq_none_of_legal legal') omits
  refine ⟨tree, Array.toList_inj.1 ?_⟩
  rw [errors, ended]
  simp [SyntaxError.diagnostic, unexpected, Token.endOfFile]

/-- Two of three blocks, the file ending one line further up. -/
theorem unclosed_at_end_nested :
    let a : Source := ⟨"a.viper", "proc f(): T \x7b\n if a \x7b \x7b \x7d\n\x7d \x7d"⟩
    let b : Source := ⟨"b.viper", "proc f(): T \x7b\n if a \x7b \x7b \x7d"⟩
    let before := a.tokenize.1.take 12
    let removed := (a.tokenize.1.drop 12).take 2
    (a.parse.errors = #[] ∧ removed.length = 2 ∧ (∀ t ∈ removed, t.kind = .closeCurly) ∧
      a.tokenize.1 = before ++ removed ++ [.endOfFile 3] ∧
      b.tokenize.1 = before ++ [.endOfFile 2]) ∧
    b.parse.ast = a.parse.ast ∧ b.parse.errors = Array.replicate 2
      ⟨.syntactic (.unexpectedToken .closeCurly .eof ""), 2, "b.viper"⟩ := by
  intro a b before removed
  have clean : a.parse.errors = #[] := by decide +kernel
  have two : removed.length = 2 := by decide +kernel
  have braces : ∀ t ∈ removed, t.kind = .closeCurly := by decide +kernel
  have whole : a.tokenize.1 = before ++ removed ++ [.endOfFile 3] := by decide +kernel
  have left : b.tokenize.1 = before ++ [.endOfFile 2] := by decide +kernel
  have kept := unclosed_at_end clean braces whole left
  rw [two] at kept
  exact ⟨⟨clean, two, braces, whole, left⟩, kept⟩

end Source
end Viper
