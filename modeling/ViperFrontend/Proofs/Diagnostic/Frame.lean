/-
# The frame of a report

The report of a diagnostic is framed by two bars and shows one line of its source between them. Whatever
the source holds, the report of each diagnostic of its parse is five lines, and the bars of the last three
stand in one column (`Source.report_framed`): the line that is shown is there, since the line of a
diagnostic is that of a token; a message quotes every text it gives, and what is quoted is on one line
(`Text.oneLine_quote`). A tip gives a text as it is only if that is a number, which has no line feed in it
(`Source.oneLine_literal`). The name of the file is given as it is, so that it must be on one line.

Key definitions: `Text.OneLine`, `Fault.literal?`, `Diagnostic.frame`.
Key theorems: `Text.oneLine_quote`, `Diagnostic.oneLine_frame`, `Diagnostic.bar_frame`,
`Source.report_framed`.
-/
import ViperFrontend.Diagnostic.Report
import ViperFrontend.Proofs.Parser.Lines
import ViperFrontend.Proofs.Parser.Literals

namespace Viper

/-! ### Texts on one line -/

namespace Text

/-- The text has no line feed. -/
def OneLine (text : String) : Prop :=
  '\n' ∉ text.toList

theorem OneLine.append {a b : String} (first : OneLine a) (second : OneLine b) : OneLine (a ++ b) := by
  simpa [OneLine] using And.intro first second

theorem OneLine.ofList {cs : List Char} (h : '\n' ∉ cs) : OneLine (String.ofList cs) := by
  rwa [OneLine, String.toList_ofList]

theorem feed_not_mem_toDigits {base : Nat} (large : 1 < base) (n : Nat) :
    '\n' ∉ Nat.toDigits base n := by
  have digit : ∀ m : Nat, '\n' ≠ m.digitChar := fun m => (Nat.digitChar_ne '\n' (by decide)).symm
  induction n using Nat.strongRecOn with
  | ind n ih =>
    by_cases small : n < base
    · rw [Nat.toDigits_of_lt_base small, List.mem_singleton]
      exact digit n
    · have some : 0 < n := by omega
      rw [Nat.toDigits_of_base_le large (Nat.le_of_not_lt small), List.mem_append, List.mem_singleton]
      exact not_or.2 ⟨ih _ (Nat.div_lt_self some large), digit (n % base)⟩

theorem oneLine_toDigits (n : Nat) : OneLine (String.ofList (Nat.toDigits 10 n)) :=
  .ofList (feed_not_mem_toDigits (by decide) n)

/-- A line feed is written as two other characters. -/
theorem feed_not_mem_escape {delimiter : Char} (other : delimiter ≠ '\n') (c : Char) :
    '\n' ∉ escape delimiter c := by
  unfold escape
  split_ifs with zero tab ret feed special shown
  · decide
  · decide
  · decide
  · decide
  · rcases special with rfl | rfl
    · decide
    · simpa using other.symm
  · simpa using Ne.symm feed
  · simpa [escapeCode] using feed_not_mem_toDigits (by decide) c.toNat

/-- **Whatever is quoted is on one line.** -/
theorem oneLine_quote {delimiter : Char} (other : delimiter ≠ '\n') (text : List Char) :
    OneLine (quote delimiter text) := by
  refine .ofList ?_
  simp only [List.cons_append, List.mem_cons, List.mem_append, List.mem_flatMap, List.not_mem_nil,
    or_false, not_or, not_exists, not_and]
  exact ⟨other.symm, fun c _ => feed_not_mem_escape other c, other.symm⟩

theorem oneLine_quoteString (text : String) : OneLine (quoteString text) :=
  oneLine_quote (by decide) _

theorem oneLine_quoteChar (c : Char) : OneLine (quoteChar c) :=
  oneLine_quote (by decide) _

theorem OneLine.trim {text : String} (h : OneLine text) : OneLine (trim text) := by
  refine .ofList fun feed => h ?_
  have inner := (List.dropWhile_sublist isBlank).subset (List.mem_reverse.1 feed)
  exact (List.dropWhile_sublist isBlank).subset (List.mem_reverse.1 inner)

theorem oneLine_of_line? {text line : String} {number : UInt32} (h : line? text number = some line) :
    OneLine line := by
  unfold line? at h
  split at h
  · cases h
  · obtain ⟨rest, -, rfl⟩ := Option.map_eq_some_iff.1 h
    refine .ofList fun feed => ?_
    have inner := (List.dropWhile_sublist _).subset (List.mem_reverse.1 feed)
    simpa using List.all_eq_true.1 List.all_takeWhile _ (List.mem_reverse.1 inner)

end Text

open Text

/-! ### Faults -/

theorem TokenKind.oneLine_describe (kind : TokenKind) : OneLine kind.describe := by
  unfold describe
  split
  · rename_i symbol spelled
    have spelling : OneLine symbol := by
      have feed := kind.feed_not_mem_spelling
      rwa [TokenKind.spelling, spelled] at feed
    exact .append (.append (.ofList (by decide)) spelling) (.ofList (by decide))
  · split <;> exact .ofList (by decide)

theorem TokenKind.oneLine_describeText (kind : TokenKind) (text : String) :
    OneLine (kind.describeText text) :=
  .append (.append kind.oneLine_describe (.ofList (by decide))) (oneLine_quoteString text)

theorem LexicalFault.oneLine_message : ∀ fault : LexicalFault, OneLine fault.message
  | .illegalCharacter c => .append (.ofList (by decide)) (oneLine_quoteChar c)
  | .malformedNumber literal => .append (.ofList (by decide)) (oneLine_quoteString literal)
  | .unterminatedString | .unterminatedComment => .ofList (by decide)

theorem SyntaxFault.oneLine_message : ∀ fault : SyntaxFault, OneLine fault.message
  | .unexpectedToken expected found text =>
    .append (.append (.append (.ofList (by decide)) expected.oneLine_describe) (.ofList (by decide)))
      (found.oneLine_describeText text)
  | .expectedExpression found text | .expectedDataType found text | .expectedStructMember found text
  | .expectedTopLevelItem found text => .append (.ofList (by decide)) (found.oneLine_describeText text)
  | .missingComma found => .append (.ofList (by decide)) found.oneLine_describe
  | .danglingElseClause clause => .append clause.oneLine_describe (.ofList (by decide))
  | .numberTooLarge literal => .append (.ofList (by decide)) (oneLine_quoteString literal)
  | .nestingTooDeep limit => .append (.append (.ofList (by decide)) (oneLine_toDigits limit)) (.ofList (by decide))

namespace Fault

theorem oneLine_name (fault : Fault) : OneLine fault.name := by
  cases fault with
  | lexical fault => cases fault <;> exact .ofList (by decide)
  | syntactic fault => cases fault <;> exact .ofList (by decide)

/-- **A message is on one line**, whatever it is about. -/
theorem oneLine_message : ∀ fault : Fault, OneLine fault.message
  | .lexical fault => fault.oneLine_message
  | .syntactic fault => fault.oneLine_message

/-- The text that the tip on a fault gives as it is. -/
def literal? : Fault → Option String
  | .lexical (.malformedNumber literal) | .syntactic (.numberTooLarge literal) => some literal
  | _ => none

/-- A tip is on one line if the text is that it gives as it is. -/
theorem oneLine_tip? {fault : Fault} (literal : ∀ text ∈ fault.literal?, OneLine text) :
    ∀ tip ∈ fault.tip?, OneLine tip := by
  intro tip given
  cases fault with
  | lexical fault =>
    cases fault with
    | illegalCharacter c => cases given
    | malformedNumber number =>
      cases given
      exact .append (.append (.ofList (by decide)) (literal number rfl)) (.ofList (by decide))
    | unterminatedString | unterminatedComment =>
      cases given
      exact .ofList (by decide)
  | syntactic fault =>
    cases fault with
    | unexpectedToken expected found text =>
      cases expected
      case semicolon =>
        cases given
        exact .ofList (by decide)
      all_goals cases given
    | expectedExpression found text =>
      cases given
      exact .append (.ofList (by decide)) found.oneLine_describe
    | danglingElseClause clause =>
      cases given
      exact .append clause.oneLine_describe (.ofList (by decide))
    | numberTooLarge number =>
      cases given
      exact .append (.append (.ofList (by decide)) (literal number rfl)) (.ofList (by decide))
    | expectedDataType | expectedStructMember | expectedTopLevelItem | missingComma | nestingTooDeep =>
      cases given
      exact .ofList (by decide)

end Fault

/-! ### The lines of a report -/

namespace Diagnostic

/-- The lines of a report that shows the line `shown` of its source. -/
def frame (d : Diagnostic) (source : Source) (shown : String) : List String :=
  ["Error: " ++ d.fault.name ++ (d.fault.tip?.elim "" fun tip => " (" ++ tip ++ ")"),
    "-> " ++ source.name,
    d.gutter,
    String.ofList d.lineNumber ++ " | " ++ Text.trim shown,
    d.gutter ++ " " ++ d.fault.message]

variable {d : Diagnostic} {source : Source} {shown : String}

theorem headline_eq (d : Diagnostic) : d.headline =
    "Error: " ++ d.fault.name ++ (d.fault.tip?.elim "" fun tip => " (" ++ tip ++ ")") := by
  unfold headline
  cases d.fault.tip? with
  | none => exact (String.append_empty).symm
  | some tip => simp only [Option.elim_some, String.append_assoc]

theorem report_eq (there : Text.line? source.content d.line = some shown) :
    d.report source = String.join ((d.frame source shown).map (· ++ "\n")) := by
  simp only [report, excerpt, there, frame, headline_eq, List.map_cons, List.map_nil, String.join,
    List.foldl_cons, List.foldl_nil, String.empty_append, String.append_assoc]

/-- **Each line of a report is one line** if the file's name is, the line that is shown, and the text that
the tip gives. -/
theorem oneLine_frame (name : OneLine source.name) (there : OneLine shown)
    (literal : ∀ text ∈ d.fault.literal?, OneLine text) :
    ∀ line ∈ d.frame source shown, OneLine line := by
  have bar : OneLine d.gutter := by simp [OneLine, gutter]
  have tip : OneLine (d.fault.tip?.elim "" fun tip => " (" ++ tip ++ ")") := by
    cases given : d.fault.tip? with
    | none => exact .ofList (by decide)
    | some tip =>
      exact .append (.append (.ofList (by decide)) (Fault.oneLine_tip? literal tip given))
        (.ofList (by decide))
  simp only [frame, List.forall_mem_cons, List.not_mem_nil, false_imp_iff, implies_true, and_true]
  exact ⟨.append (.append (.ofList (by decide)) d.fault.oneLine_name) tip,
    .append (.ofList (by decide)) name, bar,
    .append (.append (oneLine_toDigits d.line.toNat) (.ofList (by decide))) there.trim,
    .append (.append bar (.ofList (by decide))) d.fault.oneLine_message⟩

/-- The first bar of a line stands behind what has none. -/
theorem idxOf?_bar {before rest : List Char} (without : '|' ∉ before) :
    (before ++ '|' :: rest).idxOf? '|' = some before.length := by
  have notThere : before.findIdx? (· == '|') = none := by
    rw [List.findIdx?_eq_none_iff]
    intro c mem
    rw [beq_eq_false_iff_ne]
    rintro rfl
    exact without mem
  simp [List.idxOf?, List.findIdx?_append, List.findIdx?_cons, notThere]

/-- **The bars stand in one column**, however many digits the line's number has. -/
theorem bar_frame : ∀ line ∈ (d.frame source shown).drop 2,
    line.toList.idxOf? '|' = some (d.lineNumber.length + 1) := by
  have gutter : ∀ rest : List Char,
      (List.replicate (d.lineNumber.length + 1) ' ' ++ '|' :: rest).idxOf? '|' =
        some (d.lineNumber.length + 1) := by
    intro rest
    rw [idxOf?_bar (by simp), List.length_replicate]
  have digits : '|' ∉ d.lineNumber ++ [' '] := by
    intro mem
    rcases List.mem_append.1 mem with digit | blank
    · cases Nat.isDigit_of_mem_toDigits (by decide) (by decide) digit
    · cases List.mem_singleton.1 blank
  simp only [frame, List.drop_succ_cons, List.drop_zero, List.forall_mem_cons, List.not_mem_nil,
    false_imp_iff, implies_true, and_true]
  refine ⟨?_, ?_, ?_⟩
  · simpa [Diagnostic.gutter] using gutter []
  · have number := @idxOf?_bar _ (' ' :: (Text.trim shown).toList) digits
    simpa using number
  · simpa [Diagnostic.gutter] using gutter (' ' :: d.fault.message.toList)

end Diagnostic

namespace Source

variable {source : Source} {d : Diagnostic}

/-- A diagnostic of a text is that of a token. -/
theorem exists_scanned_of_lexical {limit : Nat} (mem : d ∈ (source.parseWith limit).errors)
    (lexical : d.fault.isLexical = true) :
    ∃ s ∈ source.scan.scanned, s.diagnostic? source.name = some d := by
  obtain ⟨last, ends, -, course⟩ := source.course_parseWith limit
  obtain ⟨i, reached⟩ := course.reaches.exists_reachesIn
  rw [ends] at mem
  have recorded : d ∈ last.lexicalErrors :=
    List.mem_filter.2 ⟨Array.mem_toList_iff.2 mem, lexical⟩
  rw [reached.at.lexical_eq, diagnosticsOfFirst] at recorded
  obtain ⟨s, scanned, diagnosed⟩ := List.mem_filterMap.1 recorded
  exact ⟨s, List.mem_of_mem_take scanned, diagnosed⟩

/-- **A text that a tip gives as it is** is a number of the source and has no line feed. -/
theorem oneLine_literal (mem : d ∈ source.parse.errors) :
    ∀ text ∈ d.fault.literal?, OneLine text := by
  intro text given
  unfold Fault.literal? at given
  split at given
  · rename_i isFault
    cases given
    obtain ⟨s, scanned, diagnosed⟩ := exists_scanned_of_lexical mem (by rw [isFault]; rfl)
    obtain ⟨fault, wrong, rfl⟩ := Option.map_eq_some_iff.1 diagnosed
    cases isFault
    obtain ⟨points, number⟩ := (source.numeral_scan s scanned).malformed text wrong
    exact Word.feed_not_mem_of_isNumber number
  · rename_i isFault
    cases given
    obtain ⟨token, -⟩ := token_of_tooLarge mem isFault
    have digits := (source.numeral_tokenize token).1 rfl
    exact fun feed => absurd (digits.2 '\n' feed) (by decide)
  · cases given

/-- **A report is framed.** In a source with fewer line feeds than lines can be counted, and with a name
on one line, the report of each diagnostic of the parse is five lines: the name of what is wrong with its
tip, the name of the file, a bar, the line of the source behind its number, and the message behind a bar.
None of them has a line feed in it, whatever the source holds, and the first bars of the last three stand
in the column behind the digits and a blank. -/
theorem report_framed (source : Source) (name : '\n' ∉ source.name.toList)
    (few : source.content.toList.count '\n' < UInt32.size - 1) {d : Diagnostic}
    (mem : d ∈ source.parse.errors) :
    ∃ shown, Text.line? source.content d.line = some shown ∧
      d.report source = String.join ((d.frame source shown).map (· ++ "\n")) ∧
      (∀ line ∈ d.frame source shown, '\n' ∉ line.toList) ∧
      ∀ line ∈ (d.frame source shown).drop 2,
        line.toList.idxOf? '|' = some (d.lineNumber.length + 1) := by
  obtain ⟨t, token, line⟩ := (source.linesIn_parseWith maxNesting).errors d mem
  obtain ⟨shown, there⟩ := Option.isSome_iff_exists.1 (isSome_line?_of_token few token)
  rw [line] at there
  exact ⟨shown, there, Diagnostic.report_eq there,
    Diagnostic.oneLine_frame name (oneLine_of_line? there) (oneLine_literal mem), Diagnostic.bar_frame⟩

/-- A string literal over two lines where a type is missing, on the tenth line of its file. -/
theorem report_framed_string :
    let source : Source := ⟨"m.vp", "\n\n\n\n\n\n\n\n\n\tlet s: \"a\n|\" = 1;"⟩
    let d : Diagnostic := ⟨.syntactic (.expectedDataType .string "a\n|"), 10, "m.vp"⟩
    ('\n' ∉ source.name.toList ∧ source.content.toList.count '\n' < UInt32.size - 1 ∧
      d ∈ source.parse.errors ∧ d.lineNumber = ['1', '0'] ∧
      Text.line? source.content d.line = some "\tlet s: \"a" ∧
      d.report source = "Error: ExpectedDataType (types are written as a name, e.g. `i32` or `void`)\n" ++
        "-> m.vp\n" ++ "   |\n" ++ "10 | let s: \"a\n" ++
        "   | expected data type, found string literal \"a\\n|\"\n") ∧
    ∃ shown, Text.line? source.content d.line = some shown ∧
      d.report source = String.join ((d.frame source shown).map (· ++ "\n")) ∧
      (∀ line ∈ d.frame source shown, '\n' ∉ line.toList) ∧
      ∀ line ∈ (d.frame source shown).drop 2,
        line.toList.idxOf? '|' = some (d.lineNumber.length + 1) := by
  intro source d
  have name : '\n' ∉ source.name.toList := by decide
  have few : source.content.toList.count '\n' < UInt32.size - 1 := by decide +kernel
  have mem : d ∈ source.parse.errors := by decide +kernel
  exact ⟨⟨name, few, mem, by decide, by decide +kernel, by decide +kernel⟩,
    report_framed source name few mem⟩

end Source
end Viper
