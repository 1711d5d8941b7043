/-
# Line breaks of two characters

A carriage return before a line feed is blank like the line feed itself, and it counts no line. So a
text in which every line feed is replaced by a carriage return and a line feed (`Text.withReturns`)
scans to the same tokens on the same lines, with the same diagnostics; only within quotes, where
everything is text, is the replacement to be seen (`Source.tokenize_withReturns`).

A line feed may stand in layout, in a comment, in a string literal or right behind any other token. In
each of these places the two scans are compared by what is left to read: if that of the one is the
replacement of that of the other, it is so again behind the next piece. Behind a line comment alone the
two differ by a carriage return, which the comment has taken, and which is skipped where it stands.

Key definitions: `Text.withReturns`, `Scanned.isQuoted`, `Source.withReturns`.
Key theorems: `Layout.skip_withReturns`, `Lexeme.read_withReturns`, `Cursor.scan_withReturns`,
`Source.tokenize_withReturns`.
-/
import ViperFrontend.Proofs.Token.Factoring

namespace Viper

/-! ### The replacement -/

namespace Text

/-- The text with a carriage return before every line feed. -/
def withReturns (text : List Char) : List Char :=
  text.flatMap fun c => if c = '\n' then ['\r', '\n'] else [c]

theorem withReturns_nil : withReturns [] = [] :=
  rfl

theorem withReturns_feed (cs : List Char) :
    withReturns ('\n' :: cs) = '\r' :: '\n' :: withReturns cs := by
  simp [withReturns]

theorem withReturns_other {c : Char} (cs : List Char) (other : c ≠ '\n') :
    withReturns (c :: cs) = c :: withReturns cs := by
  simp [withReturns, other]

theorem withReturns_append (cs ds : List Char) :
    withReturns (cs ++ ds) = withReturns cs ++ withReturns ds :=
  List.flatMap_append

theorem withReturns_of_not_mem {cs : List Char} (inLine : '\n' ∉ cs) : withReturns cs = cs := by
  induction cs with
  | nil => rfl
  | cons c cs ih =>
    have first : c ≠ '\n' := (List.ne_of_not_mem_cons inLine).symm
    rw [withReturns_other cs first, ih (List.not_mem_of_not_mem_cons inLine)]

/-- The first character is the same, unless it is one of a line break. -/
theorem head?_withReturns (cs : List Char) {d : Char} (noFeed : d ≠ '\n') (noReturn : d ≠ '\r') :
    (withReturns cs).head? = some d ↔ cs.head? = some d := by
  cases cs with
  | nil => rfl
  | cons c cs =>
    by_cases feed : c = '\n'
    · simp [feed, withReturns_feed, noFeed.symm, noReturn.symm]
    · simp [withReturns_other cs feed]

/-- A run that both characters of a line break belong to, or neither, takes the same part of a text. -/
theorem takeWhile_withReturns {p : Char → Bool} (alike : p '\r' = p '\n') (cs : List Char) :
    (withReturns cs).takeWhile p = withReturns (cs.takeWhile p) ∧
      (withReturns cs).dropWhile p = withReturns (cs.dropWhile p) := by
  induction cs with
  | nil => exact ⟨rfl, rfl⟩
  | cons c cs ih =>
    by_cases feed : c = '\n'
    · subst feed
      cases runs : p '\n' with
      | true => simp [withReturns_feed, alike, runs, ih]
      | false => simp [withReturns_feed, alike, runs, withReturns_nil]
    · cases runs : p c with
      | true => simp [withReturns_other _ feed, runs, ih]
      | false => simp [withReturns_other _ feed, runs, withReturns_nil]

end Text

open Text

/-! ### Layout -/

namespace Layout

/-- The replacement adds no lines. -/
theorem lineAfter_withReturns (line : UInt32) (text : List Char) :
    lineAfter line (withReturns text) = lineAfter line text := by
  have same : (withReturns text).count '\n' = text.count '\n' := by
    induction text with
    | nil => rfl
    | cons c cs ih =>
      by_cases feed : c = '\n'
      · simp [feed, withReturns_feed, ih]
      · simp [withReturns_other cs feed, feed, ih]
  rw [lineAfter_eq, lineAfter_eq, same]

/-- No line break comes between the two characters that end a comment. -/
theorem closeComment?_withReturns (line : UInt32) (text : List Char) :
    closeComment? line (withReturns text) =
      (closeComment? line text).map fun r => (r.1, withReturns r.2) := by
  induction text generalizing line with
  | nil => rfl
  | cons c cs ih =>
    by_cases feed : c = '\n'
    · subst feed
      rw [withReturns_feed, closeComment?, closeComment?, closeComment?, if_neg (by simp),
        if_neg (by simp), if_neg (by simp)]
      exact ih _
    · have head := head?_withReturns cs (d := '/') (by decide) (by decide)
      rw [withReturns_other cs feed, closeComment?, closeComment?]
      simp only [head]
      split
      · rename_i closes
        obtain ⟨rest, rfl⟩ := List.head?_eq_some_iff.1 closes.2
        rw [withReturns_other rest (by decide)]
        rfl
      · exact ih _

/-- Behind a line comment stands a line feed or nothing, and a return before the line feed is skipped. -/
theorem skip_behind_lineComment (line : UInt32) (text : List Char) :
    skip line ((withReturns text).dropWhile (· ≠ '\n')) =
      skip line (withReturns (text.dropWhile (· ≠ '\n'))) := by
  induction text with
  | nil => rfl
  | cons c cs ih =>
    by_cases feed : c = '\n'
    · have skipped := skip_blank line ('\n' :: withReturns cs) (c := '\r') rfl
      simpa [feed, withReturns_feed, nextLine] using skipped.symm
    · simpa [withReturns_other cs feed, feed] using ih

/-- **Skipping layout** leaves the replacement of what it leaves of the text. -/
theorem skip_withReturns (line : UInt32) (text : List Char) :
    skip line (withReturns text) = ((skip line text).1, withReturns (skip line text).2) := by
  fun_induction skip line text with
  | case1 line => rw [withReturns, List.flatMap_nil, skip]
  | case2 line rest ih =>
    rw [withReturns_other _ (by decide), withReturns_other _ (by decide), skip_lineComment,
      skip_behind_lineComment, ih]
  | case3 line rest r closed ih =>
    have same : closeComment? line (withReturns rest) = some (r.1, withReturns r.2) := by
      rw [closeComment?_withReturns, closed]
      rfl
    rw [withReturns_other _ (by decide), withReturns_other _ (by decide), skip_blockComment same, ih]
  | case4 line rest opened =>
    have same : closeComment? line (withReturns rest) = none := by
      rw [closeComment?_withReturns, opened]
      rfl
    rw [withReturns_other _ (by decide), withReturns_other _ (by decide), skip_openComment same]
  | case5 line c rest _ _ blank ih =>
    by_cases feed : c = '\n'
    · subst feed
      rw [withReturns_feed, skip_blank line _ rfl, skip_blank _ _ rfl]
      exact ih
    · rw [withReturns_other rest feed, skip_blank line _ blank, ih]
  | case6 line c rest noLine noBlock other =>
    have feed : c ≠ '\n' := by
      rintro rfl
      exact other rfl
    rw [withReturns_other rest feed]
    refine skip_of_not_layout line (Bool.eq_false_iff.2 other) fun slash => ?_
    rw [ne_eq, ne_eq, head?_withReturns rest (by decide) (by decide),
      head?_withReturns rest (by decide) (by decide)]
    exact head?_ne_of_not_comment noLine noBlock slash

end Layout

/-! ### Lexemes -/

/-- The text of such a token stands behind a quote: it is a string literal, or one that does not
end. -/
def TokenKind.isQuoted (kind : TokenKind) (fault? : Option LexicalFault) : Bool :=
  kind = .string || fault? = some .unterminatedString

theorem TokenKind.isQuoted_of_ne {kind : TokenKind} (notString : kind ≠ .string) :
    kind.isQuoted none = false := by
  simp [isQuoted, notString]

namespace Lexeme

/-- What is read in place of the lexeme once the line feeds are replaced. -/
def withReturns (lexeme : Lexeme) : Lexeme :=
  { lexeme with
    text :=
      if lexeme.kind.isQuoted lexeme.fault? then String.ofList (Text.withReturns lexeme.text.toList)
      else lexeme.text
    source := Text.withReturns lexeme.source
    rest := Text.withReturns lexeme.rest }

/-- Outside of quotes, a lexeme without a line feed stays as it is. -/
theorem withReturns_of_plain {lexeme : Lexeme} (plain : lexeme.kind.isQuoted lexeme.fault? = false)
    (inLine : '\n' ∉ lexeme.source) :
    lexeme.withReturns = { lexeme with rest := Text.withReturns lexeme.rest } := by
  rw [withReturns, plain, withReturns_of_not_mem inLine]
  rfl

theorem string_withReturns (cs : List Char) :
    string (Text.withReturns cs) = (string cs).withReturns := by
  obtain ⟨taken, dropped⟩ := takeWhile_withReturns (p := fun d => decide (d ≠ '"')) rfl cs
  unfold string
  simp only [taken, dropped]
  cases behind : cs.dropWhile (fun d => decide (d ≠ '"')) with
  | nil => simp [withReturns, TokenKind.isQuoted, withReturns_nil, withReturns_other]
  | cons quote rest =>
    have isQuote : quote = '"' := by simpa using eq_false_of_dropWhile behind
    simp [withReturns, TokenKind.isQuoted, withReturns_nil, withReturns_other, withReturns_append,
      isQuote]

/-- A run that no line feed belongs to ends where it did, and so does what starts with it. -/
theorem run_withReturns {p : Char → Bool} (stops : ∀ c, Layout.isBlank c = true → p c = false)
    {c : Char} (first : c ≠ '\n') (cs : List Char) :
    (Text.withReturns cs).takeWhile p = cs.takeWhile p ∧
      (Text.withReturns cs).dropWhile p = Text.withReturns (cs.dropWhile p) ∧
      '\n' ∉ c :: cs.takeWhile p := by
  have alike : p '\r' = p '\n' := (stops '\r' rfl).trans (stops '\n' rfl).symm
  have inRun : '\n' ∉ cs.takeWhile p := by
    intro mem
    have run := List.all_eq_true.1 (List.all_takeWhile (l := cs) (p := p)) '\n' mem
    rw [stops '\n' rfl] at run
    cases run
  obtain ⟨taken, dropped⟩ := takeWhile_withReturns alike cs
  exact ⟨taken.trans (withReturns_of_not_mem inRun), dropped, by simp [first.symm, inRun]⟩

theorem number_withReturns {c : Char} (first : c ≠ '\n') (cs : List Char) :
    number c (Text.withReturns cs) = (number c cs).withReturns := by
  obtain ⟨taken, dropped, inLine⟩ :=
    run_withReturns (fun c => not_continuesNumber_of_isBlank) first cs
  unfold number
  simp only [taken, dropped]
  split
  all_goals
    rw [withReturns_of_plain rfl inLine]

theorem word_withReturns {c : Char} (first : c ≠ '\n') (cs : List Char) :
    word c (Text.withReturns cs) = (word c cs).withReturns := by
  obtain ⟨taken, dropped, inLine⟩ := run_withReturns (fun c => not_continuesWord_of_isBlank) first cs
  have notString : (word c cs).kind ≠ .string := by
    rcases TokenKind.getD_ofReserved? (word c cs).text with name | keyword
    · rw [show (word c cs).kind = .identifier from name]
      decide
    · exact notString_of_symbol? keyword
  rw [withReturns_of_plain (TokenKind.isQuoted_of_ne notString) inLine]
  unfold word
  rw [taken, dropped]

end Lexeme

/-- An operator goes on over no line break, and none is part of one. -/
theorem TokenKind.extend_withReturns (kind : TokenKind) (cs : List Char) :
    kind.extend (Text.withReturns cs) = ((kind.extend cs).1, Text.withReturns (kind.extend cs).2) := by
  induction cs generalizing kind with
  | nil => rfl
  | cons c cs ih =>
    by_cases feed : c = '\n'
    · subst feed
      rw [withReturns_feed, extend, extend, extend?_of_isBlank kind rfl, extend?_of_isBlank kind rfl]
      exact congrArg _ (withReturns_feed cs).symm
    · rw [withReturns_other cs feed, extend, extend]
      cases longer : kind.extend? c with
      | none => exact congrArg _ (withReturns_other cs feed).symm
      | some longerKind => exact ih longerKind

namespace Lexeme

theorem operator_withReturns {c : Char} {first : TokenKind} (starts : TokenKind.ofChar? c = some first)
    (cs : List Char) :
    operator first (Text.withReturns cs) = (operator first cs).withReturns := by
  have symbol := TokenKind.isSome_symbol?_extend cs (TokenKind.isSome_symbol?_of_ofChar? starts)
  have plain := TokenKind.isQuoted_of_ne (notString_of_symbol? symbol)
  have inLine : '\n' ∉ (operator first cs).source :=
    TokenKind.feed_not_mem_spelling (first.extend cs).1
  rw [withReturns_of_plain plain inLine]
  simp only [operator, TokenKind.extend_withReturns]

/-- **What is read** in place of a lexeme once the line feeds behind its first character are
replaced. -/
theorem read_withReturns {c : Char} (first : c ≠ '\n') (cs : List Char) :
    read c (Text.withReturns cs) = (read c cs).withReturns := by
  have comment := head?_withReturns cs (d := '*') (by decide) (by decide)
  unfold read
  simp only [comment]
  split
  · exact string_withReturns cs
  · split
    · exact number_withReturns first cs
    · split
      · exact word_withReturns first cs
      · split
        · simp [openComment, withReturns, TokenKind.isQuoted, withReturns_nil, withReturns_other]
        · split
          · exact operator_withReturns ‹_› cs
          · have inLine : '\n' ∉ (illegal c cs).source := by simpa [illegal] using first.symm
            rw [withReturns_of_plain rfl inLine]
            rfl

end Lexeme

/-! ### Scanning -/

/-- The token that is scanned in place of another once the line feeds are replaced: the same on the same
line, but for what a text within quotes holds. -/
def Scanned.withReturns (s : Scanned) : Scanned :=
  { s with
    token.text :=
      if s.token.kind.isQuoted s.fault? then String.ofList (Text.withReturns s.token.text.toList)
      else s.token.text }

/-- **The scan of a text with replaced line feeds**: the same tokens, and the end on the same line. -/
theorem Cursor.scan_withReturns (c : Cursor) :
    (⟨c.line, Text.withReturns c.rest⟩ : Cursor).scan #[] =
      ⟨(c.scan #[]).scanned.map (·.withReturns), (c.scan #[]).endLine⟩ := by
  induction length : c.rest.length using Nat.strongRecOn generalizing c with
  | ind n ih =>
    have place : (⟨c.line, Text.withReturns c.rest⟩ : Cursor).skipLayout =
        ⟨c.skipLayout.line, Text.withReturns c.skipLayout.rest⟩ := by
      simp only [skipLayout, Layout.skip_withReturns]
    rcases c.skipLayout_cases with ⟨-, here⟩ | ⟨parts, first, others, -, -, bare, here⟩
    · have ended : c.skipLayout.rest = [] := congrArg rest here
      rw [ended, withReturns_nil] at place
      rw [scan_of_none (read?_of_nil ended), scan_of_none (read?_of_nil (congrArg rest place)), place]
      rfl
    · have start : c.skipLayout.rest = first :: others := congrArg rest here
      have feed : first ≠ '\n' := by
        rintro rfl
        cases bare.1 '\n' rfl
      rw [start, withReturns_other others feed] at place
      have read := read?_of_cons start
      have further := read?_of_cons (congrArg rest place)
      rw [place, Lexeme.read_withReturns feed] at further
      have behind := ih _ (length ▸ length_rest_read? read) _ rfl
      rw [scan_of_some read, scan_of_some further]
      simp only [Lexeme.withReturns, Layout.lineAfter_withReturns]
      rw [behind]
      rfl

namespace Source

/-- The source with a carriage return before every line feed. -/
def withReturns (source : Source) : Source :=
  { source with content := String.ofList (Text.withReturns source.content.toList) }

theorem scan_withReturns (source : Source) :
    source.withReturns.scan = ⟨source.scan.scanned.map (·.withReturns), source.scan.endLine⟩ := by
  rw [scan, start, withReturns, String.toList_ofList]
  exact source.start.scan_withReturns

/-- **A source with a carriage return before every line feed** has as many tokens, of the same kinds and
on the same lines, and the same diagnostics. The texts of the tokens are the same, but that of a string
literal or of one that does not end has its line feeds replaced like the source. -/
theorem tokenize_withReturns (source : Source) :
    (source.withReturns.tokenize.1.map fun t => (t.kind, t.line)) =
        (source.tokenize.1.map fun t => (t.kind, t.line)) ∧
      source.withReturns.tokenize.1.map (·.text) =
        source.scan.scanned.map (fun s =>
          if s.token.kind.isQuoted s.fault? then String.ofList (Text.withReturns s.token.text.toList)
          else s.token.text) ++ [""] ∧
      source.withReturns.tokenize.2 = source.tokenize.2 := by
  simp only [tokenize, TokenStream.tokens, TokenStream.diagnostics, scan_withReturns, List.map_append,
    List.map_map, List.filterMap_map]
  exact ⟨rfl, rfl, rfl⟩

end Source
end Viper
