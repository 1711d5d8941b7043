/-
# A text is its tokens and the layout around them

Scanning loses nothing of a text and invents nothing: the text is that of its tokens, one after the
other, with layout before each and behind the last (`Source.tokenize_pieces`). Layout is given by
its parts (`Layout.Part`), so that it can also be written: blanks, line comments with the line feed
that ends them, and block comments that end at their first `*/`. At the end of a file, and only
there, a line comment may lack its line feed (`Layout.EndsFile`).

The line of a token is that of the text before its first character (`Cursor.exists_pieces`), so
lines never decrease from one token to the next (`Source.pairwise_line_le`).

Key definitions: `Layout.Part`, `Layout.textOf`, `Scanned.Spells`, `Piece`.
Key theorems: `Layout.exists_parts`, `Cursor.exists_pieces`, `Source.tokenize_pieces`.
-/
import ViperFrontend.Proofs.Token.Concatenation

namespace Viper

/-- Where a run of characters stops, the next one is not of the run. -/
theorem eq_false_of_dropWhile {p : Char → Bool} {d : Char} {cs rest : List Char}
    (stopped : cs.dropWhile p = d :: rest) : p d = false := by
  have some : cs.dropWhile p ≠ [] := by
    rw [stopped]
    exact List.cons_ne_nil d rest
  have stop := List.head_dropWhile_not p some
  simpa only [stopped, List.head_cons] using stop

/-! ### Layout by its parts -/

namespace Layout

/-- A part of layout. -/
inductive Part where
  | blank (c : Char)
  | lineComment (body : List Char)
  | blockComment (body : List Char)
deriving DecidableEq, Repr

namespace Part

/-- The characters of a part; the line feed that ends a line comment belongs to it. -/
def text : Part → List Char
  | .blank c => [c]
  | .lineComment body => '/' :: '/' :: body ++ ['\n']
  | .blockComment body => '/' :: '*' :: body ++ ['*', '/']

/-- A line comment stays on its line, and a block comment ends at its first `*/`. -/
def WellFormed : Part → Prop
  | .blank c => isBlank c = true
  | .lineComment body => '\n' ∉ body
  | .blockComment body => ¬ ['*', '/'] <:+: body

instance : DecidablePred WellFormed
  | .blank c => inferInstanceAs (Decidable (isBlank c = true))
  | .lineComment body => inferInstanceAs (Decidable ('\n' ∉ body))
  | .blockComment body => inferInstanceAs (Decidable (¬ ['*', '/'] <:+: body))

end Part

/-- The characters of some layout. -/
def textOf (parts : List Part) : List Char :=
  parts.flatMap Part.text

theorem textOf_cons (part : Part) (parts : List Part) :
    textOf (part :: parts) = part.text ++ textOf parts :=
  List.flatMap_cons

/-- Layout up to the end of a file: the last line comment may lack its line feed. -/
def EndsFile (text : List Char) : Prop :=
  ∃ parts comment, (∀ part ∈ parts, Part.WellFormed part) ∧ text = textOf parts ++ comment ∧
    (comment = [] ∨ ∃ body, '\n' ∉ body ∧ comment = '/' :: '/' :: body)

/-- No layout starts here: no blank and no line comment. -/
def Bare (text : List Char) : Prop :=
  (∀ c ∈ text.head?, isBlank c = false) ∧ ¬ ['/', '/'] <+: text

theorem bare_nil : Bare [] := by
  simp [Bare]

theorem pair_prefix_cons {a d c : Char} {cs : List Char} :
    [a, d] <+: c :: cs ↔ c = a ∧ cs.head? = some d := by
  rw [List.cons_prefix_cons, eq_comm]
  cases cs <;> simp [List.cons_prefix_cons, eq_comm]

/-! ### Block comments -/

/-- What is left of a text behind its first `*/`. -/
theorem closeComment?_body {body : List Char} (line : UInt32) (rest : List Char)
    (first : ¬ ['*', '/'] <:+: body) :
    closeComment? line (body ++ '*' :: '/' :: rest) = some (lineAfter line body, rest) := by
  induction body generalizing line with
  | nil => simp [closeComment?, lineAfter]
  | cons c cs ih =>
    have later : ¬ ['*', '/'] <:+: cs := fun inside => first (List.infix_cons inside)
    have goesOn : ¬ (c = '*' ∧ (cs ++ '*' :: '/' :: rest).head? = some '/') := by
      rintro ⟨star, head⟩
      cases cs with
      | nil => exact absurd head (by simp)
      | cons d cs =>
        have start : ['*', '/'] <+: c :: d :: cs := pair_prefix_cons.2 ⟨star, head⟩
        exact first start.isInfix
    rw [List.cons_append, closeComment?, if_neg goesOn, ih _ later]
    rfl

theorem exists_body_of_closeComment? {line : UInt32} {text : List Char} {r : UInt32 × List Char}
    (closed : closeComment? line text = some r) :
    ∃ body, ¬ ['*', '/'] <:+: body ∧ text = body ++ '*' :: '/' :: r.2 := by
  induction text generalizing line with
  | nil => cases closed
  | cons c cs ih =>
    rw [closeComment?] at closed
    by_cases closes : c = '*' ∧ cs.head? = some '/'
    · rw [if_pos closes] at closed
      obtain ⟨more, whole⟩ := pair_prefix_cons.2 closes
      obtain ⟨rfl, rfl⟩ := List.cons.inj whole
      cases closed
      exact ⟨[], by decide, rfl⟩
    · rw [if_neg closes] at closed
      obtain ⟨body, first, whole⟩ := ih closed
      refine ⟨c :: body, fun inside => ?_, by rw [whole]; rfl⟩
      rcases List.infix_cons_iff.1 inside with start | later
      · refine closes (pair_prefix_cons.1 ?_)
        rw [whole]
        exact start.trans (List.prefix_append (c :: body) _)
      · exact first later

/-! ### Skipping layout -/

theorem lineAfter_lineComment {line : UInt32} {body : List Char} (inLine : '\n' ∉ body) :
    lineAfter line (Part.lineComment body).text = line + 1 := by
  rw [lineAfter_eq]
  simp [Part.text, List.count_eq_zero_of_not_mem inLine]

theorem lineAfter_blockComment (line : UInt32) (body : List Char) :
    lineAfter line (Part.blockComment body).text = lineAfter line body := by
  rw [lineAfter_eq, lineAfter_eq]
  simp [Part.text]

/-- **A part of layout is skipped**, and its line feeds count. -/
theorem skip_part {part : Part} (line : UInt32) (rest : List Char) (h : part.WellFormed) :
    skip line (part.text ++ rest) = skip (lineAfter line part.text) rest := by
  cases part with
  | blank c => exact skip_blank line rest h
  | lineComment body =>
    have run : ∀ c ∈ body, decide (c ≠ '\n') = true := by
      intro c mem
      simpa using fun feed : c = '\n' => h (feed ▸ mem)
    have dropped : (body ++ '\n' :: rest).dropWhile (· ≠ '\n') = '\n' :: rest := by
      rw [List.dropWhile_append_of_pos run]
      simp
    have whole : (Part.lineComment body).text ++ rest = '/' :: '/' :: (body ++ '\n' :: rest) := by
      simp [Part.text]
    rw [lineAfter_lineComment h, whole, skip_lineComment, dropped, skip_blank line rest rfl]
    rfl
  | blockComment body =>
    have whole : (Part.blockComment body).text ++ rest =
        '/' :: '*' :: (body ++ '*' :: '/' :: rest) := by
      simp [Part.text]
    rw [lineAfter_blockComment, whole, skip_blockComment (closeComment?_body line rest h)]

/-- **Layout is skipped.** -/
theorem skip_textOf (parts : List Part) (line : UInt32) (rest : List Char)
    (h : ∀ part ∈ parts, part.WellFormed) :
    skip line (textOf parts ++ rest) = skip (lineAfter line (textOf parts)) rest := by
  induction parts generalizing line with
  | nil => rfl
  | cons part parts ih =>
    obtain ⟨first, others⟩ := List.forall_mem_cons.1 h
    rw [textOf_cons, List.append_assoc, skip_part line _ first, ih _ others, lineAfter_append]

theorem skip_of_bare {text : List Char} (line : UInt32) (bare : Bare text)
    (comment : ¬ ['/', '*'] <+: text) : skip line text = (line, text) := by
  cases text with
  | nil => rw [skip]
  | cons c cs =>
    refine skip_of_not_layout line (bare.1 c rfl) fun slash => ?_
    exact ⟨fun head => bare.2 (pair_prefix_cons.2 ⟨slash, head⟩),
      fun head => comment (pair_prefix_cons.2 ⟨slash, head⟩)⟩

/-- Skipping stops before this text, where no layout starts, or else passes a line comment without a
line feed and is at the end of the file. -/
def Stops (text : List Char) : Prop :=
  (Bare text ∧ ∀ line, skip line text = (line, text)) ∨
    ∃ body, '\n' ∉ body ∧ text = '/' :: '/' :: body ∧ ∀ line, skip line text = (line, [])

/-- Layout, and behind it a text before which skipping stops. -/
def StopsBehind (text : List Char) : Prop :=
  ∃ parts rest, (∀ part ∈ parts, Part.WellFormed part) ∧ text = textOf parts ++ rest ∧ Stops rest

theorem StopsBehind.cons {part : Part} {text : List Char} (first : part.WellFormed)
    (h : StopsBehind text) : StopsBehind (part.text ++ text) := by
  obtain ⟨parts, rest, others, rfl, stops⟩ := h
  refine ⟨part :: parts, rest, List.forall_mem_cons.2 ⟨first, others⟩, ?_, stops⟩
  rw [textOf_cons, List.append_assoc]

theorem stopsBehind_of_bare {text : List Char} (bare : Bare text)
    (stays : ∀ line, skip line text = (line, text)) : StopsBehind text :=
  ⟨[], text, by simp, rfl, .inl ⟨bare, stays⟩⟩

/-- A line comment and what stands behind it. -/
theorem stopsBehind_lineComment {cs : List Char}
    (behind : ∀ left, left.length < cs.length → StopsBehind left) :
    StopsBehind ('/' :: '/' :: cs) := by
  have inLine : '\n' ∉ cs.takeWhile (· ≠ '\n') := by
    intro mem
    simpa using List.all_eq_true.1 List.all_takeWhile _ mem
  have split := List.takeWhile_append_dropWhile (p := fun c => decide (c ≠ '\n')) (l := cs)
  cases stopped : cs.dropWhile (· ≠ '\n') with
  | nil =>
    rw [stopped, List.append_nil] at split
    rw [split] at inLine
    refine ⟨[], '/' :: '/' :: cs, by simp, rfl, .inr ⟨cs, inLine, rfl, fun line => ?_⟩⟩
    rw [skip_lineComment, stopped, skip]
  | cons feed left =>
    have isFeed : feed = '\n' := by simpa using eq_false_of_dropWhile stopped
    rw [stopped, isFeed] at split
    have whole : '/' :: '/' :: cs = (Part.lineComment (cs.takeWhile (· ≠ '\n'))).text ++ left := by
      rw [Part.text, List.append_assoc, List.cons_append, List.cons_append, List.singleton_append, split]
    have shorter : left.length < cs.length := by
      rw [← split, List.length_append, List.length_cons]
      omega
    rw [whole]
    exact (behind left shorter).cons inLine

/-- A block comment that ends and what stands behind it, or one that does not end. -/
theorem stopsBehind_blockComment {cs : List Char}
    (behind : ∀ left, left.length < cs.length → StopsBehind left) :
    StopsBehind ('/' :: '*' :: cs) := by
  cases closed : closeComment? 1 cs with
  | some r =>
    obtain ⟨body, first, split⟩ := exists_body_of_closeComment? closed
    have whole : '/' :: '*' :: cs = (Part.blockComment body).text ++ r.2 := by
      simp [Part.text, split]
    have shorter : r.2.length < cs.length := by
      rw [split, List.length_append, List.length_cons, List.length_cons]
      omega
    rw [whole]
    exact (behind r.2 shorter).cons first
  | none =>
    have opened : ∀ line, closeComment? line cs = none := by
      rcases exists_closeComment? cs with never | ⟨p, rest, -, ends⟩
      · exact never
      · rw [ends] at closed
        cases closed
    have bare : Bare ('/' :: '*' :: cs) := ⟨by simp [isBlank], by simp⟩
    exact stopsBehind_of_bare bare fun line => skip_openComment (opened line)

/-- **What is skipped is layout**, and none follows it. -/
theorem exists_parts (text : List Char) : StopsBehind text := by
  induction length : text.length using Nat.strongRecOn generalizing text with
  | ind n ih =>
    have behind : ∀ left : List Char, left.length < text.length → StopsBehind left :=
      fun left shorter => ih left.length (length ▸ shorter) left rfl
    by_cases lineComment : ['/', '/'] <+: text
    · obtain ⟨cs, rfl⟩ := lineComment
      refine stopsBehind_lineComment fun left shorter => behind left ?_
      exact Nat.lt_of_lt_of_le shorter (Nat.le_add_right _ 2)
    by_cases blockComment : ['/', '*'] <+: text
    · obtain ⟨cs, rfl⟩ := blockComment
      refine stopsBehind_blockComment fun left shorter => behind left ?_
      exact Nat.lt_of_lt_of_le shorter (Nat.le_add_right _ 2)
    cases text with
    | nil => exact stopsBehind_of_bare bare_nil fun line => by rw [skip]
    | cons c cs =>
      by_cases blank : isBlank c = true
      · have first : (Part.blank c).WellFormed := blank
        exact (behind cs (by simp)).cons first
      · have bare : Bare (c :: cs) := ⟨by simpa using blank, lineComment⟩
        exact stopsBehind_of_bare bare fun line => skip_of_bare line bare blockComment

end Layout

/-! ### Tokens and their characters -/

/-- The characters are those of the token: its text, between quotes if it is a string literal. A string
literal that does not end has one quote, and a block comment that does not end any characters behind
its `/*`. -/
def Scanned.Spells (s : Scanned) (lexeme : List Char) : Prop :=
  match s.fault?, s.token.kind with
  | some .unterminatedString, _ => lexeme = '"' :: s.token.text.toList
  | some .unterminatedComment, _ => s.token.text = "/*" ∧ ['/', '*'] <+: lexeme
  | _, .string => lexeme = '"' :: s.token.text.toList ++ ['"']
  | _, _ => lexeme = s.token.text.toList

theorem Scanned.spells_of_plain {kind : TokenKind} {text : String} {line : UInt32}
    {lexeme : List Char} (notString : kind ≠ .string) (spelled : lexeme = text.toList) :
    Scanned.Spells ⟨⟨kind, text, line⟩, none⟩ lexeme := by
  unfold Scanned.Spells
  split <;> simp_all

namespace Lexeme

/-- The token of a lexeme, on its line. -/
def scanned (lexeme : Lexeme) (line : UInt32) : Scanned :=
  ⟨⟨lexeme.kind, lexeme.text, line⟩, lexeme.fault?⟩

theorem notString_of_symbol? {kind : TokenKind} (symbol : kind.symbol?.isSome = true) :
    kind ≠ .string := by
  rintro rfl
  cases symbol

/-- **What is read is spelled by its characters.** -/
theorem spells_read (c : Char) (cs : List Char) (line : UInt32) :
    ((read c cs).scanned line).Spells (read c cs).source := by
  unfold read
  split
  · unfold string
    dsimp only
    split
    · simp [scanned, Scanned.Spells]
    · rename_i quote rest stopped
      have isQuote : quote = '"' := by simpa using eq_false_of_dropWhile stopped
      simp [scanned, Scanned.Spells, isQuote]
  · split
    · unfold number
      dsimp only
      split <;> simp [scanned, Scanned.Spells]
    · split
      · refine Scanned.spells_of_plain ?_ (by simp [word])
        rcases TokenKind.getD_ofReserved? (word c cs).text with name | keyword
        · rw [show (word c cs).kind = .identifier from name]
          decide
        · exact notString_of_symbol? keyword
      · split
        · rename_i opens
          obtain ⟨rfl, head⟩ := opens
          exact ⟨rfl, Layout.pair_prefix_cons.2 ⟨rfl, head⟩⟩
        · split
          · rename_i first starts
            refine Scanned.spells_of_plain (notString_of_symbol? ?_) rfl
            exact TokenKind.isSome_symbol?_extend cs (TokenKind.isSome_symbol?_of_ofChar? starts)
          · simp [illegal, scanned, Scanned.Spells]

theorem source_read_ne_nil (c : Char) (cs : List Char) : (read c cs).source ≠ [] := by
  intro none
  have whole := congrArg List.length (source_append_rest c cs)
  have fewer := length_rest_read c cs
  rw [none, List.nil_append, List.length_cons] at whole
  omega

/-- A block comment that does not end is read to the end of the file. -/
theorem rest_read_of_openComment {c : Char} {cs : List Char}
    (opened : (read c cs).fault? = some .unterminatedComment) : (read c cs).rest = [] := by
  unfold read at opened ⊢
  split at opened
  · unfold string at opened
    split at opened <;> simp at opened
  · split at opened
    · unfold number at opened
      dsimp only at opened
      split at opened <;> simp at opened
    · split at opened
      · simp [word] at opened
      · split at opened
        · rename_i quote digit word opens
          rw [if_neg quote, if_neg digit, if_neg word, if_pos opens]
          rfl
        · split at opened
          · simp [operator] at opened
          · simp [illegal] at opened

end Lexeme

/-- A token with the layout before it and the characters it was read from. -/
structure Piece where
  layout : List Layout.Part
  scanned : Scanned
  lexeme : List Char
  wellFormed : ∀ part ∈ layout, part.WellFormed
  lexeme_ne_nil : lexeme ≠ []
  spells : scanned.Spells lexeme

namespace Piece

def text (p : Piece) : List Char :=
  Layout.textOf p.layout ++ p.lexeme

/-- The text of some pieces. -/
def textOf (pieces : List Piece) : List Char :=
  pieces.flatMap text

theorem textOf_cons (p : Piece) (pieces : List Piece) :
    textOf (p :: pieces) = p.text ++ textOf pieces :=
  List.flatMap_cons

end Piece

/-- The pieces of a text whose first character is on some line, and the layout behind them: each token
is on the line of the text before it, and a block comment that does not end is the last. -/
structure Factors (line : UInt32) (text : List Char) (pieces : List Piece) (last : List Char) :
    Prop where
  text_eq : text = Piece.textOf pieces ++ last
  last_ends : Layout.EndsFile last
  line_eq : ∀ before p after, pieces = before ++ p :: after →
    p.scanned.token.line = Layout.lineAfter line (Piece.textOf before ++ Layout.textOf p.layout)
  openComment_last : ∀ before p after, pieces = before ++ p :: after →
    p.scanned.fault? = some .unterminatedComment → after = [] ∧ last = []

theorem Factors.nil {line : UInt32} {last : List Char} (ends : Layout.EndsFile last) :
    Factors line last [] last where
  text_eq := rfl
  last_ends := ends
  line_eq before p after whole := by simp at whole
  openComment_last before p after whole := by simp at whole

theorem Factors.cons {line : UInt32} {text last : List Char} {p : Piece} {pieces : List Piece}
    (h : Factors (Layout.lineAfter line p.text) text pieces last)
    (here : p.scanned.token.line = Layout.lineAfter line (Layout.textOf p.layout))
    (opened : p.scanned.fault? = some .unterminatedComment → text = []) :
    Factors line (p.text ++ text) (p :: pieces) last where
  text_eq := by rw [Piece.textOf_cons, List.append_assoc, ← h.text_eq]
  last_ends := h.last_ends
  line_eq := by
    intro before q after whole
    cases before with
    | nil =>
      obtain ⟨rfl, -⟩ := List.cons.inj whole
      exact here
    | cons b before =>
      rw [List.cons_append] at whole
      obtain ⟨rfl, others⟩ := List.cons.inj whole
      rw [h.line_eq before q after others, Piece.textOf_cons, List.append_assoc,
        Layout.lineAfter_append line p.text]
  openComment_last := by
    intro before q after whole fault
    cases before with
    | nil =>
      obtain ⟨rfl, rfl⟩ := List.cons.inj whole
      have nothing := h.text_eq.symm.trans (opened fault)
      obtain ⟨none, rfl⟩ := List.append_eq_nil_iff.1 nothing
      refine ⟨?_, rfl⟩
      cases pieces with
      | nil => rfl
      | cons r rest =>
        rw [Piece.textOf_cons, Piece.text, List.append_assoc, List.append_eq_nil_iff,
          List.append_eq_nil_iff] at none
        exact absurd none.2.1 r.lexeme_ne_nil
    | cons b before =>
      rw [List.cons_append] at whole
      exact h.openComment_last before q after (List.cons.inj whole).2 fault

namespace Cursor

/-- Behind the layout at a place is the end of the file or a token. -/
theorem skipLayout_cases (c : Cursor) :
    (Layout.EndsFile c.rest ∧ c.skipLayout = ⟨Layout.lineAfter c.line c.rest, []⟩) ∨
      ∃ parts first others, (∀ part ∈ parts, Layout.Part.WellFormed part) ∧
        c.rest = Layout.textOf parts ++ first :: others ∧ Layout.Bare (first :: others) ∧
        c.skipLayout = ⟨Layout.lineAfter c.line (Layout.textOf parts), first :: others⟩ := by
  obtain ⟨line, text⟩ := c
  obtain ⟨parts, rest, wellFormed, rfl, stops⟩ := Layout.exists_parts text
  have skipped := Layout.skip_textOf parts line rest wellFormed
  rcases stops with ⟨bare, stays⟩ | ⟨body, inLine, rfl, ends⟩
  · rw [stays] at skipped
    cases rest with
    | nil =>
      rw [List.append_nil] at skipped ⊢
      refine .inl ⟨⟨parts, [], wellFormed, by simp, .inl rfl⟩, ?_⟩
      simp only [skipLayout, skipped]
    | cons first others =>
      refine .inr ⟨parts, first, others, wellFormed, rfl, bare, ?_⟩
      simp only [skipLayout, skipped]
  · have noFeed : '\n' ∉ '/' :: '/' :: body := by simpa using inLine
    refine .inl ⟨⟨parts, '/' :: '/' :: body, wellFormed, rfl, .inr ⟨body, inLine, rfl⟩⟩, ?_⟩
    simp only [skipLayout, skipped, ends, Layout.lineAfter_append, Layout.lineAfter_of_not_mem noFeed]

/-- **A text is its tokens and the layout around them**, wherever it starts. -/
theorem exists_pieces (c : Cursor) :
    ∃ pieces last, Factors c.line c.rest pieces last ∧
      c.scan #[] = ⟨pieces.map (·.scanned), Layout.lineAfter c.line c.rest⟩ := by
  induction length : c.rest.length using Nat.strongRecOn generalizing c with
  | ind n ih =>
    rcases c.skipLayout_cases with ⟨ends, place⟩ | ⟨parts, first, others, wellFormed, whole, -, place⟩
    · refine ⟨[], c.rest, .nil ends, ?_⟩
      rw [scan_of_none (read?_of_nil (congrArg rest place)), place]
      rfl
    · have next := read?_of_cons (congrArg rest place)
      let lexeme := Lexeme.read first others
      let p : Piece := ⟨parts, lexeme.scanned c.skipLayout.line, lexeme.source, wellFormed,
        Lexeme.source_read_ne_nil first others, Lexeme.spells_read first others _⟩
      have text : c.rest = p.text ++ lexeme.rest := by
        rw [whole, ← Lexeme.source_append_rest first others, Piece.text, List.append_assoc]
      have line : Layout.lineAfter c.skipLayout.line lexeme.source = Layout.lineAfter c.line p.text := by
        rw [Piece.text, Layout.lineAfter_append, place]
      obtain ⟨pieces, last, factors, scanned⟩ := ih _ (length ▸ length_rest_read? next) _ rfl
      rw [line] at factors scanned
      refine ⟨p :: pieces, last, ?_, ?_⟩
      · rw [text]
        exact factors.cons (congrArg Cursor.line place) Lexeme.rest_read_of_openComment
      · rw [scan_of_some next, line, scanned, text, Layout.lineAfter_append]
        rfl

end Cursor

/-! ### Lines -/

/-- With few line feeds a line is one more than the line feeds before it. -/
theorem Layout.toNat_lineAfter {text : List Char} (few : text.count '\n' < UInt32.size - 1) :
    (lineAfter 1 text).toNat = 1 + text.count '\n' := by
  have one : (1 : UInt32).toNat = 1 := rfl
  have size : UInt32.size = 4294967296 := rfl
  rw [lineAfter_eq, UInt32.toNat_add, UInt32.toNat_ofNat', one]
  omega

theorem Layout.lineAfter_le {text whole : List Char} (few : whole.count '\n' < UInt32.size - 1)
    (h : text <+: whole) : lineAfter 1 text ≤ lineAfter 1 whole := by
  have fewer : text.count '\n' ≤ whole.count '\n' := h.sublist.count_le '\n'
  rw [UInt32.le_iff_toNat_le, toNat_lineAfter few, toNat_lineAfter (by omega)]
  omega

/-- What holds of every item and those after it holds of every two. -/
theorem pairwise_of_split {α : Type} {R : α → α → Prop} {xs : List α}
    (h : ∀ before x after, xs = before ++ x :: after → ∀ y ∈ after, R x y) : xs.Pairwise R := by
  induction xs with
  | nil => exact .nil
  | cons x xs ih =>
    refine .cons (h [] x xs rfl) (ih fun before y after here => ?_)
    exact h (x :: before) y after (congrArg (x :: ·) here)

theorem Piece.textOf_append (ps qs : List Piece) : textOf (ps ++ qs) = textOf ps ++ textOf qs :=
  List.flatMap_append

namespace Factors

variable {text last : List Char} {pieces : List Piece}

/-- Lines do not decrease from one token to a later one, nor to the end of the file. -/
theorem line_le (h : Factors 1 text pieces last) (few : text.count '\n' < UInt32.size - 1)
    {before after : List Piece} {p : Piece} (here : pieces = before ++ p :: after) :
    (∀ q ∈ after, p.scanned.token.line ≤ q.scanned.token.line) ∧
      p.scanned.token.line ≤ Layout.lineAfter 1 text := by
  have start := h.line_eq before p after here
  have whole : text = Piece.textOf before ++ Layout.textOf p.layout ++
      (p.lexeme ++ Piece.textOf after ++ last) := by
    rw [h.text_eq, here, Piece.textOf_append, Piece.textOf_cons, Piece.text]
    simp only [List.append_assoc]
  constructor
  · intro q mem
    obtain ⟨mid, later, rfl⟩ := List.append_of_mem mem
    have place : pieces = (before ++ p :: mid) ++ q :: later := by
      rw [here, List.append_assoc, List.cons_append]
    have further : Piece.textOf (before ++ p :: mid) ++ Layout.textOf q.layout =
        Piece.textOf before ++ Layout.textOf p.layout ++
          (p.lexeme ++ Piece.textOf mid ++ Layout.textOf q.layout) := by
      rw [Piece.textOf_append, Piece.textOf_cons, Piece.text]
      simp only [List.append_assoc]
    have within : Piece.textOf (before ++ p :: mid) ++ Layout.textOf q.layout <+: text := by
      rw [h.text_eq, place, Piece.textOf_append _ (q :: later), Piece.textOf_cons, Piece.text]
      simp only [List.append_assoc]
      exact List.prefix_append_right_inj _ |>.2 (List.prefix_append _ _)
    have fewer : (Piece.textOf (before ++ p :: mid) ++ Layout.textOf q.layout).count '\n' <
        UInt32.size - 1 :=
      Nat.lt_of_le_of_lt (within.sublist.count_le '\n') few
    rw [start, h.line_eq _ q later place]
    refine Layout.lineAfter_le fewer ?_
    rw [further]
    exact List.prefix_append _ _
  · rw [start]
    refine Layout.lineAfter_le few ?_
    rw [whole]
    exact List.prefix_append _ _

end Factors

/-- **Lines never decrease** from one token of a source to a later one. -/
theorem Source.pairwise_line_le (source : Source)
    (few : source.content.toList.count '\n' < UInt32.size - 1) :
    source.tokenize.1.Pairwise fun t u => t.line ≤ u.line := by
  obtain ⟨pieces, last, factors, scanned⟩ := source.start.exists_pieces
  have tokens : source.tokenize.1 = pieces.map (·.scanned.token) ++
      [Token.endOfFile (Layout.lineAfter 1 source.content.toList)] := by
    show source.scan.tokens = _
    rw [show source.scan = _ from scanned, TokenStream.tokens, List.map_map]
    rfl
  have sorted : pieces.Pairwise fun p q => p.scanned.token.line ≤ q.scanned.token.line :=
    pairwise_of_split fun before p after here => (factors.line_le few here).1
  rw [tokens, List.pairwise_append]
  refine ⟨List.pairwise_map.2 sorted, List.pairwise_singleton _ _, ?_⟩
  · intro t isToken u isEnd
    obtain ⟨p, mem, rfl⟩ := List.mem_map.1 isToken
    obtain ⟨before, after, here⟩ := List.append_of_mem mem
    obtain rfl := List.mem_singleton.1 isEnd
    exact (factors.line_le few here).2

/-- **Scanning loses nothing and invents nothing.** The text of a source is that of its tokens, with
layout before each and behind the last; the characters of a token are not none. A block comment that
does not end takes all of the text that is left. The tokens are reported with the diagnostics of their
texts and with one more at the end, which ends the file. -/
theorem Source.tokenize_pieces (source : Source) :
    ∃ pieces last,
      (source.content.toList = Piece.textOf pieces ++ last ∧ Layout.EndsFile last) ∧
      (∀ before p after, pieces = before ++ p :: after →
        p.scanned.fault? = some .unterminatedComment → after = [] ∧ last = []) ∧
      source.tokenize = (pieces.map (·.scanned.token) ++ [Token.endOfFile source.scan.endLine],
        pieces.filterMap (·.scanned.diagnostic? source.name)) ∧
      ∀ p ∈ pieces, p.scanned.token.kind ≠ .eof := by
  obtain ⟨pieces, last, factors, scanned⟩ := source.start.exists_pieces
  have here : source.scan.scanned = pieces.map (·.scanned) := congrArg TokenStream.scanned scanned
  refine ⟨pieces, last, ⟨factors.text_eq, factors.last_ends⟩, factors.openComment_last, ?_, ?_⟩
  · simp only [tokenize, TokenStream.tokens, TokenStream.diagnostics, here, List.map_map,
      List.filterMap_map, Function.comp_def]
  · intro p mem
    refine source.kind_ne_eof_of_mem_scan p.scanned ?_
    rw [here]
    exact List.mem_map_of_mem mem

end Viper
