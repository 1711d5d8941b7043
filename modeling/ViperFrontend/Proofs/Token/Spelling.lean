/-
# Words and their spellings

A word is a token without its place: a kind and a text. A word that is spelled as its kind
asks for (`Word.isSpelled`) is read back from its characters, provided that it is followed by a
blank or by nothing: operators do not run on, and neither do names and numbers. So a list of
such words, written with a space between each two of them, scans to just these words
(`Word.scanned_join`).

Key definitions: `Word`, `Word.source`, `Word.isSpelled`, `Word.join`.
Key theorems: `Word.read?_source`, `Word.scanned_join`.
-/
import ViperFrontend.Proofs.Token.Scan

namespace Viper

/-- A kind of token and a text. -/
structure Word where
  kind : TokenKind
  text : String
deriving DecidableEq, Repr, Inhabited

/-- What a token is, wherever it stands. -/
def Token.word (t : Token) : Word :=
  ⟨t.kind, t.text⟩

/-- A word that is no keyword. -/
def isName (text : String) : Bool :=
  match text.toList with
  | [] => false
  | c :: cs =>
    Lexeme.startsWord c && cs.all Lexeme.continuesWord && (TokenKind.ofReserved? text).isNone

namespace Word

/-- The word of a kind that is always spelled the same way. -/
def symbol (kind : TokenKind) : Word :=
  ⟨kind, kind.spelling⟩

/-- The characters of a word: a string literal stands between quotes. -/
def source (w : Word) : List Char :=
  match w.kind with
  | .string => '"' :: w.text.toList ++ ['"']
  | _ => w.text.toList

/-- A number that starts with a digit and goes on with the given count of points. -/
def isNumber (points : Nat) (text : String) : Bool :=
  match text.toList with
  | [] => false
  | c :: cs => c.isDigit && cs.all Lexeme.continuesNumber && cs.count '.' == points

/-- Whether the text is one that a token of the kind can have. -/
def isSpelled (w : Word) : Bool :=
  match w.kind with
  | .identifier => isName w.text
  | .integer => isNumber 0 w.text
  | .float => isNumber 1 w.text
  | .string => !w.text.toList.contains '"'
  | kind => kind.symbol? == some w.text

/-- The kind of the first word, or of the token that ends a file. -/
def nextKind : List Word → TokenKind
  | [] => .eof
  | w :: _ => w.kind

/-- The words with a space between each two of them. -/
def join : List Word → List Char
  | [] => []
  | [w] => w.source
  | w :: ws => w.source ++ ' ' :: join ws

end Word

/-- The text is empty or starts with a blank. -/
def Layout.Gap (text : List Char) : Prop :=
  ∀ c ∈ text.head?, Layout.isBlank c = true

theorem Layout.gap_nil : Layout.Gap [] := by
  simp [Gap]

theorem Layout.gap_space (text : List Char) : Layout.Gap (' ' :: text) := by
  simp [Gap, Layout.isBlank]

/-! ### Runs of characters -/

/-- A run of characters ends at a blank. -/
theorem takeWhile_append_gap {p : Char → Bool} {cs rest : List Char}
    (run : cs.all p = true) (gap : Layout.Gap rest) (stops : ∀ c, Layout.isBlank c = true → p c = false) :
    (cs ++ rest).takeWhile p = cs ∧ (cs ++ rest).dropWhile p = rest := by
  have all : ∀ c ∈ cs, p c = true := List.all_eq_true.1 run
  rw [List.takeWhile_append_of_pos all, List.dropWhile_append_of_pos all]
  cases rest with
  | nil => simp
  | cons c rest =>
    have stop : p c = false := stops c (gap c rfl)
    simp [stop]

theorem not_continuesWord_of_isBlank {c : Char} (h : Layout.isBlank c = true) :
    Lexeme.continuesWord c = false := by
  simp only [Layout.isBlank, Bool.or_eq_true, decide_eq_true_eq] at h
  rcases h with ((rfl | rfl) | rfl) | rfl <;> decide

theorem not_continuesNumber_of_isBlank {c : Char} (h : Layout.isBlank c = true) :
    Lexeme.continuesNumber c = false := by
  simp only [Layout.isBlank, Bool.or_eq_true, decide_eq_true_eq] at h
  rcases h with ((rfl | rfl) | rfl) | rfl <;> decide

theorem not_isBlank_of_continues {p : Char → Bool} {c : Char}
    (stops : ∀ c, Layout.isBlank c = true → p c = false) (run : p c = true) :
    Layout.isBlank c = false := by
  cases blank : Layout.isBlank c with
  | false => rfl
  | true =>
    rw [stops c blank] at run
    cases run

theorem TokenKind.extend?_of_isBlank (kind : TokenKind) {c : Char}
    (h : Layout.isBlank c = true) : kind.extend? c = none := by
  simp only [Layout.isBlank, Bool.or_eq_true, decide_eq_true_eq] at h
  rcases h with ((rfl | rfl) | rfl) | rfl <;> cases kind <;> rfl

theorem TokenKind.feed_not_mem_spelling (kind : TokenKind) : '\n' ∉ kind.spelling.toList := by
  cases kind <;> decide

/-- An operator is read to its end and no further. -/
theorem TokenKind.extend_append (kind : TokenKind) (cs : List Char) {rest : List Char}
    (gap : Layout.Gap rest) :
    kind.extend (cs ++ rest) = ((kind.extend cs).1, (kind.extend cs).2 ++ rest) := by
  induction cs generalizing kind with
  | nil =>
    cases rest with
    | nil => rfl
    | cons c rest =>
      simp only [List.nil_append, extend, extend?_of_isBlank kind (gap c rfl)]
  | cons c cs ih =>
    simp only [List.cons_append, extend]
    split
    · exact ih _
    · rfl

/-! ### Reading a word -/

theorem not_isDigit_of_startsWord {c : Char} (h : Lexeme.startsWord c = true) :
    c.isDigit = false := by
  simp only [Lexeme.startsWord, Bool.or_eq_true, decide_eq_true_eq] at h
  rcases h with letter | rfl
  · have range : (decide ('A'.val ≤ c.val ∧ c.val ≤ 'Z'.val) ||
        (decide ('a'.val ≤ c.val) && decide (c.val ≤ 'z'.val))) = true := letter
    simp only [Bool.or_eq_true, Bool.and_eq_true, decide_eq_true_eq,
      UInt32.le_iff_toNat_le] at range
    simp only [Char.isDigit, Bool.and_eq_false_iff, decide_eq_false_iff_not, ge_iff_le,
      UInt32.le_iff_toNat_le]
    simp at range ⊢
    omega
  · decide

namespace Lexeme

/-- A name or a keyword is read to its end and no further. -/
theorem read_append_of_startsWord {c : Char} {cs rest : List Char} (first : startsWord c = true)
    (run : cs.all continuesWord = true) (gap : Layout.Gap rest) :
    read c (cs ++ rest) =
      ⟨(TokenKind.ofReserved? (String.ofList (c :: cs))).getD .identifier, String.ofList (c :: cs),
        none, c :: cs, rest⟩ := by
  have quote : c ≠ '"' := by
    rintro rfl
    exact absurd first (by decide)
  obtain ⟨taken, dropped⟩ :=
    takeWhile_append_gap run gap fun c => not_continuesWord_of_isBlank
  rw [read, if_neg quote, not_isDigit_of_startsWord first, if_neg (by decide), if_pos first, word,
    taken, dropped]

/-- A number is read to its end and no further. -/
theorem read_append_of_isDigit {c : Char} {cs rest : List Char} (first : c.isDigit = true)
    (run : cs.all continuesNumber = true) (gap : Layout.Gap rest) :
    read c (cs ++ rest) =
      let text := String.ofList (c :: cs)
      match cs.count '.' with
      | 0 => ⟨.integer, text, none, c :: cs, rest⟩
      | 1 => ⟨.float, text, none, c :: cs, rest⟩
      | _ => ⟨.illegal, text, some (.malformedNumber text), c :: cs, rest⟩ := by
  have quote : c ≠ '"' := by
    rintro rfl
    exact absurd first (by decide)
  have point : c ≠ '.' := by
    rintro rfl
    exact absurd first (by decide)
  obtain ⟨taken, dropped⟩ :=
    takeWhile_append_gap run gap fun c => not_continuesNumber_of_isBlank
  rewrite [read, if_neg quote, if_pos first, number, taken, dropped, List.count_cons_of_ne point]
  rfl

/-- A string literal is read to its quote. -/
theorem string_append {cs : List Char} (rest : List Char) (closed : cs.contains '"' = false) :
    string (cs ++ '"' :: rest) =
      ⟨.string, String.ofList cs, none, '"' :: cs ++ ['"'], rest⟩ := by
  have run : ∀ c ∈ cs, decide (c ≠ '"') = true := by
    intro c mem
    have other : c ≠ '"' := by
      rintro rfl
      simp [mem] at closed
    simpa using other
  rw [string, List.takeWhile_append_of_pos run, List.dropWhile_append_of_pos run]
  simp

/-- A punctuator or operator is read to its end and no further. -/
theorem read_append_of_ofChar? {c : Char} {cs rest : List Char} {first kind : TokenKind}
    (quote : c ≠ '"') (digit : c.isDigit = false) (letter : startsWord c = false)
    (comment : cs.head? ≠ some '*') (starts : TokenKind.ofChar? c = some first)
    (longest : first.extend cs = (kind, [])) (gap : Layout.Gap rest) :
    read c (cs ++ rest) = ⟨kind, kind.spelling, none, kind.spelling.toList, rest⟩ := by
  have noComment : ¬ (c = '/' ∧ (cs ++ rest).head? = some '*') := by
    rintro ⟨-, star⟩
    cases cs with
    | cons d cs => exact comment star
    | nil => exact absurd (gap '*' star) (by decide)
  rw [read, if_neg quote, digit, if_neg (by decide), letter, if_neg (by decide), if_neg noComment,
    starts]
  simp only [operator, TokenKind.extend_append first cs gap, longest, List.nil_append]

end Lexeme

/-- Where no layout starts, none is skipped. -/
theorem Layout.skip_of_not_layout {c : Char} {cs : List Char} (line : UInt32)
    (blank : Layout.isBlank c = false)
    (comment : c = '/' → cs.head? ≠ some '/' ∧ cs.head? ≠ some '*') :
    Layout.skip line (c :: cs) = (line, c :: cs) := by
  rw [skip.eq_def]
  split <;> simp_all

/-! ### Words that are always spelled the same way -/

namespace TokenKind

/-- The spelling is a reserved word. -/
def spellsWord (kind : TokenKind) : Bool :=
  match kind.spelling.toList with
  | [] => false
  | c :: cs =>
    Lexeme.startsWord c && cs.all Lexeme.continuesWord && ofReserved? kind.spelling == some kind

/-- The spelling is the longest operator that starts as it does. -/
def spellsOperator (kind : TokenKind) : Bool :=
  match kind.spelling.toList with
  | [] => false
  | c :: cs =>
    c != '"' && !c.isDigit && !Lexeme.startsWord c && !Layout.isBlank c &&
      cs.head? != some '*' && cs.head? != some '/' &&
      (ofChar? c).map (·.extend cs) == some (kind, [])

theorem spells_of_symbol? (kind : TokenKind) (h : kind.symbol?.isSome = true) :
    kind.spellsWord = true ∨ kind.spellsOperator = true := by
  revert h
  cases kind <;> decide

end TokenKind

namespace Word

/-- The first character of a word starts it, and the word is read from there. -/
def ReadBack (w : Word) (rest : List Char) : Prop :=
  ∃ c cs, w.source = c :: cs ∧ Layout.isBlank c = false ∧
    (c = '/' → (cs ++ rest).head? ≠ some '/' ∧ (cs ++ rest).head? ≠ some '*') ∧
    Lexeme.read c (cs ++ rest) = ⟨w.kind, w.text, none, w.source, rest⟩

theorem readBack_of_startsWord {kind : TokenKind} {c : Char} {cs rest : List Char} {text : String}
    (chars : text.toList = c :: cs) (first : Lexeme.startsWord c = true)
    (run : cs.all Lexeme.continuesWord = true) (gap : Layout.Gap rest) (notString : kind ≠ .string)
    (reserved : (TokenKind.ofReserved? text).getD .identifier = kind) :
    ReadBack ⟨kind, text⟩ rest := by
  have source : source ⟨kind, text⟩ = c :: cs := by
    unfold Word.source
    split
    · contradiction
    · exact chars
  have whole : String.ofList (c :: cs) = text := by
    rw [← chars, String.ofList_toList]
  refine ⟨c, cs, source, ?_, ?_, ?_⟩
  · refine not_isBlank_of_continues (fun c => not_continuesWord_of_isBlank) ?_
    simp only [Lexeme.startsWord, Bool.or_eq_true, Lexeme.continuesWord, Char.isAlphanum] at first ⊢
    exact first.imp .inl id
  · rintro rfl
    exact absurd first (by decide)
  · rw [Lexeme.read_append_of_startsWord first run gap, whole, reserved, source]

theorem readBack_of_isDigit {kind : TokenKind} {c : Char} {cs rest : List Char} {text : String}
    (chars : text.toList = c :: cs) (first : c.isDigit = true)
    (run : cs.all Lexeme.continuesNumber = true) (gap : Layout.Gap rest)
    (points : kind = .integer ∧ cs.count '.' = 0 ∨ kind = .float ∧ cs.count '.' = 1) :
    ReadBack ⟨kind, text⟩ rest := by
  have whole : String.ofList (c :: cs) = text := by
    rw [← chars, String.ofList_toList]
  refine ⟨c, cs, ?_, ?_, ?_, ?_⟩
  · rcases points with ⟨rfl, -⟩ | ⟨rfl, -⟩ <;> exact chars
  · refine not_isBlank_of_continues (fun c => not_continuesNumber_of_isBlank) ?_
    simp [Lexeme.continuesNumber, first]
  · rintro rfl
    exact absurd first (by decide)
  · rw [Lexeme.read_append_of_isDigit first run gap]
    rcases points with ⟨rfl, count⟩ | ⟨rfl, count⟩ <;> simp [count, whole, source, chars]

theorem readBack_string {text : String} {rest : List Char}
    (closed : text.toList.contains '"' = false) : ReadBack ⟨.string, text⟩ rest := by
  refine ⟨'"', text.toList ++ ['"'], rfl, by decide, fun slash => absurd slash (by decide), ?_⟩
  rw [Lexeme.read, if_pos rfl, List.append_assoc]
  rw [List.singleton_append, Lexeme.string_append rest closed, String.ofList_toList]
  rfl

theorem readBack_of_spellsOperator {kind : TokenKind} {rest : List Char}
    (spells : kind.spellsOperator = true) (notString : kind ≠ .string) (gap : Layout.Gap rest) :
    ReadBack (symbol kind) rest := by
  unfold TokenKind.spellsOperator at spells
  split at spells
  · cases spells
  · rename_i c cs chars
    simp only [Bool.and_eq_true, bne_iff_ne, ne_eq, Bool.not_eq_true', beq_iff_eq,
      Option.map_eq_some_iff] at spells
    obtain ⟨⟨⟨⟨⟨⟨quote, digit⟩, letter⟩, blank⟩, star⟩, slash⟩, first, starts, longest⟩ := spells
    have source : (symbol kind).source = c :: cs := by
      unfold Word.source
      split
      · contradiction
      · exact chars
    refine ⟨c, cs, source, blank, ?_, ?_⟩
    · rintro -
      cases cs with
      | cons d cs => exact ⟨slash, star⟩
      | nil =>
        constructor
        · exact fun head => absurd (gap '/' head) (by decide)
        · exact fun head => absurd (gap '*' head) (by decide)
    · rw [Lexeme.read_append_of_ofChar? quote digit letter star starts longest gap, source, ← chars]
      rfl

theorem readBack_of_spellsWord {kind : TokenKind} {rest : List Char}
    (spells : kind.spellsWord = true) (notString : kind ≠ .string) (gap : Layout.Gap rest) :
    ReadBack (symbol kind) rest := by
  unfold TokenKind.spellsWord at spells
  split at spells
  · cases spells
  · rename_i c cs chars
    simp only [Bool.and_eq_true, beq_iff_eq] at spells
    obtain ⟨⟨first, run⟩, reserved⟩ := spells
    exact readBack_of_startsWord chars first run gap notString (by rw [reserved]; rfl)

theorem exists_of_isNumber {points : Nat} {text : String} (h : isNumber points text = true) :
    ∃ c cs, text.toList = c :: cs ∧ c.isDigit = true ∧ cs.all Lexeme.continuesNumber = true ∧
      cs.count '.' = points := by
  unfold isNumber at h
  split at h
  · cases h
  · rename_i c cs chars
    simp only [Bool.and_eq_true, beq_iff_eq] at h
    exact ⟨c, cs, chars, h.1.1, h.1.2, h.2⟩

/-- **A word is read back** where a blank or nothing follows it. -/
theorem readBack {w : Word} (spelled : w.isSpelled = true) {rest : List Char}
    (gap : Layout.Gap rest) : w.ReadBack rest := by
  obtain ⟨kind, text⟩ := w
  unfold isSpelled at spelled
  split at spelled <;> rename_i isKind
  · obtain rfl : kind = _ := isKind
    unfold isName at spelled
    split at spelled
    · cases spelled
    · rename_i c cs chars
      simp only [Bool.and_eq_true, Option.isNone_iff_eq_none] at spelled
      obtain ⟨⟨first, run⟩, free⟩ := spelled
      exact readBack_of_startsWord chars first run gap (by decide) (by rw [free]; rfl)
  · obtain rfl : kind = _ := isKind
    obtain ⟨c, cs, chars, first, run, points⟩ := exists_of_isNumber spelled
    exact readBack_of_isDigit chars first run gap (.inl ⟨rfl, points⟩)
  · obtain rfl : kind = _ := isKind
    obtain ⟨c, cs, chars, first, run, points⟩ := exists_of_isNumber spelled
    exact readBack_of_isDigit chars first run gap (.inr ⟨rfl, points⟩)
  · obtain rfl : kind = _ := isKind
    exact readBack_string (by simpa using spelled)
  · have found : kind.symbol? = some text := by simpa using spelled
    have notString : kind ≠ .string := by
      rintro rfl
      cases found
    obtain rfl : kind.spelling = text := by simp [TokenKind.spelling, found]
    rcases kind.spells_of_symbol? (by simp [found]) with spells | spells
    · exact readBack_of_spellsWord spells notString gap
    · exact readBack_of_spellsOperator spells notString gap

/-- The token at the start of a word. -/
theorem read?_source {w : Word} (spelled : w.isSpelled = true) (line : UInt32) {rest : List Char}
    (gap : Layout.Gap rest) :
    (⟨line, w.source ++ rest⟩ : Cursor).read? =
      some (⟨⟨w.kind, w.text, line⟩, none⟩, ⟨Layout.lineAfter line w.source, rest⟩) := by
  obtain ⟨c, cs, source, blank, comment, read⟩ := readBack spelled gap
  have skipped : Layout.skip line (w.source ++ rest) = (line, c :: (cs ++ rest)) := by
    rw [source]
    exact Layout.skip_of_not_layout line blank comment
  simp only [Cursor.read?, Cursor.skipLayout, skipped, read]

/-! ### Words with spaces between them -/

theorem read?_space (line : UInt32) (text : List Char) :
    (⟨line, ' ' :: text⟩ : Cursor).read? = (⟨line, text⟩ : Cursor).read? := by
  have skipped : Layout.skip line (' ' :: text) = Layout.skip line text := by
    rw [Layout.skip]
    · rfl
    · simp
    · simp
  simp only [Cursor.read?, Cursor.skipLayout, skipped]

theorem scanned_nil (line : UInt32) : ((⟨line, []⟩ : Cursor).scan #[]).scanned = [] := by
  apply Cursor.scanned_scan_of_none
  simp [Cursor.read?, Cursor.skipLayout, Layout.skip]

theorem scanned_space (line : UInt32) (text : List Char) :
    ((⟨line, ' ' :: text⟩ : Cursor).scan #[]).scanned =
      ((⟨line, text⟩ : Cursor).scan #[]).scanned := by
  cases next : (⟨line, text⟩ : Cursor).read? with
  | none =>
    rw [Cursor.scanned_scan_of_none next,
      Cursor.scanned_scan_of_none ((read?_space line text).trans next)]
  | some r =>
    rw [Cursor.scanned_scan_of_some next,
      Cursor.scanned_scan_of_some ((read?_space line text).trans next)]

/-- The tokens are the given words, and nothing is wrong with their texts. -/
structure Of (scanned : List Scanned) (ws : List Word) : Prop where
  words_eq : scanned.map (·.token.word) = ws
  clean : ∀ s ∈ scanned, s.fault? = none

theorem of_nil : Of [] [] :=
  ⟨rfl, by simp⟩

theorem Of.cons {s : Scanned} {scanned : List Scanned} {ws : List Word} (h : Of scanned ws)
    (clean : s.fault? = none) : Of (s :: scanned) (s.token.word :: ws) := by
  refine ⟨congrArg (s.token.word :: ·) h.words_eq, ?_⟩
  rintro s (_ | ⟨_, mem⟩)
  · exact clean
  · exact h.clean s mem

/-- **Words with spaces between them scan to these words.** -/
theorem scanned_join : ∀ (ws : List Word) (line : UInt32), ws.all isSpelled = true →
    Of ((⟨line, join ws⟩ : Cursor).scan #[]).scanned ws
  | [], line, _ => by
    rw [join, scanned_nil]
    exact of_nil
  | [w], line, spelled => by
    have read := read?_source (List.all_eq_true.1 spelled w (by simp)) line Layout.gap_nil
    rw [List.append_nil] at read
    rw [join, Cursor.scanned_scan_of_some read, scanned_nil]
    exact of_nil.cons rfl
  | w :: w' :: ws, line, spelled => by
    obtain ⟨first, others⟩ := Bool.and_eq_true_iff.1 spelled
    have read := read?_source first line (Layout.gap_space (join (w' :: ws)))
    rw [join, Cursor.scanned_scan_of_some read, scanned_space]
    · exact (scanned_join (w' :: ws) _ others).cons rfl
    · simp

end Word
end Viper
