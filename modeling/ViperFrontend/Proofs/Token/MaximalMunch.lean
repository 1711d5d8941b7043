/-
# The longest token

Operators, words and numbers are read as far as they go. Of all texts of this form
(`Lexeme.Regular`) with which the rest of a source starts, the token that is read there has the
longest, and it has the kind of that text (`Lexeme.Longest`). A string literal ends at the next
quote, and any other character is a token of its own (`Lexeme.Munches`). This is so at every place
at which a token starts, whatever was read before (`Lexer.next_munches`); a comment that does not
end is no such place.

For words and numbers a run of characters is the longest by what a run is. Operators grow
character by character, and each operator is on the way to the longer ones that start with it
(`TokenKind.extend_of_spelled`).

Key definitions: `Lexeme.Regular`, `Lexeme.Longest`, `Lexeme.Munches`.
Key theorems: `Lexeme.Regular.kind_unique`, `Lexeme.longest_read`, `Lexer.next_munches`.
-/
import Mathlib.Data.List.TakeWhile
import ViperFrontend.Proofs.Token.Factoring

namespace Viper

/-! ### Operators -/

namespace TokenKind

/-- An operator or punctuator: spelled in one way only, and no keyword. -/
def isOperator (kind : TokenKind) : Bool :=
  kind.symbol?.isSome && !kind.isKeyword

theorem isOperator_of_ofChar? {c : Char} {kind : TokenKind} (h : ofChar? c = some kind) :
    kind.isOperator = true := by
  unfold ofChar? at h
  split at h <;> cases h <;> decide

theorem isOperator_of_extend? {kind longer : TokenKind} {c : Char}
    (h : kind.extend? c = some longer) : longer.isOperator = true := by
  unfold extend? at h
  split at h <;> cases h <;> decide

theorem isOperator_extend {kind : TokenKind} (cs : List Char) (h : kind.isOperator = true) :
    (kind.extend cs).1.isOperator = true := by
  induction cs generalizing kind with
  | nil => exact h
  | cons c cs ih =>
    rw [extend]
    split
    · rename_i longer step
      exact ih (isOperator_of_extend? step)
    · exact h

/-- Each operator grows from its first character to its end. -/
theorem spellsOperator_of_isOperator {kind : TokenKind} (h : kind.isOperator = true) :
    kind.spellsOperator = true := by
  revert h
  cases kind <;> decide

theorem spellsWord_of_isKeyword {kind : TokenKind} (h : kind.isKeyword = true) :
    kind.spellsWord = true := by
  revert h
  cases kind <;> decide

/-- What follows an operator extends it further. -/
theorem extend_of_spelled {first kind : TokenKind} {cs : List Char} (more : List Char)
    (spelled : first.extend cs = (kind, [])) : first.extend (cs ++ more) = kind.extend more := by
  induction cs generalizing first with
  | nil =>
    obtain rfl : first = kind := congrArg Prod.fst spelled
    rfl
  | cons c cs ih =>
    rw [List.cons_append, extend]
    rw [extend] at spelled
    split at spelled
    · exact ih spelled
    · cases spelled

theorem length_spelling_le_extend (kind : TokenKind) (cs : List Char) :
    kind.spelling.toList.length ≤ (kind.extend cs).1.spelling.toList.length := by
  have whole := congrArg List.length (spelling_extend kind cs)
  have fewer := length_extend_le kind cs
  rw [List.length_append, List.length_append] at whole
  omega

/-- The kind of a number with some count of points. -/
def ofPoints : Nat → TokenKind
  | 0 => .integer
  | 1 => .float
  | _ => .illegal

end TokenKind

/-! ### Operators, words and numbers -/

namespace Lexeme

/-- The characters of an operator, of a word or of a number, and the kind of token they are. -/
inductive Regular : List Char → TokenKind → Prop
  | operator {kind : TokenKind} (h : kind.isOperator = true) : Regular kind.spelling.toList kind
  | keyword {kind : TokenKind} (h : kind.isKeyword = true) : Regular kind.spelling.toList kind
  | name {c : Char} {cs : List Char} (first : startsWord c = true)
      (run : cs.all continuesWord = true)
      (free : ∀ kind : TokenKind, kind.isKeyword = true → kind.spelling.toList ≠ c :: cs) :
      Regular (c :: cs) .identifier
  | number {c : Char} {cs : List Char} (first : c.isDigit = true)
      (run : cs.all continuesNumber = true) :
      Regular (c :: cs) (.ofPoints ((c :: cs).count '.'))

/-- The character that an operator, a word or a number starts with. -/
def StartsRegular (c : Char) : Prop :=
  c.isDigit = true ∨ startsWord c = true ∨
    ∃ kind : TokenKind, kind.isOperator = true ∧ kind.spelling.toList.head? = some c

/-- The text starts with the token, which is an operator, a word or a number, and with none that is
longer. -/
structure Longest (text : List Char) (token : Token) (rest : List Char) : Prop where
  whole : token.text.toList ++ rest = text
  kind_iff : ∀ kind, Regular token.text.toList kind ↔ token.kind = kind
  longest : ∀ word kind, word <+: text → Regular word kind →
    word.length ≤ token.text.toList.length

/-- What is read at the start of a text, and what is left behind it. -/
structure Munches (c : Char) (cs : List Char) (token : Token) (rest : List Char) : Prop where
  /-- an operator, a word or a number -/
  regular : StartsRegular c → Longest (c :: cs) token rest
  /-- a string literal, to the next quote -/
  closed : c = '"' → ∀ content after, cs = content ++ '"' :: after → '"' ∉ content →
    token.kind = .string ∧ token.text.toList = content ∧ rest = after
  /-- a string literal that does not end -/
  opened : c = '"' → '"' ∉ cs → token.kind = .illegal ∧ token.text.toList = cs ∧ rest = []
  /-- any other character -/
  stray : ¬ StartsRegular c → c ≠ '"' →
    token.kind = .illegal ∧ token.text.toList = [c] ∧ rest = cs

/-- How an operator, a word or a number goes on behind its first character, and what kind it is. -/
inductive Shape (c : Char) (cs : List Char) (kind : TokenKind) : Prop
  | number (first : c.isDigit = true) (run : cs.all continuesNumber = true)
      (points : kind = .ofPoints ((c :: cs).count '.'))
  | word (first : startsWord c = true) (run : cs.all continuesWord = true)
      (reserved : kind = (TokenKind.ofReserved? (String.ofList (c :: cs))).getD .identifier)
  | operator (digit : c.isDigit = false) (letter : startsWord c = false) (first : TokenKind)
      (starts : TokenKind.ofChar? c = some first) (grows : first.extend cs = (kind, []))

theorem ofReserved?_eq_none_iff {text : String} :
    TokenKind.ofReserved? text = none ↔
      ∀ kind : TokenKind, kind.isKeyword = true → kind.spelling ≠ text := by
  rw [TokenKind.ofReserved?, List.find?_eq_none]
  have spelled : ∀ kind ∈ TokenKind.keywords, kind.symbol? = some kind.spelling := by decide
  constructor
  · intro none kind keyword same
    have mem : kind ∈ TokenKind.keywords := List.contains_iff_mem.1 keyword
    refine none kind mem ?_
    rw [spelled kind mem, same, beq_self_eq_true]
  · intro free kind mem same
    have found := (spelled kind mem).symm.trans (beq_iff_eq.1 same)
    exact free kind (List.contains_iff_mem.2 mem) (Option.some.inj found)

theorem isKeyword_of_ofReserved? {text : String} {kind : TokenKind}
    (found : TokenKind.ofReserved? text = some kind) :
    kind.isKeyword = true ∧ kind.spelling = text := by
  have mem := List.mem_of_find?_eq_some found
  have same := List.find?_some found
  refine ⟨List.contains_iff_mem.2 mem, ?_⟩
  rw [TokenKind.spelling, beq_iff_eq.1 same, Option.getD_some]

theorem Regular.exists_shape {text : List Char} {kind : TokenKind} (h : Regular text kind) :
    ∃ c cs, text = c :: cs ∧ Shape c cs kind := by
  cases h with
  | operator isOperator =>
    have grows := TokenKind.spellsOperator_of_isOperator isOperator
    unfold TokenKind.spellsOperator at grows
    split at grows
    · cases grows
    · rename_i c cs chars
      simp only [Bool.and_eq_true, Bool.not_eq_true', beq_iff_eq, Option.map_eq_some_iff] at grows
      obtain ⟨⟨⟨⟨⟨⟨-, digit⟩, letter⟩, -⟩, -⟩, -⟩, first, starts, grows⟩ := grows
      exact ⟨c, cs, chars, .operator digit letter first starts grows⟩
  | keyword isKeyword =>
    have spells := TokenKind.spellsWord_of_isKeyword isKeyword
    unfold TokenKind.spellsWord at spells
    split at spells
    · cases spells
    · rename_i c cs chars
      simp only [Bool.and_eq_true, beq_iff_eq] at spells
      obtain ⟨⟨first, run⟩, reserved⟩ := spells
      refine ⟨c, cs, chars, .word first run ?_⟩
      rw [← chars, String.ofList_toList, reserved, Option.getD_some]
  | @name c cs first run free =>
    refine ⟨c, cs, rfl, .word first run ?_⟩
    have notReserved : TokenKind.ofReserved? (String.ofList (c :: cs)) = none := by
      refine ofReserved?_eq_none_iff.2 fun kind keyword same => free kind keyword ?_
      rw [same, String.toList_ofList]
    rw [notReserved, Option.getD_none]
  | @number c cs first run => exact ⟨c, cs, rfl, .number first run rfl⟩

/-! ### What is read -/

theorem read_of_isDigit {c : Char} (cs : List Char) (digit : c.isDigit = true) :
    read c cs = number c cs := by
  have quote : c ≠ '"' := fun same => absurd (same ▸ digit) (by decide)
  rw [read, if_neg quote, if_pos digit]

theorem read_of_startsWord {c : Char} (cs : List Char) (letter : startsWord c = true) :
    read c cs = word c cs := by
  have quote : c ≠ '"' := fun same => absurd (same ▸ letter) (by decide)
  rw [read, if_neg quote, not_isDigit_of_startsWord letter, if_neg (by decide), if_pos letter]

theorem read_of_ofChar? {c : Char} {cs : List Char} {first : TokenKind} (digit : c.isDigit = false)
    (letter : startsWord c = false) (starts : TokenKind.ofChar? c = some first)
    (comment : ¬ ['/', '*'] <+: c :: cs) : read c cs = operator first cs := by
  have quote : c ≠ '"' := by
    rintro rfl
    cases starts
  have noComment : ¬ (c = '/' ∧ cs.head? = some '*') := comment ∘ Layout.pair_prefix_cons.2
  rw [read, if_neg quote, digit, if_neg (by decide), letter, if_neg (by decide), if_neg noComment,
    starts]

theorem number_eq (c : Char) (cs : List Char) :
    let source := c :: cs.takeWhile continuesNumber
    (number c cs).kind = .ofPoints (source.count '.') ∧ (number c cs).text = String.ofList source ∧
      (number c cs).source = source := by
  unfold number
  dsimp only
  split <;> rename_i points
  · simp [points, TokenKind.ofPoints]
  · simp [points, TokenKind.ofPoints]
  · rename_i notNone notOne
    refine ⟨?_, rfl, rfl⟩
    unfold TokenKind.ofPoints
    split
    · contradiction
    · contradiction
    · rfl

/-- No operator starts like a block comment. -/
theorem Shape.not_comment {c : Char} {cs : List Char} {kind : TokenKind} (h : Shape c cs kind) :
    ¬ ['/', '*'] <+: c :: cs := by
  intro opens
  obtain ⟨rfl, head⟩ := Layout.pair_prefix_cons.1 opens
  rcases h with ⟨digit, -, -⟩ | ⟨letter, -, -⟩ | ⟨-, -, first, starts, grows⟩
  · exact absurd digit (by decide)
  · exact absurd letter (by decide)
  · obtain rfl : TokenKind.slash = first := Option.some.inj starts
    cases cs with
    | nil => cases head
    | cons d cs =>
      obtain rfl : d = '*' := Option.some.inj head
      cases grows

/-- A text of some kind is read as one of this kind. -/
theorem Shape.kind_read {c : Char} {cs : List Char} {kind : TokenKind} (h : Shape c cs kind) :
    (read c cs).kind = kind := by
  have comment := h.not_comment
  rcases h with ⟨digit, run, points⟩ | ⟨letter, run, reserved⟩ | ⟨digit, letter, first, starts, grows⟩
  · have taken : cs.takeWhile continuesNumber = cs := List.takeWhile_eq_self_iff.2 (List.all_eq_true.1 run)
    rw [read_of_isDigit cs digit, (number_eq c cs).1, taken, points]
  · have taken : cs.takeWhile continuesWord = cs := List.takeWhile_eq_self_iff.2 (List.all_eq_true.1 run)
    rw [read_of_startsWord cs letter, Lexeme.word, taken, reserved]
  · rw [read_of_ofChar? digit letter starts comment, Lexeme.operator, grows]

/-- A text is of one kind only. -/
theorem Regular.kind_unique {text : List Char} {kind other : TokenKind} (h : Regular text kind)
    (too : Regular text other) : kind = other := by
  obtain ⟨c, cs, rfl, shape⟩ := h.exists_shape
  obtain ⟨d, ds, same, shapeToo⟩ := too.exists_shape
  obtain ⟨rfl, rfl⟩ := List.cons.inj same
  exact shape.kind_read.symm.trans shapeToo.kind_read

/-- What is read is no shorter than an operator, a word or a number that the text starts with. -/
theorem Shape.length_le {c : Char} {cs more : List Char} {kind : TokenKind} (h : Shape c cs kind)
    (comment : ¬ ['/', '*'] <+: c :: (cs ++ more)) :
    (c :: cs).length ≤ (read c (cs ++ more)).source.length := by
  rcases h with ⟨digit, run, -⟩ | ⟨letter, run, -⟩ | ⟨digit, letter, first, starts, grows⟩
  · rw [read_of_isDigit _ digit, (number_eq c _).2.2,
      List.takeWhile_append_of_pos (List.all_eq_true.1 run), ← List.cons_append, List.length_append]
    exact Nat.le_add_right _ _
  · rw [read_of_startsWord _ letter, Lexeme.word,
      List.takeWhile_append_of_pos (List.all_eq_true.1 run), ← List.cons_append, List.length_append]
    exact Nat.le_add_right _ _
  · have spelled := TokenKind.spelling_extend first cs
    rw [grows, List.append_nil, TokenKind.spelling_ofChar? starts, List.singleton_append] at spelled
    rw [read_of_ofChar? digit letter starts comment, Lexeme.operator, TokenKind.extend_of_spelled more grows,
      ← spelled]
    exact TokenKind.length_spelling_le_extend kind more

theorem regular_word {c : Char} {cs : List Char} (first : startsWord c = true)
    (run : cs.all continuesWord = true) :
    Regular (c :: cs) ((TokenKind.ofReserved? (String.ofList (c :: cs))).getD .identifier) := by
  cases reserved : TokenKind.ofReserved? (String.ofList (c :: cs)) with
  | none =>
    refine .name first run fun kind keyword same => ofReserved?_eq_none_iff.1 reserved kind keyword ?_
    rw [← same, String.ofList_toList]
  | some kind =>
    obtain ⟨keyword, spelled⟩ := isKeyword_of_ofReserved? reserved
    have chars : kind.spelling.toList = c :: cs := by rw [spelled, String.toList_ofList]
    rw [Option.getD_some, ← chars]
    exact .keyword keyword

theorem StartsRegular.cases {c : Char} (h : StartsRegular c) :
    c.isDigit = true ∨ startsWord c = true ∨
      c.isDigit = false ∧ startsWord c = false ∧ ∃ first, TokenKind.ofChar? c = some first := by
  rcases h with digit | letter | ⟨kind, isOperator, head⟩
  · exact .inl digit
  · exact .inr (.inl letter)
  · obtain ⟨d, cs, chars, shape⟩ := (Regular.operator isOperator).exists_shape
    obtain rfl : d = c := Option.some.inj (by rw [← head, chars, List.head?_cons])
    rcases shape with ⟨digit, -, -⟩ | ⟨letter, -, -⟩ | ⟨digit, letter, first, starts, -⟩
    · exact .inl digit
    · exact .inr (.inl letter)
    · exact .inr (.inr ⟨digit, letter, first, starts⟩)

/-- **An operator, a word or a number is read.** -/
theorem regular_read {c : Char} {cs : List Char} (start : StartsRegular c)
    (comment : ¬ ['/', '*'] <+: c :: cs) :
    Regular (read c cs).source (read c cs).kind ∧ (read c cs).text.toList = (read c cs).source := by
  rcases start.cases with digit | letter | ⟨digit, letter, first, starts⟩
  · obtain ⟨kind, text, source⟩ := number_eq c cs
    rw [read_of_isDigit cs digit, kind, text, source, String.toList_ofList]
    exact ⟨.number digit List.all_takeWhile, rfl⟩
  · rw [read_of_startsWord cs letter]
    exact ⟨regular_word letter List.all_takeWhile, String.toList_ofList⟩
  · rw [read_of_ofChar? digit letter starts comment]
    have isOperator := TokenKind.isOperator_extend cs (TokenKind.isOperator_of_ofChar? starts)
    exact ⟨.operator isOperator, rfl⟩

/-- **The longest is read.** -/
theorem longest_read {c : Char} {cs : List Char} (start : StartsRegular c)
    (comment : ¬ ['/', '*'] <+: c :: cs) (line : UInt32) :
    Longest (c :: cs) ((read c cs).scanned line).token (read c cs).rest := by
  obtain ⟨regular, text⟩ := regular_read start comment
  constructor <;> dsimp only [scanned] <;> rw [text]
  · exact source_append_rest c cs
  · exact fun kind => ⟨regular.kind_unique, fun same => same ▸ regular⟩
  · intro word kind starts isRegular
    obtain ⟨d, ds, rfl, shape⟩ := isRegular.exists_shape
    obtain ⟨rfl, more, rfl⟩ := List.cons_prefix_cons.1 starts
    exact shape.length_le comment

theorem munches_read {c : Char} {cs : List Char} (comment : ¬ ['/', '*'] <+: c :: cs)
    (line : UInt32) : Munches c cs ((read c cs).scanned line).token (read c cs).rest where
  regular start := longest_read start comment line
  closed := by
    rintro rfl content after rfl noQuote
    have closed : content.contains '"' = false := by simpa using noQuote
    rw [read, if_pos rfl, string_append after closed]
    exact ⟨rfl, String.toList_ofList, rfl⟩
  opened := by
    rintro rfl noQuote
    have run : ∀ d ∈ cs, decide (d ≠ '"') = true := by
      intro d mem
      simpa using fun same : d = '"' => noQuote (same ▸ mem)
    have taken := List.takeWhile_eq_self_iff.2 run
    have dropped := List.dropWhile_eq_nil_iff.2 run
    rw [read, if_pos rfl, string, taken, dropped]
    exact ⟨rfl, String.toList_ofList, rfl⟩
  stray := by
    intro noStart quote
    have digit : c.isDigit ≠ true := fun digit => noStart (.inl digit)
    have letter : startsWord c ≠ true := fun letter => noStart (.inr (.inl letter))
    have noComment : ¬ (c = '/' ∧ cs.head? = some '*') := comment ∘ Layout.pair_prefix_cons.2
    have none : TokenKind.ofChar? c = none := by
      refine Option.eq_none_iff_forall_ne_some.2 fun first starts => noStart (.inr (.inr ⟨first, ?_⟩))
      refine ⟨TokenKind.isOperator_of_ofChar? starts, ?_⟩
      rw [TokenKind.spelling_ofChar? starts, List.head?_cons]
    rw [read, if_neg quote, if_neg digit, if_neg letter, if_neg noComment, none]
    exact ⟨rfl, String.toList_ofList, rfl⟩

end Lexeme

/-- **Maximal munch.** Where a lexer has passed the layout and stands before a token, no layout starts,
and of the operators, words and numbers there it hands out the longest; a string literal goes to the
next quote, and any other character is a token of its own. A comment that does not end is no such
place. -/
theorem Lexer.next_munches (lexer : Lexer) {c : Char} {cs : List Char}
    (start : lexer.cursor.skipLayout.rest = c :: cs) (comment : ¬ ['/', '*'] <+: c :: cs) :
    Layout.Bare (c :: cs) ∧ Lexeme.Munches c cs lexer.next.1 lexer.next.2.cursor.rest := by
  constructor
  · rcases lexer.cursor.skipLayout_cases with ⟨-, place⟩ | ⟨parts, first, others, -, -, bare, place⟩
    · rw [place] at start
      cases start
    · rw [place] at start
      rwa [← show first :: others = c :: cs from start]
  · rw [next, Cursor.read?_of_cons start]
    exact Lexeme.munches_read comment _

/-- Behind a comment, `>>>=` is a shift and a comparison. -/
theorem Lexer.next_munches_angles :
    let lexer := Lexer.ofSource ⟨"angles.vp", "/* < */ >>>= x"⟩
    (lexer.cursor.skipLayout.rest = '>' :: ">>= x".toList ∧
        ¬ ['/', '*'] <+: '>' :: ">>= x".toList) ∧
      (Layout.Bare ('>' :: ">>= x".toList) ∧
        Lexeme.Munches '>' ">>= x".toList lexer.next.1 lexer.next.2.cursor.rest) ∧
      lexer.next.1 = ⟨.rightShift, ">>", 1⟩ := by
  have start : (Lexer.ofSource ⟨"angles.vp", "/* < */ >>>= x"⟩).cursor.skipLayout.rest =
      '>' :: ">>= x".toList := by decide +kernel
  have comment : ¬ ['/', '*'] <+: '>' :: ">>= x".toList := by decide
  exact ⟨⟨start, comment⟩, next_munches _ start comment, by decide +kernel⟩

end Viper
