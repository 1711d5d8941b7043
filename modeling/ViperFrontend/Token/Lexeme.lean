/-
# Lexemes

A lexeme is what is read at the first character that is no layout: the characters that
make it up and the kind, text and fault of the token they are. Words, numbers and
operators are read as far as they go; a string literal ends at the next quote, and a
character that starts nothing is a lexeme of its own.

Key definitions: `Lexeme`, `Lexeme.read`.
Key theorems: `Lexeme.source_append_rest`, `Lexeme.length_rest_read`.
-/
import ViperFrontend.Diagnostic.Basic

namespace Viper

/-- The kind of a one-character punctuator or operator. -/
def TokenKind.ofChar? : Char → Option TokenKind
  | ';' => some .semicolon
  | '(' => some .openParen
  | ')' => some .closeParen
  | '{' => some .openCurly
  | '}' => some .closeCurly
  | '[' => some .openBracket
  | ']' => some .closeBracket
  | ',' => some .comma
  | '.' => some .dot
  | ':' => some .colon
  | '=' => some .assignment
  | '!' => some .bang
  | '<' => some .less
  | '>' => some .greater
  | '+' => some .plus
  | '-' => some .dash
  | '*' => some .star
  | '/' => some .slash
  | '%' => some .percent
  | '&' => some .ampersand
  | '|' => some .pipe
  | '^' => some .caret
  | '~' => some .tilde
  | _ => none

/-- The kind of the operator with one more character at its end. -/
def TokenKind.extend? : TokenKind → Char → Option TokenKind
  | .colon, ':' => some .doubleColon
  | .assignment, '=' => some .equals
  | .bang, '=' => some .notEquals
  | .less, '=' => some .lessEquals
  | .less, '<' => some .leftShift
  | .leftShift, '=' => some .leftShiftEquals
  | .greater, '=' => some .greaterEquals
  | .greater, '>' => some .rightShift
  | .rightShift, '=' => some .rightShiftEquals
  | .plus, '=' => some .plusEquals
  | .dash, '=' => some .minusEquals
  | .star, '=' => some .starEquals
  | .slash, '=' => some .slashEquals
  | .percent, '=' => some .percentEquals
  | .ampersand, '=' => some .andEquals
  | .ampersand, '&' => some .and
  | .pipe, '=' => some .orEquals
  | .pipe, '|' => some .or
  | .caret, '=' => some .xorEquals
  | .tilde, '=' => some .tildeEquals
  | _, _ => none

/-- The longest operator that starts as `kind` does, and the text after it. -/
def TokenKind.extend (kind : TokenKind) : List Char → TokenKind × List Char
  | [] => (kind, [])
  | c :: cs =>
    match kind.extend? c with
    | some longer => longer.extend cs
    | none => (kind, c :: cs)

/-- A token's characters, what they are, and the text after them. -/
structure Lexeme where
  kind : TokenKind
  text : String
  fault? : Option LexicalFault
  source : List Char
  rest : List Char

namespace Lexeme

/-- A letter or an underscore. -/
def startsWord (c : Char) : Bool :=
  c.isAlpha || c = '_'

/-- A letter, a digit or an underscore. -/
def continuesWord (c : Char) : Bool :=
  c.isAlphanum || c = '_'

/-- A digit or a point. -/
def continuesNumber (c : Char) : Bool :=
  c.isDigit || c = '.'

/-- A keyword if the word is reserved, and an identifier otherwise. -/
def word (c : Char) (cs : List Char) : Lexeme :=
  let source := c :: cs.takeWhile continuesWord
  let text := String.ofList source
  { kind := (TokenKind.ofReserved? text).getD .identifier
    text, fault? := none, source
    rest := cs.dropWhile continuesWord }

/-- An integer without a point and a float with one; with more it is malformed. -/
def number (c : Char) (cs : List Char) : Lexeme :=
  let source := c :: cs.takeWhile continuesNumber
  let text := String.ofList source
  let rest := cs.dropWhile continuesNumber
  match source.count '.' with
  | 0 => { kind := .integer, text, fault? := none, source, rest }
  | 1 => { kind := .float, text, fault? := none, source, rest }
  | _ => { kind := .illegal, text, fault? := some (.malformedNumber text), source, rest }

/-- The string literal whose content starts with `cs`. -/
def string (cs : List Char) : Lexeme :=
  let content := cs.takeWhile (· ≠ '"')
  let text := String.ofList content
  match cs.dropWhile (· ≠ '"') with
  | [] =>
    { kind := .illegal, text, fault? := some .unterminatedString
      source := '"' :: content, rest := [] }
  | quote :: rest =>
    { kind := .string, text, fault? := none, source := '"' :: content ++ [quote], rest }

/-- A block comment that does not end takes the rest of the text. -/
def openComment (cs : List Char) : Lexeme :=
  { kind := .illegal, text := "/*", fault? := some .unterminatedComment
    source := '/' :: cs, rest := [] }

/-- The longest punctuator or operator that starts with the one of kind `first`. -/
def operator (first : TokenKind) (cs : List Char) : Lexeme :=
  let longest := first.extend cs
  { kind := longest.1, text := longest.1.spelling, fault? := none
    source := longest.1.spelling.toList, rest := longest.2 }

/-- A character that starts no token. -/
def illegal (c : Char) (cs : List Char) : Lexeme :=
  { kind := .illegal, text := String.ofList [c], fault? := some (.illegalCharacter c)
    source := [c], rest := cs }

/-- The lexeme at the start of a text. The first character is no layout. -/
def read (c : Char) (cs : List Char) : Lexeme :=
  if c = '"' then string cs
  else if c.isDigit then number c cs
  else if startsWord c then word c cs
  else if c = '/' ∧ cs.head? = some '*' then openComment cs
  else
    match TokenKind.ofChar? c with
    | some first => operator first cs
    | none => illegal c cs

end Lexeme

theorem TokenKind.length_extend_le (kind : TokenKind) (cs : List Char) :
    (kind.extend cs).2.length ≤ cs.length := by
  induction cs generalizing kind with
  | nil => exact Nat.le_refl 0
  | cons c cs ih =>
    rw [TokenKind.extend]
    split
    · exact Nat.le_succ_of_le (ih _)
    · exact Nat.le_refl _

theorem TokenKind.spelling_ofChar? {c : Char} {kind : TokenKind}
    (h : TokenKind.ofChar? c = some kind) : kind.spelling.toList = [c] := by
  unfold TokenKind.ofChar? at h
  split at h <;> cases h <;> decide

theorem TokenKind.spelling_extend? {kind longer : TokenKind} {c : Char}
    (h : kind.extend? c = some longer) :
    longer.spelling.toList = kind.spelling.toList ++ [c] := by
  unfold TokenKind.extend? at h
  split at h <;> cases h <;> decide

/-- An operator takes the characters of its spelling. -/
theorem TokenKind.spelling_extend (kind : TokenKind) (cs : List Char) :
    (kind.extend cs).1.spelling.toList ++ (kind.extend cs).2 = kind.spelling.toList ++ cs := by
  induction cs generalizing kind with
  | nil => rfl
  | cons c cs ih =>
    rw [TokenKind.extend]
    split
    · rename_i longer h
      rw [ih, TokenKind.spelling_extend? h, List.append_assoc]
      rfl
    · rfl

namespace Lexeme

/-- **Nothing is lost**: the characters of a lexeme and the text after it are the text. -/
theorem source_append_rest (c : Char) (cs : List Char) :
    (read c cs).source ++ (read c cs).rest = c :: cs := by
  unfold read
  split
  · rename_i quote
    have split_at := List.takeWhile_append_dropWhile (p := fun d => decide (d ≠ '"')) (l := cs)
    unfold string
    dsimp only
    split
    · rename_i none
      rw [none, List.append_nil] at split_at
      rw [split_at, quote, List.append_nil]
    · rename_i d rest some
      rw [some] at split_at
      simpa [quote] using split_at
  · split
    · unfold number
      dsimp only
      split <;> simp
    · split
      · simp [word]
      · split
        · simp_all [openComment]
        · split
          · rename_i first h
            show (first.extend cs).1.spelling.toList ++ (first.extend cs).2 = c :: cs
            rw [TokenKind.spelling_extend, TokenKind.spelling_ofChar? h]
            rfl
          · rfl

/-- A lexeme takes at least its first character. -/
theorem length_rest_read (c : Char) (cs : List Char) :
    (read c cs).rest.length ≤ cs.length := by
  have drop : ∀ p : Char → Bool, (cs.dropWhile p).length ≤ cs.length :=
    fun p => (List.dropWhile_suffix p).length_le
  unfold read
  split
  · unfold string
    have := drop (fun d => decide (d ≠ '"'))
    split
    · exact Nat.zero_le _
    · simp_all only [List.length_cons]
      omega
  · split
    · unfold number
      dsimp only
      split <;> exact drop _
    · split
      · exact drop _
      · split
        · exact Nat.zero_le _
        · split
          · exact TokenKind.length_extend_le _ _
          · exact Nat.le_refl _

end Lexeme
end Viper
