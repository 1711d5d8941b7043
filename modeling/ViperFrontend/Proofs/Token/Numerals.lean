/-
# Numerals

What is read at a digit goes on over digits and points, and its kind tells how many of the points there
are: none in an integer literal, one in a float literal, more in a malformed number (`Scanned.Numeral`).
So the text of an integer literal is digits only, of any length and with zeros before them, and the value
of the literal is the number that they are in decimal, provided that it is below 2^64
(`Literal.integer?_eq_some_iff`). A float literal has digits before its point and perhaps behind it, and the
texts of this form are just those that have a value as floats (`Literal.isSome_float?_iff`). So there is no
float literal without a value.

Key definitions: `Literal.IsDigits`, `Literal.IsPointed`, `Scanned.Numeral`.
Key theorems: `Literal.integer?_eq_some_iff`, `Literal.integer?_eq_none_iff`, `Literal.float?_eq_some_iff`,
`Source.numeral_scan`.
-/
import Mathlib.Data.List.TakeWhile
import ViperFrontend.Number.Literal
import ViperFrontend.Proofs.Token.Spelling

namespace Viper

namespace Literal

/-! ### Values -/

theorem decimalValue_eq (digits : List Char) : decimalValue digits = Nat.ofDigitChars 10 digits 0 :=
  Nat.ofDigitChars_eq_foldl.symm

/-- **An integer literal has a value** if the number it is in decimal is below 2^64, and then that one. -/
theorem integer?_eq_some_iff {literal : String} {value : UInt64} :
    integer? literal = some value ↔ Nat.ofDigitChars 10 literal.toList 0 = value.toNat := by
  rw [← decimalValue_eq, integer?]
  have below := value.toNat_lt
  constructor
  · intro given
    split at given
    · rename_i small
      rw [← Option.some.inj given]
      exact (UInt64.toNat_ofNat_of_lt small).symm
    · cases given
  · intro same
    rw [same, if_pos below, UInt64.ofNat_toNat]

theorem integer?_eq_none_iff {literal : String} :
    integer? literal = none ↔ UInt64.size ≤ Nat.ofDigitChars 10 literal.toList 0 := by
  rw [← decimalValue_eq, integer?]
  split
  · rename_i small
    simpa using small
  · rename_i large
    simpa using large

/-! ### Texts -/

/-- A digit at least, and nothing but digits. -/
def IsDigits (digits : List Char) : Prop :=
  digits ≠ [] ∧ ∀ c ∈ digits, c.isDigit = true

/-- Digits, a point and perhaps more digits. -/
def IsPointed (literal : String) : Prop :=
  ∃ whole fraction, IsDigits whole ∧ (∀ c ∈ fraction, c.isDigit = true) ∧
    literal.toList = whole ++ '.' :: fraction

/-- **A float literal has a value** if it is digits, a point and perhaps more digits, and then that of the
quotient. -/
theorem float?_eq_some_iff {literal : String} {value : Binary64} :
    float? literal = some value ↔ ∃ whole fraction, IsDigits whole ∧ (∀ c ∈ fraction, c.isDigit = true) ∧
      literal.toList = whole ++ '.' :: fraction ∧
      value = Binary64.ofRatio (Nat.ofDigitChars 10 (whole ++ fraction) 0) (Nat.pow 10 fraction.length) := by
  unfold float?
  constructor
  · intro given
    dsimp only at given
    split at given
    · rename_i fraction point
      split at given
      · rename_i digits
        have behind : ∀ c ∈ fraction, c.isDigit = true := List.all_eq_true.1 digits.2
        refine ⟨literal.toList.takeWhile Char.isDigit, fraction, ⟨digits.1, fun c mem => ?_⟩, behind, ?_, ?_⟩
        · exact List.mem_takeWhile_imp mem
        · rw [← point, List.takeWhile_append_dropWhile]
        · rw [← decimalValue_eq]
          exact (Option.some.inj given).symm
      · cases given
    · cases given
  · rintro ⟨whole, fraction, ⟨some, digits⟩, behind, text, rfl⟩
    have before : literal.toList.takeWhile Char.isDigit = whole := by
      rw [text, List.takeWhile_append_of_pos digits]
      simp
    have after : literal.toList.dropWhile Char.isDigit = '.' :: fraction := by
      rw [text, List.dropWhile_append_of_pos digits]
      simp
    have all : fraction.all Char.isDigit = true := List.all_eq_true.2 behind
    simp only [before, after, if_pos (And.intro some all), decimalValue_eq]

theorem isSome_float?_iff {literal : String} : (float? literal).isSome = true ↔ IsPointed literal := by
  rw [Option.isSome_iff_exists]
  simp only [float?_eq_some_iff]
  constructor
  · rintro ⟨_, whole, fraction, digits, behind, text, -⟩
    exact ⟨whole, fraction, digits, behind, text⟩
  · rintro ⟨whole, fraction, digits, behind, text⟩
    exact ⟨_, whole, fraction, digits, behind, text, rfl⟩

end Literal

namespace Word

open Literal

variable {points : Nat} {text : String}

theorem isDigit_of_continuesNumber {c : Char} (run : Lexeme.continuesNumber c = true) (other : c ≠ '.') :
    c.isDigit = true := by
  simpa [Lexeme.continuesNumber, other] using run

/-- Without a point a number is digits. -/
theorem isDigits_of_isNumber (h : isNumber 0 text = true) : IsDigits text.toList := by
  obtain ⟨c, cs, chars, first, run, none⟩ := exists_of_isNumber h
  rw [chars]
  refine ⟨List.cons_ne_nil c cs, fun d mem => ?_⟩
  rcases List.mem_cons.1 mem with rfl | behind
  · exact first
  · refine isDigit_of_continuesNumber (List.all_eq_true.1 run d behind) ?_
    rintro rfl
    exact List.count_eq_zero.1 none behind

/-- With one point a number is digits before it and perhaps behind it. -/
theorem isPointed_of_isNumber (h : isNumber 1 text = true) : IsPointed text := by
  obtain ⟨c, cs, chars, first, run, one⟩ := exists_of_isNumber h
  obtain ⟨before, behind, rfl⟩ := List.append_of_mem (List.count_pos_iff.1 (one ▸ Nat.one_pos))
  rw [List.count_append, List.count_cons_self] at one
  have digits : ∀ part : List Char, part.count '.' = 0 → (∀ d ∈ part, d ∈ before ++ '.' :: behind) →
      ∀ d ∈ part, d.isDigit = true := by
    intro part none inside d mem
    refine isDigit_of_continuesNumber (List.all_eq_true.1 run d (inside d mem)) ?_
    rintro rfl
    exact List.count_eq_zero.1 none mem
  refine ⟨c :: before, behind, ⟨List.cons_ne_nil c before, ?_⟩, ?_, by rw [chars]; rfl⟩
  · exact List.forall_mem_cons.2 ⟨first, digits before (by omega) (by simp +contextual)⟩
  · exact digits behind (by omega) (by simp +contextual)

/-- A number is on one line. -/
theorem feed_not_mem_of_isNumber (h : isNumber points text = true) : '\n' ∉ text.toList := by
  obtain ⟨c, cs, chars, first, run, -⟩ := exists_of_isNumber h
  rw [chars]
  intro feed
  rcases List.mem_cons.1 feed with rfl | behind
  · cases first
  · cases List.all_eq_true.1 run _ behind

end Word

/-! ### Scanning -/

/-- The text of a number has as many points as its kind tells. -/
structure Scanned.Numeral (s : Scanned) : Prop where
  integer : s.token.kind = .integer → Word.isNumber 0 s.token.text = true
  float : s.token.kind = .float → Word.isNumber 1 s.token.text = true
  malformed : ∀ literal, s.fault? = some (.malformedNumber literal) →
    ∃ points, Word.isNumber points literal = true

/-- What is no number has nothing to show. -/
theorem Scanned.numeral_of_other {s : Scanned} (notInteger : s.token.kind ≠ .integer)
    (notFloat : s.token.kind ≠ .float)
    (legible : ∀ literal, s.fault? ≠ some (.malformedNumber literal)) : s.Numeral :=
  ⟨fun integer => absurd integer notInteger, fun float => absurd float notFloat,
    fun literal malformed => absurd malformed (legible literal)⟩

namespace Lexeme

theorem isNumber_run {c : Char} (digit : c.isDigit = true) (cs : List Char) {points : Nat}
    (count : (c :: cs.takeWhile continuesNumber).count '.' = points) :
    Word.isNumber points (String.ofList (c :: cs.takeWhile continuesNumber)) = true := by
  have point : c ≠ '.' := by
    rintro rfl
    cases digit
  rw [List.count_cons_of_ne point] at count
  simp [Word.isNumber, digit, count]

theorem numeral_number {c : Char} (digit : c.isDigit = true) (cs : List Char) (line : UInt32) :
    Scanned.Numeral ⟨⟨(number c cs).kind, (number c cs).text, line⟩, (number c cs).fault?⟩ := by
  unfold number
  dsimp only
  split
  · rename_i none
    exact ⟨fun _ => isNumber_run digit cs none, nofun, nofun⟩
  · rename_i one
    exact ⟨nofun, fun _ => isNumber_run digit cs one, nofun⟩
  · refine ⟨nofun, nofun, ?_⟩
    rintro _ ⟨⟩
    exact ⟨_, isNumber_run digit cs rfl⟩

theorem numeral_of_symbol? {kind : TokenKind} (symbol : kind.symbol?.isSome = true) (text : String)
    (line : UInt32) : Scanned.Numeral ⟨⟨kind, text, line⟩, none⟩ := by
  refine Scanned.numeral_of_other ?_ ?_ nofun
  all_goals
    rintro rfl
    cases symbol

/-- **Each number is read as one of its kind.** -/
theorem numeral_read (c : Char) (cs : List Char) (line : UInt32) :
    Scanned.Numeral ⟨⟨(read c cs).kind, (read c cs).text, line⟩, (read c cs).fault?⟩ := by
  unfold read
  split
  · unfold string
    dsimp only
    split <;> exact Scanned.numeral_of_other nofun nofun nofun
  · split
    · exact numeral_number ‹_› cs line
    · split
      · rcases TokenKind.getD_ofReserved? (word c cs).text with name | keyword
        · refine Scanned.numeral_of_other ?_ ?_ nofun
          all_goals exact fun number => TokenKind.noConfusion (name.symm.trans number)
        · exact numeral_of_symbol? keyword _ line
      · split
        · exact Scanned.numeral_of_other nofun nofun nofun
        · split
          · rename_i first starts
            exact numeral_of_symbol? (TokenKind.isSome_symbol?_extend cs
              (TokenKind.isSome_symbol?_of_ofChar? starts)) _ line
          · exact Scanned.numeral_of_other nofun nofun nofun

end Lexeme

theorem Cursor.numeral_read? {c c' : Cursor} {s : Scanned} (h : c.read? = some (s, c')) :
    s.Numeral := by
  unfold read? at h
  dsimp only at h
  split at h
  · cases h
  · cases h
    exact Lexeme.numeral_read _ _ _

namespace Source

theorem numeral_scan (source : Source) : ∀ s ∈ source.scan.scanned, s.Numeral :=
  source.start.forall_mem_scan Cursor.numeral_read?

/-- A number among the tokens of a source is not the token that ends the file. -/
theorem numeral_tokenize (source : Source) {t : Token} (mem : t ∈ source.tokenize.1) :
    (t.kind = .integer → Literal.IsDigits t.text.toList) ∧
      (t.kind = .float → Literal.IsPointed t.text) := by
  rcases List.mem_append.1 mem with read | ended
  · obtain ⟨s, scanned, rfl⟩ := List.mem_map.1 read
    have numeral := source.numeral_scan s scanned
    exact ⟨fun integer => Word.isDigits_of_isNumber (numeral.integer integer),
      fun float => Word.isPointed_of_isNumber (numeral.float float)⟩
  · rw [List.mem_singleton.1 ended]
    exact ⟨nofun, nofun⟩

end Source
end Viper
