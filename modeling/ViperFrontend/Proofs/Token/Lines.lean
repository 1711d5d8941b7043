/-
# Lines are exact

The line of a token is counted on while layout and lexemes are passed; the text of a line is found by
going from one line feed to the next. Both say how many line feeds stand before a place
(`Layout.toNat_lineAfter`, `Text.exists_dropLines`). So where there are not too many line feeds to
count, the line of a token is exact, and what a token has from one line can be read there
(`Source.exists_line_of_token`).

Key definitions: `Cursor.starts`, `Token.ReadFrom`, `Token.StandsAt`.
Key theorems: `Text.isSome_line?`, `Source.tokens_stand`, `Source.exists_line_of_token`.
-/
import Mathlib.Data.List.Forall2
import ViperFrontend.Proofs.Token.Factoring
import ViperFrontend.Text.Lines

namespace Viper

/-! ### The lines of a text -/

namespace Text

theorem dropLines_of_not_mem (n : Nat) {cs : List Char} (inLine : '\n' ∉ cs) :
    dropLines (n + 1) cs = none := by
  have run : ∀ c ∈ cs, decide (c ≠ '\n') = true := fun c mem => by
    simpa using fun feed : c = '\n' => inLine (feed ▸ mem)
  have all : cs.dropWhile (· ≠ '\n') = [] := by
    rw [← List.append_nil cs, List.dropWhile_append_of_pos run, List.dropWhile_nil]
  rw [dropLines, all]

theorem dropLines_append (n : Nat) {line : List Char} (rest : List Char) (inLine : '\n' ∉ line) :
    dropLines (n + 1) (line ++ '\n' :: rest) = dropLines n rest := by
  have run : ∀ c ∈ line, decide (c ≠ '\n') = true := fun c mem => by
    simpa using fun feed : c = '\n' => inLine (feed ▸ mem)
  have dropped : (line ++ '\n' :: rest).dropWhile (· ≠ '\n') = '\n' :: rest := by
    rw [List.dropWhile_append_of_pos run]
    simp
  rw [dropLines, dropped]

/-- There are as many lines behind the first as there are line feeds. -/
theorem isSome_dropLines (n : Nat) (cs : List Char) :
    (dropLines n cs).isSome = true ↔ n ≤ cs.count '\n' := by
  induction n generalizing cs with
  | zero => simp [dropLines]
  | succ n ih =>
    by_cases feed : '\n' ∈ cs
    · obtain ⟨line, rest, rfl, inLine⟩ := List.eq_append_cons_of_mem feed
      rw [dropLines_append n rest inLine, ih]
      simp [List.count_eq_zero_of_not_mem inLine]
    · simp [dropLines_of_not_mem n feed, List.count_eq_zero_of_not_mem feed]

/-- **The lines of a text** are numbered from 1, one for each line feed and one more. -/
theorem isSome_line? (text : String) (number : UInt32) :
    (line? text number).isSome = true ↔
      1 ≤ number.toNat ∧ number.toNat ≤ 1 + text.toList.count '\n' := by
  have isZero : number = 0 ↔ number.toNat = 0 := UInt32.toNat_inj.symm
  unfold line?
  split
  · rename_i zero
    have none := isZero.1 zero
    simp only [Option.isSome_none, Bool.false_eq_true, false_iff]
    omega
  · rename_i some
    have pos : number.toNat ≠ 0 := mt isZero.2 some
    rw [Option.isSome_map, isSome_dropLines]
    omega

/-- Behind as many line feeds as stand before a place, the line of that place starts. -/
theorem exists_dropLines (before rest : List Char) :
    ∃ start, dropLines (before.count '\n') (before ++ rest) = some (start ++ rest) ∧ '\n' ∉ start := by
  induction count : before.count '\n' generalizing before with
  | zero => exact ⟨before, rfl, List.count_eq_zero.1 count⟩
  | succ n ih =>
    have feed : '\n' ∈ before := List.count_pos_iff.1 (by omega)
    obtain ⟨line, behind, rfl, inLine⟩ := List.eq_append_cons_of_mem feed
    have fewer : behind.count '\n' = n := by
      simpa [List.count_eq_zero_of_not_mem inLine] using count
    obtain ⟨start, dropped, inStart⟩ := ih behind fewer
    refine ⟨start, ?_, inStart⟩
    rw [List.append_assoc, List.cons_append, dropLines_append n _ inLine, dropped]

/-- What has no carriage return is not touched where those at the end of a line are dropped. -/
theorem infix_dropReturns {word line : List Char} (noReturn : '\r' ∉ word) (inside : word <:+: line) :
    word <:+: dropReturns line := by
  obtain ⟨before, after, rfl⟩ := inside
  cases last : word.reverse with
  | nil =>
    rw [List.reverse_eq_nil_iff.1 last]
    exact List.nil_infix
  | cons c cs =>
    have isLast : c ∈ word := List.mem_reverse.1 (last ▸ List.mem_cons_self)
    have stays : (word.reverse ++ before.reverse).dropWhile (· = '\r') =
        word.reverse ++ before.reverse := by
      have other : c ≠ '\r' := fun isReturn => noReturn (isReturn ▸ isLast)
      rw [last, List.cons_append, List.dropWhile_cons_of_neg (by simpa using other)]
    unfold dropReturns
    rw [List.reverse_append, List.reverse_append, List.dropWhile_append, stays]
    split
    · rw [List.reverse_append, List.reverse_reverse, List.reverse_reverse]
      exact (List.suffix_append before word).isInfix
    · rw [List.reverse_append, List.reverse_append, List.reverse_reverse, List.reverse_reverse]
      exact List.infix_append before word _

/-- **What stands on one line of a text** can be read in that line. -/
theorem exists_line_of_word {text : String} {before word after : List Char} {number : UInt32}
    (whole : text.toList = before ++ (word ++ after)) (line : number.toNat = 1 + before.count '\n')
    (inLine : '\n' ∉ word) (noReturn : '\r' ∉ word) :
    ∃ found, line? text number = some found ∧ word <:+: found.toList := by
  obtain ⟨start, dropped, inStart⟩ := exists_dropLines before (word ++ after)
  have some : number ≠ 0 := by
    rintro rfl
    rw [UInt32.toNat_zero] at line
    omega
  have place : number.toNat - 1 = before.count '\n' := by omega
  refine ⟨_, by rw [line?, if_neg some, whole, place, dropped, Option.map_some], ?_⟩
  have run : ∀ c ∈ start ++ word, decide (c ≠ '\n') = true := by
    intro c mem
    rcases List.mem_append.1 mem with here | here
    · simpa using fun feed : c = '\n' => inStart (feed ▸ here)
    · simpa using fun feed : c = '\n' => inLine (feed ▸ here)
  rw [String.toList_ofList, ← List.append_assoc, List.takeWhile_append_of_pos run]
  exact infix_dropReturns noReturn (List.infix_append start word _)

end Text

/-! ### Where tokens start -/

/-- The texts from the first character of each token on, and what is left behind the last. -/
def Cursor.starts (c : Cursor) : List (List Char) :=
  match _next : c.read? with
  | none => [c.skipLayout.rest]
  | some (_, c') => c.skipLayout.rest :: c'.starts
termination_by c.rest.length
decreasing_by exact length_rest_read? _next

/-- The token is read at the start of a text, or ends the file where nothing is left. -/
def Token.ReadFrom (t : Token) : List Char → Prop
  | [] => t.kind = .eof ∧ t.text = ""
  | first :: others =>
    t.kind = (Lexeme.read first others).kind ∧ t.text = (Lexeme.read first others).text

/-- The token is read where `rest` is left of a text, and its line is one more than the line feeds before
that. -/
def Token.StandsAt (text : List Char) (t : Token) (rest : List Char) : Prop :=
  t.ReadFrom rest ∧ ∃ before, before ++ rest = text ∧ t.line.toNat = 1 + before.count '\n'

namespace Cursor

theorem starts_of_none {c : Cursor} (h : c.read? = none) : c.starts = [c.skipLayout.rest] := by
  rw [starts]
  split <;> simp_all

theorem starts_of_some {c c' : Cursor} {s : Scanned} (h : c.read? = some (s, c')) :
    c.starts = c.skipLayout.rest :: c'.starts := by
  rw [starts]
  split <;> simp_all

/-- Every token of a text is on the line behind the text before it. -/
theorem tokens_stand (c : Cursor) :
    List.Forall₂ (fun (t : Token) rest => t.ReadFrom rest ∧
      ∃ before, before ++ rest = c.rest ∧ t.line = Layout.lineAfter c.line before)
      (c.scan #[]).tokens c.starts := by
  induction length : c.rest.length using Nat.strongRecOn generalizing c with
  | ind n ih =>
    obtain ⟨skipped, rest, whole, skip⟩ := Layout.exists_skip c.rest
    have place : c.skipLayout = ⟨Layout.lineAfter c.line skipped, rest⟩ := by
      simp only [skipLayout, skip]
    cases rest with
    | nil =>
      have next := read?_of_nil (congrArg rest place)
      rw [scan_of_none next, starts_of_none next, place]
      exact .cons ⟨⟨rfl, rfl⟩, skipped, whole, rfl⟩ .nil
    | cons first others =>
      have next := read?_of_cons (congrArg Cursor.rest place)
      have later := ih _ (length ▸ length_rest_read? next) _ rfl
      rw [scan_of_some next, starts_of_some next]
      refine .cons ?_ (later.imp ?_)
      · rw [place]
        exact ⟨⟨rfl, rfl⟩, skipped, whole, rfl⟩
      · rintro t rest ⟨readFrom, before, behind, line⟩
        refine ⟨readFrom, skipped ++ (Lexeme.read first others).source ++ before, ?_, ?_⟩
        · rw [List.append_assoc, behind, List.append_assoc, Lexeme.source_append_rest, whole]
        · rw [line, place, Layout.lineAfter_append, Layout.lineAfter_append]

end Cursor

theorem exists_mem_of_forall₂ {α β : Type} {R : α → β → Prop} {xs : List α} {ys : List β}
    (h : List.Forall₂ R xs ys) {x : α} (mem : x ∈ xs) : ∃ y ∈ ys, R x y := by
  induction h with
  | nil => simp at mem
  | @cons a b xs ys first rest ih =>
    rcases List.mem_cons.1 mem with rfl | later
    · exact ⟨b, List.mem_cons_self, first⟩
    · obtain ⟨y, within, related⟩ := ih later
      exact ⟨y, List.mem_cons_of_mem b within, related⟩

namespace Source

variable {source : Source}

/-- **The line of every token is exact**: one more than the line feeds before its first character, and
before the end of the file for the token that ends it. -/
theorem tokens_stand (few : source.content.toList.count '\n' < UInt32.size - 1) :
    List.Forall₂ (Token.StandsAt source.content.toList) source.tokenize.1 source.start.starts := by
  refine source.start.tokens_stand.imp ?_
  rintro t rest ⟨readFrom, before, whole, line⟩
  refine ⟨readFrom, before, whole, ?_⟩
  have fewer : before.count '\n' ≤ source.content.toList.count '\n' := by
    rw [← show before ++ rest = source.content.toList from whole]
    exact (List.sublist_append_left before rest).count_le '\n'
  rw [line]
  exact Layout.toNat_lineAfter (Nat.lt_of_le_of_lt fewer few)

end Source

/-- The text of a token stands at its start, or behind the quote that starts it. -/
theorem Token.ReadFrom.exists_text {t : Token} {rest : List Char} (h : t.ReadFrom rest) :
    ∃ quote after, (quote = [] ∨ quote = ['"']) ∧ rest = quote ++ (t.text.toList ++ after) := by
  cases rest with
  | nil => exact ⟨[], [], .inl rfl, by simp [h.2]⟩
  | cons first others =>
    have whole := Lexeme.source_append_rest first others
    have spelled := Lexeme.spells_read first others 1
    rw [h.2, ← whole]
    unfold Scanned.Spells at spelled
    simp only [Lexeme.scanned] at spelled
    split at spelled
    · exact ⟨['"'], _, .inr rfl, by rw [spelled]; rfl⟩
    · obtain ⟨text, after, source⟩ := spelled
      exact ⟨[], after ++ (Lexeme.read first others).rest, .inl rfl, by simp [text, ← source]⟩
    · exact ⟨['"'], '"' :: (Lexeme.read first others).rest, .inr rfl, by rw [spelled]; simp⟩
    · exact ⟨[], _, .inl rfl, by rw [spelled]; rfl⟩

/-- **What a token has from one line can be read there.** -/
theorem Source.exists_line_of_token {source : Source}
    (few : source.content.toList.count '\n' < UInt32.size - 1) {t : Token}
    (mem : t ∈ source.tokenize.1) (inLine : '\n' ∉ t.text.toList) (noReturn : '\r' ∉ t.text.toList) :
    ∃ line, Text.line? source.content t.line = some line ∧ t.text.toList <:+: line.toList := by
  obtain ⟨rest, -, readFrom, before, whole, line⟩ := exists_mem_of_forall₂ (tokens_stand few) mem
  obtain ⟨quote, after, isQuote, rfl⟩ := readFrom.exists_text
  have inQuote : '\n' ∉ quote ∧ '\r' ∉ quote := by
    rcases isQuote with rfl | rfl <;> decide
  rw [← List.append_assoc quote] at whole
  obtain ⟨found, here, inside⟩ := Text.exists_line_of_word whole.symm line
    (by simp [inQuote.1, inLine]) (by simp [inQuote.2, noReturn])
  exact ⟨found, here, (List.suffix_append quote t.text.toList).isInfix.trans inside⟩

/-- The line of a token is a line of its source. -/
theorem Source.isSome_line?_of_token {source : Source}
    (few : source.content.toList.count '\n' < UInt32.size - 1) {t : Token}
    (mem : t ∈ source.tokenize.1) : (Text.line? source.content t.line).isSome = true := by
  obtain ⟨rest, -, -, before, whole, line⟩ := exists_mem_of_forall₂ (tokens_stand few) mem
  have fewer : before.count '\n' ≤ source.content.toList.count '\n' := by
    rw [← whole]
    exact (List.sublist_append_left before rest).count_le '\n'
  rw [Text.isSome_line?]
  omega

end Viper
