/-
# Two texts with a line feed between them

The tokens of a text stand where they stand, whatever line the text starts on: each is given by
the text before it, and its line by the line feeds in there (`Layout.Spot`). So a text that starts
some lines further down has the same tokens, as many lines further down.

If no token of a text is at fault, then a line feed and another text behind it change nothing in its
tokens, and the tokens of the other text follow (`Cursor.scan_append`). That is not so with a fault:
a comment or a string literal that does not end may end in the other text.

Key definitions: `Layout.Spot`.
Key theorems: `Layout.lineAfter_eq`, `Cursor.exists_spots`, `Cursor.scan_append`.
-/
import ViperFrontend.Proofs.Token.Spelling

namespace Viper

/-! ### Runs that stop at a character -/

theorem takeWhile_append_stop {p : Char → Bool} {d : Char} (stops : p d = false) :
    ∀ cs rest : List Char, (cs ++ d :: rest).takeWhile p = cs.takeWhile p
  | [], rest => by simp [stops]
  | c :: cs, rest => by
    simp only [List.cons_append, List.takeWhile_cons, takeWhile_append_stop stops cs rest]

theorem dropWhile_append_stop {p : Char → Bool} {d : Char} (stops : p d = false) :
    ∀ cs rest : List Char, (cs ++ d :: rest).dropWhile p = cs.dropWhile p ++ d :: rest
  | [], rest => by simp [stops]
  | c :: cs, rest => by
    simp only [List.cons_append, List.dropWhile_cons, dropWhile_append_stop stops cs rest]
    split <;> rfl

/-- A run that stops within a text is not changed by what follows the text. -/
theorem takeWhile_append_of_dropWhile {p : Char → Bool} {d : Char} {cs after : List Char}
    (stopped : cs.dropWhile p = d :: after) (rest : List Char) :
    (cs ++ rest).takeWhile p = cs.takeWhile p ∧ (cs ++ rest).dropWhile p = d :: after ++ rest := by
  induction cs with
  | nil => cases stopped
  | cons c cs ih =>
    rw [List.dropWhile_cons] at stopped
    simp only [List.cons_append, List.takeWhile_cons, List.dropWhile_cons]
    split at stopped
    · rename_i more
      obtain ⟨taken, dropped⟩ := ih stopped
      simp [more, taken, dropped]
    · rename_i stop
      cases stopped
      simp [stop]

/-! ### Lines -/

namespace Layout

theorem lineAfter_append (line : UInt32) (p q : List Char) :
    lineAfter line (p ++ q) = lineAfter (lineAfter line p) q :=
  List.foldl_append

/-- The line after a text is given by its line feeds. -/
theorem lineAfter_eq (line : UInt32) (text : List Char) :
    lineAfter line text = line + UInt32.ofNat (text.count '\n') := by
  induction text generalizing line with
  | nil => simp [lineAfter]
  | cons c cs ih =>
    show lineAfter (nextLine line c) cs = _
    rw [ih, nextLine]
    split
    · rename_i feed
      rw [feed, List.count_cons_self, UInt32.ofNat_add, UInt32.add_assoc]
      congr 1
      exact UInt32.add_comm _ _
    · rename_i other
      rw [List.count_cons_of_ne other]

theorem lineAfter_of_not_mem {line : UInt32} {text : List Char} (h : '\n' ∉ text) :
    lineAfter line text = line := by
  rw [lineAfter_eq, List.count_eq_zero_of_not_mem h]
  simp

/-- Where a block comment ends does not depend on the line it starts on. -/
theorem exists_closeComment? (text : List Char) :
    (∀ line, closeComment? line text = none) ∨
      ∃ p rest, p ++ rest = text ∧ ∀ line, closeComment? line text = some (lineAfter line p, rest) := by
  induction text with
  | nil => exact .inl fun _ => rfl
  | cons c cs ih =>
    by_cases closes : c = '*' ∧ cs.head? = some '/'
    · obtain ⟨rfl, head⟩ := closes
      obtain ⟨rest, rfl⟩ : ∃ rest, cs = '/' :: rest := by
        cases cs with
        | nil => cases head
        | cons d rest =>
          obtain rfl := Option.some.inj head
          exact ⟨rest, rfl⟩
      exact .inr ⟨['*', '/'], rest, rfl, fun line => rfl⟩
    · rcases ih with never | ⟨p, rest, whole, ends⟩
      · refine .inl fun line => ?_
        rw [closeComment?, if_neg closes, never]
      · refine .inr ⟨c :: p, rest, by rw [← whole]; rfl, fun line => ?_⟩
        rw [closeComment?, if_neg closes, ends]
        rfl

/-! ### The cases of layout -/

theorem skip_lineComment (line : UInt32) (rest : List Char) :
    skip line ('/' :: '/' :: rest) = skip line (rest.dropWhile (· ≠ '\n')) := by
  rw [skip]

theorem skip_blockComment {line : UInt32} {rest : List Char} {r : UInt32 × List Char}
    (closed : closeComment? line rest = some r) :
    skip line ('/' :: '*' :: rest) = skip r.1 r.2 := by
  rw [skip]
  split
  · simp_all
  · simp_all

theorem skip_openComment {line : UInt32} {rest : List Char} (opened : closeComment? line rest = none) :
    skip line ('/' :: '*' :: rest) = (line, '/' :: '*' :: rest) := by
  rw [skip]
  split
  · simp_all
  · rfl

theorem skip_blank {c : Char} (line : UInt32) (rest : List Char) (blank : isBlank c = true) :
    skip line (c :: rest) = skip (nextLine line c) rest := by
  have slash : c ≠ '/' := by
    rintro rfl
    cases blank
  rw [skip.eq_def]
  split <;> simp_all

theorem head?_ne_of_not_comment {c : Char} {cs : List Char}
    (noLine : ∀ rest, c = '/' → cs = '/' :: rest → False)
    (noBlock : ∀ rest, c = '/' → cs = '*' :: rest → False) (slash : c = '/') :
    cs.head? ≠ some '/' ∧ cs.head? ≠ some '*' := by
  cases cs with
  | nil => simp
  | cons d cs =>
    constructor
    · rintro ⟨⟩
      exact noLine cs slash rfl
    · rintro ⟨⟩
      exact noBlock cs slash rfl

/-- Where layout ends does not depend on the line it starts on. -/
theorem exists_skip (text : List Char) :
    ∃ p rest, p ++ rest = text ∧ ∀ line, skip line text = (lineAfter line p, rest) := by
  -- the recursion goes by the text alone, so any line will do to start it
  generalize (1 : UInt32) = first
  induction first, text using skip.induct with
  | case1 _ => exact ⟨[], [], rfl, fun line => by rw [skip]; rfl⟩
  | case2 _ rest ih =>
    obtain ⟨p, behind, whole, skipped⟩ := ih
    refine ⟨'/' :: '/' :: (rest.takeWhile (· ≠ '\n') ++ p), behind, ?_, fun line => ?_⟩
    · simp only [List.cons_append, List.append_assoc, whole, List.takeWhile_append_dropWhile]
    · have run : (rest.takeWhile (· ≠ '\n')).all (· ≠ '\n') = true := List.all_takeWhile
      have none : '\n' ∉ '/' :: '/' :: rest.takeWhile (· ≠ '\n') := by
        simpa using fun mem => List.all_eq_true.1 run '\n' mem
      rw [skip_lineComment, skipped, ← List.cons_append, ← List.cons_append, lineAfter_append,
        lineAfter_of_not_mem none]
  | case3 first rest r closed ih =>
    obtain ⟨p, behind, whole, skipped⟩ := ih
    rcases exists_closeComment? rest with never | ⟨q, after, split, ends⟩
    · rw [never] at closed
      cases closed
    · rw [ends] at closed
      cases closed
      refine ⟨'/' :: '*' :: (q ++ p), behind, by simpa [← split] using whole, fun line => ?_⟩
      rw [skip_blockComment (ends line), skipped, ← lineAfter_append]
      rfl
  | case4 first rest never =>
    refine ⟨[], '/' :: '*' :: rest, rfl, fun line => skip_openComment ?_⟩
    rcases exists_closeComment? rest with always | ⟨q, after, -, ends⟩
    · exact always line
    · rw [ends] at never
      cases never
  | case5 first c rest _ _ blank ih =>
    obtain ⟨p, behind, whole, skipped⟩ := ih
    refine ⟨c :: p, behind, by rw [← whole]; rfl, fun line => ?_⟩
    rw [skip_blank line rest blank, skipped]
    rfl
  | case6 first c rest noLine noBlock other =>
    refine ⟨[], c :: rest, rfl, fun line => skip_of_not_layout line (Bool.eq_false_iff.2 other) ?_⟩
    exact head?_ne_of_not_comment noLine noBlock

/-! ### Layout and what follows it -/

theorem closeComment?_append {line : UInt32} {text : List Char} {r : UInt32 × List Char}
    (closed : closeComment? line text = some r) (rest : List Char) :
    closeComment? line (text ++ rest) = some (r.1, r.2 ++ rest) := by
  induction text generalizing line with
  | nil => cases closed
  | cons c cs ih =>
    rw [closeComment?] at closed
    rw [List.cons_append, closeComment?]
    cases cs with
    | nil =>
      split at closed
      · simp_all
      · cases closed
    | cons d ds =>
      show (if c = '*' ∧ (d :: ds).head? = some '/' then _ else _) = _
      split at closed
      · rename_i closes
        rw [if_pos closes]
        cases closed
        rfl
      · rename_i goesOn
        rw [if_neg goesOn]
        exact ih closed

/-- Layout up to the end of a text goes on behind a line feed. -/
theorem skip_append_of_nil (line : UInt32) (text rest : List Char) (h : (skip line text).2 = []) :
    skip line (text ++ '\n' :: rest) = skip (nextLine (skip line text).1 '\n') rest := by
  fun_induction skip line text with
  | case1 line => exact skip_blank line rest rfl
  | case2 line text ih =>
    rw [List.cons_append, List.cons_append, skip_lineComment, dropWhile_append_stop (by decide)]
    exact ih h
  | case3 line text r closed ih =>
    rw [List.cons_append, List.cons_append, skip_blockComment (closeComment?_append closed _)]
    exact ih h
  | case4 line text opened => cases h
  | case5 line c text _ _ blank ih =>
    rw [List.cons_append, skip_blank line _ blank]
    exact ih h
  | case6 line c text _ _ other => cases h

/-- Layout before a token is the same if a line feed and another text follow, but for a comment that
does not end. -/
theorem skip_append_of_cons {c : Char} {cs : List Char} (line : UInt32) (text rest : List Char)
    (h : (skip line text).2 = c :: cs) (ends : ¬ (c = '/' ∧ cs.head? = some '*')) :
    skip line (text ++ '\n' :: rest) = ((skip line text).1, c :: cs ++ '\n' :: rest) := by
  fun_induction skip line text with
  | case1 line => cases h
  | case2 line text ih =>
    rw [List.cons_append, List.cons_append, skip_lineComment, dropWhile_append_stop (by decide)]
    exact ih h
  | case3 line text r closed ih =>
    rw [List.cons_append, List.cons_append, skip_blockComment (closeComment?_append closed _)]
    exact ih h
  | case4 line text opened =>
    cases h
    exact absurd ⟨rfl, rfl⟩ ends
  | case5 line c text _ _ blank ih =>
    rw [List.cons_append, skip_blank line _ blank]
    exact ih h
  | case6 line c text noLine noBlock other =>
    cases h
    refine skip_of_not_layout line (Bool.eq_false_iff.2 other) fun slash => ?_
    have heads := head?_ne_of_not_comment noLine noBlock slash
    cases cs with
    | nil =>
      show some '\n' ≠ some '/' ∧ some '\n' ≠ some '*'
      decide
    | cons d ds => exact heads

end Layout

/-! ### What is read before a line feed -/

namespace Lexeme

/-- The lexeme with more text after it. -/
def followedBy (lexeme : Lexeme) (rest : List Char) : Lexeme :=
  { lexeme with rest := lexeme.rest ++ rest }

theorem string_append_of_closed {cs : List Char} (clean : (string cs).fault? = none)
    (rest : List Char) : string (cs ++ rest) = (string cs).followedBy rest := by
  unfold string at clean ⊢
  dsimp only at clean ⊢
  split at clean
  · cases clean
  · rename_i quote after stopped
    obtain ⟨taken, dropped⟩ := takeWhile_append_of_dropWhile stopped rest
    rw [taken, dropped]
    rfl

theorem number_append (c : Char) (cs rest : List Char) :
    number c (cs ++ '\n' :: rest) = (number c cs).followedBy ('\n' :: rest) := by
  unfold number
  rw [takeWhile_append_stop (by decide), dropWhile_append_stop (by decide)]
  dsimp only
  split <;> rfl

theorem word_append (c : Char) (cs rest : List Char) :
    word c (cs ++ '\n' :: rest) = (word c cs).followedBy ('\n' :: rest) := by
  unfold word
  rw [takeWhile_append_stop (by decide), dropWhile_append_stop (by decide)]
  rfl

theorem operator_append (first : TokenKind) (cs rest : List Char) :
    operator first (cs ++ '\n' :: rest) = (operator first cs).followedBy ('\n' :: rest) := by
  have gap : Layout.Gap ('\n' :: rest) := by simp [Layout.Gap, Layout.isBlank]
  simp only [operator, TokenKind.extend_append first cs gap]
  rfl

/-- **What is read without a fault** is the same if a line feed and another text follow. -/
theorem read_append {c : Char} {cs : List Char} (clean : (read c cs).fault? = none)
    (rest : List Char) :
    read c (cs ++ '\n' :: rest) = (read c cs).followedBy ('\n' :: rest) := by
  have head : (cs ++ '\n' :: rest).head? = some '*' ↔ cs.head? = some '*' := by
    cases cs <;> simp
  unfold read at clean ⊢
  simp only [head]
  split
  · rename_i quote
    rw [if_pos quote] at clean
    exact string_append_of_closed clean _
  · split
    · exact number_append c cs rest
    · split
      · exact word_append c cs rest
      · split
        · simp_all [openComment]
        · split
          · exact operator_append _ cs rest
          · rfl

end Lexeme

/-! ### Scanning two texts -/

namespace Cursor

/-- What is scanned depends on the place behind the layout only. -/
theorem scan_congr {c d : Cursor} (same : c.skipLayout = d.skipLayout) :
    c.scan #[] = d.scan #[] := by
  have read : c.read? = d.read? := by simp only [read?, same]
  rw [scan, scan.eq_def d #[]]
  rw [read, same]

/-- The first token and the tokens after it. -/
theorem scan_of_some {c c' : Cursor} {s : Scanned} (h : c.read? = some (s, c')) :
    c.scan #[] = ⟨s :: (c'.scan #[]).scanned, (c'.scan #[]).endLine⟩ := by
  show TokenStream.mk (c.scan #[]).scanned (c.scan #[]).endLine = _
  rw [scanned_scan_of_some h, endLine_scan_of_some h]

theorem scan_of_none {c : Cursor} (h : c.read? = none) : c.scan #[] = ⟨[], c.skipLayout.line⟩ := by
  show TokenStream.mk (c.scan #[]).scanned (c.scan #[]).endLine = _
  rw [scanned_scan_of_none h, endLine_scan_of_none h]

theorem read?_of_nil {c : Cursor} (h : c.skipLayout.rest = []) : c.read? = none := by
  unfold read?
  dsimp only
  rw [h]

theorem read?_of_cons {c : Cursor} {first : Char} {others : List Char}
    (h : c.skipLayout.rest = first :: others) :
    c.read? = some (⟨⟨(Lexeme.read first others).kind, (Lexeme.read first others).text,
        c.skipLayout.line⟩, (Lexeme.read first others).fault?⟩,
      ⟨Layout.lineAfter c.skipLayout.line (Lexeme.read first others).source,
        (Lexeme.read first others).rest⟩) := by
  unfold read?
  dsimp only
  rw [h]

/-- **The tokens of a text without faults are followed by those of another text** behind a line
feed. -/
theorem scan_append (c : Cursor) (rest : List Char)
    (clean : ∀ x ∈ (c.scan #[]).scanned, x.fault? = none) :
    (⟨c.line, c.rest ++ '\n' :: rest⟩ : Cursor).scan #[] =
      let other := (⟨(c.scan #[]).endLine + 1, rest⟩ : Cursor).scan #[]
      ⟨(c.scan #[]).scanned ++ other.scanned, other.endLine⟩ := by
  induction length : c.rest.length using Nat.strongRecOn generalizing c with
  | ind n ih =>
    cases here : c.skipLayout.rest with
    | nil =>
      rw [scan_of_none (read?_of_nil here)]
      refine scan_congr ?_
      have skipped := Layout.skip_append_of_nil c.line c.rest rest here
      simp only [skipLayout, skipped]
      rfl
    | cons first others =>
      have read := read?_of_cons here
      rw [scan_of_some read] at clean ⊢
      obtain ⟨whole, clean⟩ := List.forall_mem_cons.1 clean
      have ends : ¬ (first = '/' ∧ others.head? = some '*') := by
        rintro ⟨rfl, star⟩
        simp [Lexeme.read, star, Lexeme.startsWord, Lexeme.openComment] at whole
      have skipped := Layout.skip_append_of_cons c.line c.rest rest here ends
      have place : (⟨c.line, c.rest ++ '\n' :: rest⟩ : Cursor).skipLayout =
          ⟨c.skipLayout.line, first :: (others ++ '\n' :: rest)⟩ := by
        simp only [skipLayout, skipped]
        rfl
      have further := read?_of_cons (congrArg Cursor.rest place)
      rw [place, Lexeme.read_append whole] at further
      rw [scan_of_some further]
      simp only [Lexeme.followedBy]
      rw [ih _ (length ▸ length_rest_read? read) _ clean rfl]
      rfl

end Cursor

/-! ### Tokens without the line they start from -/

/-- A token by the text before it. -/
structure Layout.Spot where
  before : List Char
  kind : TokenKind
  text : String
  fault? : Option LexicalFault

namespace Layout.Spot

/-- The token, in a text that starts on line `line`. -/
def scanned (line : UInt32) (spot : Spot) : Scanned :=
  ⟨⟨spot.kind, spot.text, lineAfter line spot.before⟩, spot.fault?⟩

/-- The token with more text before it. -/
def behind (more : List Char) (spot : Spot) : Spot :=
  { spot with before := more ++ spot.before }

theorem scanned_behind (line : UInt32) (more : List Char) (spot : Spot) :
    (spot.behind more).scanned line = spot.scanned (lineAfter line more) := by
  simp only [scanned, behind, lineAfter_append]

end Layout.Spot

/-- **The tokens of a text stand where they stand**, whatever line the text starts on. -/
theorem Cursor.exists_spots (text : List Char) :
    ∃ spots : List Layout.Spot, (∀ spot ∈ spots, spot.before <+: text) ∧
      ∀ line, (⟨line, text⟩ : Cursor).scan #[] =
        ⟨spots.map (·.scanned line), Layout.lineAfter line text⟩ := by
  induction length : text.length using Nat.strongRecOn generalizing text with
  | ind n ih =>
    obtain ⟨p, rest, rfl, skipped⟩ := Layout.exists_skip text
    have place : ∀ line, (⟨line, p ++ rest⟩ : Cursor).skipLayout = ⟨Layout.lineAfter line p, rest⟩ := by
      intro line
      simp only [skipLayout, skipped]
    cases rest with
    | nil =>
      refine ⟨[], by simp, fun line => ?_⟩
      rw [scan_of_none (read?_of_nil (congrArg Cursor.rest (place line))), place, List.append_nil]
      rfl
    | cons first others =>
      have whole := Lexeme.source_append_rest first others
      have shorter := Lexeme.length_rest_read first others
      obtain ⟨spots, within, scanned⟩ := ih (Lexeme.read first others).rest.length
        (by simp at length; omega) _ rfl
      let here : Layout.Spot := ⟨p, (Lexeme.read first others).kind, (Lexeme.read first others).text,
        (Lexeme.read first others).fault?⟩
      refine ⟨here :: spots.map (·.behind (p ++ (Lexeme.read first others).source)), ?_, fun line => ?_⟩
      · rw [← whole]
        simp only [List.forall_mem_cons, List.forall_mem_map]
        refine ⟨List.prefix_append _ _, fun spot mem => ?_⟩
        simp only [Layout.Spot.behind, List.append_assoc, List.prefix_append_right_inj]
        exact within spot mem
      · have read := read?_of_cons (congrArg Cursor.rest (place line))
        rw [place] at read
        rw [scan_of_some read, scanned, ← whole, ← List.append_assoc, Layout.lineAfter_append,
          Layout.lineAfter_append]
        simp only [List.map_cons, List.map_map, Function.comp_def, Layout.Spot.scanned_behind,
          Layout.lineAfter_append]
        rfl

end Viper
