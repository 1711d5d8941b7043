/-
# Words under any layout

Words that are spelled as their kinds ask for can be set with any layout between them, provided that
it starts with a blank (`Separator`): no word then runs on into the next, and no word into a comment.
A page of such words (`Page`), with or without layout at its two ends, scans to just these words
(`Page.tokenize_eq`), each on the line that the text before it ends on. Comments may hold quotes and
string literals may hold comments; neither is taken for the other, as scanning restarts behind each
word (`Printed.scan_textOf`).

Key definitions: `Separator`, `Printed`, `Page`.
Key theorems: `Printed.scan_textOf`, `Page.tokenize_eq`.
-/
import ViperFrontend.Proofs.Token.Factoring

namespace Viper

/-- Layout that starts with a blank. -/
structure Separator where
  first : Char
  others : List Layout.Part
  isBlank_first : Layout.isBlank first = true
  wellFormed : ∀ part ∈ others, part.WellFormed

namespace Separator

def parts (s : Separator) : List Layout.Part :=
  .blank s.first :: s.others

/-- The characters of a separator, if there is one. -/
def text? : Option Separator → List Char
  | none => []
  | some s => Layout.textOf s.parts

/-- Scanning passes a separator, and its line feeds count. -/
theorem scan_text? (s : Option Separator) (line : UInt32) (rest : List Char) :
    (⟨line, text? s ++ rest⟩ : Cursor).scan #[] =
      (⟨Layout.lineAfter line (text? s), rest⟩ : Cursor).scan #[] := by
  cases s with
  | none => rfl
  | some s =>
    have wellFormed : ∀ part ∈ s.parts, part.WellFormed :=
      List.forall_mem_cons.2 ⟨s.isBlank_first, s.wellFormed⟩
    refine Cursor.scan_congr ?_
    simp only [Cursor.skipLayout, text?, Layout.skip_textOf s.parts line rest wellFormed]

end Separator

/-- A word that is spelled as its kind asks for, and the separator behind it. -/
structure Printed where
  word : Word
  behind : Option Separator
  isSpelled : word.isSpelled = true

namespace Printed

def text (p : Printed) : List Char :=
  p.word.source ++ Separator.text? p.behind

def textOf (ps : List Printed) : List Char :=
  ps.flatMap text

theorem textOf_cons (p : Printed) (ps : List Printed) : textOf (p :: ps) = p.text ++ textOf ps :=
  List.flatMap_cons

/-- Words stand apart if each but the last has a separator behind it. -/
def Apart (ps : List Printed) : Prop :=
  ∀ p ∈ ps.dropLast, p.behind.isSome = true

instance (ps : List Printed) : Decidable (Apart ps) :=
  inferInstanceAs (Decidable (∀ p ∈ ps.dropLast, p.behind.isSome = true))

theorem Apart.tail {p : Printed} {ps : List Printed} (h : Apart (p :: ps)) : Apart ps := by
  cases ps with
  | nil => exact fun q mem => absurd mem List.not_mem_nil
  | cons q qs => exact fun r mem => h r (List.mem_cons_of_mem p mem)

/-- Behind a word is a blank or the end of the file. -/
theorem Apart.gap {p : Printed} {ps : List Printed} (h : Apart (p :: ps)) :
    Layout.Gap (Separator.text? p.behind ++ textOf ps) := by
  cases behind : p.behind with
  | some s => exact fun c first => Option.some.inj first ▸ s.isBlank_first
  | none =>
    cases ps with
    | nil => exact Layout.gap_nil
    | cons q qs =>
      have separated := h p List.mem_cons_self
      rw [behind] at separated
      cases separated

/-- The tokens of some words, the first of them on the given line. -/
def scanned (line : UInt32) : List Printed → List Scanned
  | [] => []
  | p :: ps => ⟨⟨p.word.kind, p.word.text, line⟩, none⟩ :: scanned (Layout.lineAfter line p.text) ps

/-- **Words that stand apart are read back**, whatever separates them. -/
theorem scan_textOf {ps : List Printed} (apart : Apart ps) (line : UInt32) :
    (⟨line, textOf ps⟩ : Cursor).scan #[] =
      ⟨scanned line ps, Layout.lineAfter line (textOf ps)⟩ := by
  induction ps generalizing line with
  | nil =>
    have nothing : (⟨line, []⟩ : Cursor).skipLayout = ⟨line, []⟩ := by
      rw [Cursor.skipLayout, Layout.skip]
    rw [textOf, List.flatMap_nil, Cursor.scan_of_none (Cursor.read?_of_nil (by rw [nothing])), nothing]
    rfl
  | cons p ps ih =>
    have next := Word.read?_source p.isSpelled line apart.gap
    rw [textOf_cons, text, List.append_assoc, Cursor.scan_of_some next, Separator.scan_text?,
      ← Layout.lineAfter_append, ih apart.tail, scanned, text, ← List.append_assoc,
      ← Layout.lineAfter_append]

theorem words_scanned (line : UInt32) (ps : List Printed) :
    (scanned line ps).map (·.token.word) = ps.map (·.word) := by
  induction ps generalizing line with
  | nil => rfl
  | cons p ps ih => rw [scanned, List.map_cons, List.map_cons, ih, Token.word]

theorem diagnostics_scanned (line : UInt32) (ps : List Printed) (file : String) :
    (scanned line ps).filterMap (·.diagnostic? file) = [] := by
  induction ps generalizing line with
  | nil => rfl
  | cons p ps ih => rw [scanned, List.filterMap_cons, ih, Scanned.diagnostic?, Option.map_none]

theorem length_scanned (line : UInt32) (ps : List Printed) : (scanned line ps).length = ps.length := by
  rw [← List.length_map (f := (·.token.word)), words_scanned, List.length_map]

/-- A word is on the line of the text before it. -/
theorem line_scanned {line : UInt32} {ps : List Printed} {i : Nat} {s : Scanned}
    (here : (scanned line ps)[i]? = some s) :
    s.token.line = Layout.lineAfter line (textOf (ps.take i)) := by
  induction ps generalizing line i with
  | nil => cases here
  | cons p ps ih =>
    rw [scanned] at here
    cases i with
    | zero =>
      cases here
      rfl
    | succ i =>
      rw [List.take_succ_cons, textOf_cons, Layout.lineAfter_append]
      exact ih here

end Printed

/-- Words that stand apart, with or without a separator before the first and behind the last. -/
structure Page where
  lead : Option Separator
  words : List Printed
  apart : Printed.Apart words

namespace Page

def text (page : Page) : List Char :=
  Separator.text? page.lead ++ Printed.textOf page.words

/-- The text before a word; before the end of the file it is all of the text. -/
def before (page : Page) (i : Nat) : List Char :=
  Separator.text? page.lead ++ Printed.textOf (page.words.take i)

def source (page : Page) (name : String) : Source :=
  ⟨name, String.ofList page.text⟩

theorem before_prefix_text (page : Page) (i : Nat) : page.before i <+: page.text := by
  have whole : page.words.take i ++ page.words.drop i = page.words := List.take_append_drop i page.words
  refine ⟨Printed.textOf (page.words.drop i), ?_⟩
  rw [before, text, List.append_assoc, Printed.textOf, Printed.textOf, ← List.flatMap_append, whole]
  rfl

theorem scan_source (page : Page) (name : String) :
    (page.source name).scan =
      ⟨Printed.scanned (Layout.lineAfter 1 (Separator.text? page.lead)) page.words,
        Layout.lineAfter 1 page.text⟩ := by
  have start : (page.source name).start = ⟨1, page.text⟩ := by
    rw [Source.start, source, String.toList_ofList]
  rw [Source.scan, start, text, Separator.scan_text?, Printed.scan_textOf page.apart,
    Layout.lineAfter_append]

/-- A token is on the line of the text before it, and so is the end of the file. -/
theorem line_tokens {page : Page} {name : String} {i : Nat} {t : Token}
    (here : (page.source name).scan.tokens[i]? = some t) :
    t.line = Layout.lineAfter 1 (page.before i) := by
  rw [scan_source, TokenStream.tokens] at here
  by_cases isWord : i < page.words.length
  · rw [List.getElem?_append_left (by simpa [Printed.length_scanned] using isWord),
      List.getElem?_map, Option.map_eq_some_iff] at here
    obtain ⟨s, found, rfl⟩ := here
    rw [Printed.line_scanned found, before, Layout.lineAfter_append]
  · have isEnd : i = page.words.length := by
      have bound := (List.getElem?_eq_some_iff.1 here).1
      rw [List.length_append, List.length_map, Printed.length_scanned, List.length_singleton] at bound
      omega
    rw [List.getElem?_append_right (by simp [Printed.length_scanned, isEnd]), List.length_map,
      Printed.length_scanned, isEnd, Nat.sub_self] at here
    cases here
    rw [before, isEnd, List.take_length, text]
    rfl

/-- **A page scans to its words** and to the end of the file, with nothing wrong in its text. Each
token is on the line that the line feeds before it say. -/
theorem tokenize_eq (page : Page) (name : String)
    (few : page.text.count '\n' < UInt32.size - 1) :
    (page.source name).tokenize.1.map (·.word) = page.words.map (·.word) ++ [⟨.eof, ""⟩] ∧
      (page.source name).tokenize.2 = [] ∧
      ∀ i t, (page.source name).tokenize.1[i]? = some t →
        t.line.toNat = 1 + (page.before i).count '\n' := by
  refine ⟨?_, ?_, fun i t here => ?_⟩
  · rw [Source.tokenize, scan_source, TokenStream.tokens, List.map_append, List.map_map,
      Function.comp_def, Printed.words_scanned]
    rfl
  · rw [Source.tokenize, scan_source, TokenStream.diagnostics, Printed.diagnostics_scanned]
  · have fewer := (page.before_prefix_text i).sublist.count_le '\n'
    rw [line_tokens here, Layout.toNat_lineAfter (Nat.lt_of_le_of_lt fewer few)]

/-- A comment with a quote and a star, a string literal with two comments, and a comment that is all
that stands behind the last word. -/
def quotes : Page where
  lead := none
  words :=
    [{ word := ⟨.identifier, "x"⟩
       behind := some ⟨'\n', [.blockComment "\"*\n".toList], by decide, by decide⟩
       isSpelled := by decide },
     { word := ⟨.string, "/* // \n"⟩
       behind := some ⟨' ', [.lineComment "*/ \"".toList], by decide, by decide⟩
       isSpelled := by decide },
     { word := ⟨.float, "1.5"⟩
       behind := some ⟨'\t', [.blockComment "*".toList], by decide, by decide⟩
       isSpelled := by decide }]
  apart := by decide

theorem tokenize_quotes :
    quotes.text = "x\n/*\"*\n*/\"/* // \n\" //*/ \"\n1.5\t/***/".toList ∧
      quotes.text.count '\n' < UInt32.size - 1 ∧
      (quotes.source "quotes.vp").tokenize.1.map (·.word) =
        [⟨.identifier, "x"⟩, ⟨.string, "/* // \n"⟩, ⟨.float, "1.5"⟩, ⟨.eof, ""⟩] ∧
      (quotes.source "quotes.vp").tokenize.2 = [] ∧
      ∀ i t, (quotes.source "quotes.vp").tokenize.1[i]? = some t →
        t.line.toNat = 1 + (quotes.before i).count '\n' := by
  have few : quotes.text.count '\n' < UInt32.size - 1 := by decide
  exact ⟨by decide, few, tokenize_eq quotes "quotes.vp" few⟩

end Page
end Viper
