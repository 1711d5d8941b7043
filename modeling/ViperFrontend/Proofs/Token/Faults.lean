/-
# What is wrong with a token, from its text

A token whose text is at fault is illegal, and no other token is. What is wrong with it can be
told from its text (`LexicalFault.ofText`), but for a string literal without its closing quote,
which may have any text; it takes the rest of its file and is the last token there.

So where two sources have tokens of the same kinds and texts, the same is wrong with them,
unless one of the two, and only one, ends in such a string literal.

Key definitions: `LexicalFault.ofText`, `Scanned.Told`, `LexicalFault.SameButLast`.
Key theorems: `Source.told_scan`, `Scanned.Told.sameButLast`.
-/
import ViperFrontend.Proofs.Token.Spelling

namespace Viper

/-- What is wrong with an illegal token that is no string literal. -/
def LexicalFault.ofText (text : String) : LexicalFault :=
  match text.toList with
  | [c] => .illegalCharacter c
  | '/' :: _ => .unterminatedComment
  | _ => .malformedNumber text

theorem LexicalFault.ofText_ne_unterminatedString (text : String) :
    ofText text ≠ .unterminatedString := by
  unfold ofText
  split <;> simp

/-- A number with two points or more is longer than a character and starts no comment. -/
theorem LexicalFault.ofText_number {c : Char} {cs : List Char} (digit : c.isDigit = true)
    (points : 2 ≤ (c :: cs).count '.') :
    ofText (String.ofList (c :: cs)) = .malformedNumber (String.ofList (c :: cs)) := by
  unfold ofText
  split
  · rename_i d single
    rw [String.toList_ofList] at single
    rw [single] at points
    have short : [d].count '.' ≤ 1 := List.count_le_length
    omega
  · rename_i rest slash
    rw [String.toList_ofList] at slash
    obtain ⟨rfl, -⟩ := List.cons.inj slash
    exact absurd digit (by decide)
  · rfl

namespace Lexeme

/-- Nothing is wrong with the text, and the token is legal. -/
def Plain (lexeme : Lexeme) : Prop :=
  lexeme.kind ≠ .illegal ∧ lexeme.fault? = none

theorem plain_of_symbol? {lexeme : Lexeme} (symbol : lexeme.kind.symbol?.isSome = true)
    (fault : lexeme.fault? = none) : lexeme.Plain := by
  refine ⟨fun illegal => ?_, fault⟩
  rw [illegal] at symbol
  cases symbol

/-- What is wrong with what is read. -/
theorem fault_read (c : Char) (cs : List Char) :
    (read c cs).Plain ∨ (read c cs).kind = .illegal ∧
      ((read c cs).fault? = some (.ofText (read c cs).text) ∨
        (read c cs).fault? = some .unterminatedString ∧ (read c cs).rest = []) := by
  unfold read
  split
  · unfold string
    dsimp only
    split
    · exact .inr ⟨rfl, .inr ⟨rfl, rfl⟩⟩
    · exact .inl ⟨TokenKind.noConfusion, rfl⟩
  · split
    · rename_i digit
      unfold number
      dsimp only
      split
      · exact .inl ⟨TokenKind.noConfusion, rfl⟩
      · exact .inl ⟨TokenKind.noConfusion, rfl⟩
      · refine .inr ⟨rfl, .inl (congrArg some ?_)⟩
        exact (LexicalFault.ofText_number digit (by grind)).symm
    · split
      · rcases TokenKind.getD_ofReserved? (word c cs).text with name | keyword
        · exact .inl ⟨fun illegal => TokenKind.noConfusion (name.symm.trans illegal), rfl⟩
        · exact .inl (plain_of_symbol? keyword rfl)
      · split
        · have told : LexicalFault.ofText "/*" = .unterminatedComment := by decide
          exact .inr ⟨rfl, .inl (congrArg some told.symm)⟩
        · split
          · rename_i first starts
            exact .inl (plain_of_symbol? (TokenKind.isSome_symbol?_extend cs
              (TokenKind.isSome_symbol?_of_ofChar? starts)) rfl)
          · refine .inr ⟨rfl, .inl (congrArg some ?_)⟩
            simp [illegal, LexicalFault.ofText]

end Lexeme

namespace Scanned

/-- In a list of tokens what is wrong with each is told by its text, but for a string literal
at the end. -/
inductive Told : List Scanned → Prop
  | nil : Told []
  | plain {x : Scanned} {xs : List Scanned} (legal : x.token.kind ≠ .illegal)
      (fault : x.fault? = none) (rest : Told xs) : Told (x :: xs)
  | illegal {x : Scanned} {xs : List Scanned} (kind : x.token.kind = .illegal)
      (fault : x.fault? = some (.ofText x.token.text)) (rest : Told xs) : Told (x :: xs)
  | openString {x : Scanned} (kind : x.token.kind = .illegal)
      (fault : x.fault? = some .unterminatedString) : Told [x]

end Scanned

/-- The tokens of every text are so. -/
theorem Cursor.told_scan (c : Cursor) : Scanned.Told (c.scan #[]).scanned := by
  induction length : c.rest.length using Nat.strongRecOn generalizing c with
  | ind n ih =>
    cases next : c.read? with
    | none =>
      rw [scanned_scan_of_none next]
      exact .nil
    | some r =>
      have rest := ih _ (length ▸ length_rest_read? next) r.2 rfl
      rw [scanned_scan_of_some next]
      unfold read? at next
      dsimp only at next
      split at next
      · cases next
      · rename_i first others _
        cases next
        rcases Lexeme.fault_read first others with ⟨legal, fault⟩ | ⟨kind, fault | ⟨fault, ended⟩⟩
        · exact .plain legal fault rest
        · exact .illegal kind fault rest
        · dsimp only
          rw [ended, Word.scanned_nil]
          exact .openString kind fault

theorem Source.told_scan (source : Source) : Scanned.Told source.scan.scanned :=
  source.start.told_scan

/-- The faults are the same but for the last: in the first list it is that of a string literal
without its closing quote, which is nowhere else. -/
def LexicalFault.DiffersLast (fs gs : List (Option LexicalFault)) : Prop :=
  ∃ shared g, some .unterminatedString ∉ shared ∧ g ≠ .unterminatedString ∧
    fs = shared ++ [some .unterminatedString] ∧ gs = shared ++ [some g]

theorem LexicalFault.DiffersLast.cons {fs gs : List (Option LexicalFault)}
    {f : Option LexicalFault} (h : DiffersLast fs gs) (other : f ≠ some .unterminatedString) :
    DiffersLast (f :: fs) (f :: gs) := by
  obtain ⟨shared, g, absent, hidden, rfl, rfl⟩ := h
  exact ⟨f :: shared, g, by simp [absent, other.symm], hidden, rfl, rfl⟩

/-- The faults are the same, but for the last where one list, and only one, ends with that of a string
literal without its closing quote. -/
def LexicalFault.SameButLast (fs gs : List (Option LexicalFault)) : Prop :=
  fs = gs ∨ DiffersLast fs gs ∨ DiffersLast gs fs

theorem LexicalFault.SameButLast.cons {fs gs : List (Option LexicalFault)}
    {f : Option LexicalFault} (h : SameButLast fs gs) (other : f ≠ some .unterminatedString) :
    SameButLast (f :: fs) (f :: gs) :=
  h.imp (congrArg (f :: ·)) (Or.imp (·.cons other) (·.cons other))

namespace Scanned.Told

/-- **Texts tell the same of two lists of tokens**, but for the last fault of one that ends in a
string literal without its closing quote. -/
theorem sameButLast {xs ys : List Scanned} (hx : Told xs) (hy : Told ys)
    (words : xs.map (·.token.word) = ys.map (·.token.word)) :
    LexicalFault.SameButLast (xs.map (·.fault?)) (ys.map (·.fault?)) := by
  induction hx generalizing ys with
  | nil =>
    obtain rfl := List.map_eq_nil_iff.1 words.symm
    exact .inl rfl
  | @plain x xs legal fault rest ih =>
    obtain ⟨y, ys, rfl, word, words⟩ := List.map_eq_cons_iff.1 words.symm
    have kind : y.token.kind = x.token.kind := congrArg Word.kind word
    cases hy with
    | plain legal' fault' rest' =>
      rw [List.map_cons, List.map_cons, fault, fault']
      exact (ih rest' words.symm).cons (by simp)
    | illegal kind' => exact absurd (kind.symm.trans kind') legal
    | openString kind' => exact absurd (kind.symm.trans kind') legal
  | @illegal x xs isIllegal fault rest ih =>
    have other := LexicalFault.ofText_ne_unterminatedString x.token.text
    obtain ⟨y, ys, rfl, word, words⟩ := List.map_eq_cons_iff.1 words.symm
    have kind : y.token.kind = x.token.kind := congrArg Word.kind word
    have text : y.token.text = x.token.text := congrArg Word.text word
    cases hy with
    | plain legal' => exact absurd (kind.trans isIllegal) legal'
    | illegal kind' fault' rest' =>
      rw [List.map_cons, List.map_cons, fault, fault', text]
      exact (ih rest' words.symm).cons (by simp [other])
    | openString kind' fault' =>
      obtain rfl := List.map_eq_nil_iff.1 words.symm
      exact .inr (.inr ⟨[], _, by simp, other, by simp [fault'], by simp [fault]⟩)
  | @openString x isIllegal fault =>
    obtain ⟨y, ys, rfl, word, words⟩ := List.map_eq_cons_iff.1 words.symm
    have kind : y.token.kind = x.token.kind := congrArg Word.kind word
    obtain rfl := List.map_eq_nil_iff.1 words
    cases hy with
    | plain legal' => exact absurd (kind.trans isIllegal) legal'
    | illegal kind' fault' =>
      have other := LexicalFault.ofText_ne_unterminatedString y.token.text
      exact .inr (.inl ⟨[], _, by simp, other, by simp [fault], by simp [fault']⟩)
    | openString kind' fault' => exact .inl (by simp [fault, fault'])

end Scanned.Told

/-- Takes a fault for that of a string literal without its closing quote. -/
def LexicalFault.merge (merged fault : LexicalFault) : LexicalFault :=
  if fault = merged then .unterminatedString else fault

/-- Two faults that are merged into one are the same, or one of them is that of a string literal
without its closing quote. -/
theorem LexicalFault.eq_or_of_merge_eq {merged f g : LexicalFault}
    (h : merge merged f = merge merged g) :
    f = g ∨ f = .unterminatedString ∨ g = .unterminatedString := by
  unfold merge at h
  split at h <;> split at h <;> simp_all

theorem LexicalFault.DiffersLast.merge_eq {fs gs : List (Option LexicalFault)}
    (h : DiffersLast fs gs) :
    ∃ merged : LexicalFault, fs.map (·.map merged.merge) = gs.map (·.map merged.merge) := by
  obtain ⟨shared, g, -, -, rfl, rfl⟩ := h
  exact ⟨g, by simp [merge]⟩

theorem LexicalFault.DiffersLast.not_both {fs gs : List (Option LexicalFault)}
    (h : DiffersLast fs gs) :
    some .unterminatedString ∈ fs ∧ some .unterminatedString ∉ gs := by
  obtain ⟨shared, g, absent, hidden, rfl, rfl⟩ := h
  simp [absent, hidden.symm]

namespace Scanned.Told

variable {xs ys : List Scanned}

/-- Two lists of tokens with the same texts have the same faults if one fault is merged. -/
theorem exists_merge_eq (hx : Told xs) (hy : Told ys)
    (words : xs.map (·.token.word) = ys.map (·.token.word)) :
    ∃ merged : LexicalFault, (xs.map (·.fault?)).map (·.map merged.merge) =
      (ys.map (·.fault?)).map (·.map merged.merge) := by
  rcases hx.sameButLast hy words with same | differs | differs
  · exact ⟨.unterminatedString, by rw [same]⟩
  · exact differs.merge_eq
  · obtain ⟨merged, same⟩ := differs.merge_eq
    exact ⟨merged, same.symm⟩

/-- Two lists of tokens with the same texts have the same faults if both or neither end in a
string literal without its closing quote. -/
theorem faults_eq (hx : Told xs) (hy : Told ys)
    (words : xs.map (·.token.word) = ys.map (·.token.word))
    (both : some .unterminatedString ∈ xs.map (·.fault?) ↔
      some .unterminatedString ∈ ys.map (·.fault?)) :
    xs.map (·.fault?) = ys.map (·.fault?) := by
  rcases hx.sameButLast hy words with same | differs | differs
  · exact same
  · exact absurd (both.1 differs.not_both.1) differs.not_both.2
  · exact absurd (both.2 differs.not_both.1) differs.not_both.2

end Scanned.Told
end Viper
