/-
# Scanning, token by token

Scanning collects the tokens it reads behind those it has. Here the tokens from a place on
are given by what is read there: the first token and the tokens from the place after it
(`Cursor.scanned_scan_of_some`). The token that ends a file is not among them
(`Source.kind_ne_eof_of_mem_scan`).

Key theorems: `Cursor.scanned_scan_of_some`, `Source.kind_ne_eof_of_mem_scan`.
-/
import ViperFrontend.Token.Stream

namespace Viper

/-- One more item of a list gives at most one more of what the items give. -/
theorem filterMap_take_succ {α β : Type} (f : α → Option β) (xs : List α) (n : Nat) :
    (xs.take (n + 1)).filterMap f = (xs.take n).filterMap f ++ (xs[n]?.bind f).toList := by
  rw [List.take_add_one, List.filterMap_append]
  congr 1
  cases xs[n]? with
  | none => rfl
  | some x => cases given : f x <;> simp [given]

namespace Cursor

theorem scanned_scan (c : Cursor) (read : Array Scanned) :
    (c.scan read).scanned = read.toList ++ (c.scan #[]).scanned := by
  induction length : c.rest.length using Nat.strongRecOn generalizing c read with
  | ind n ih =>
    rw [scan, scan.eq_def c #[]]
    split
    · simp
    · rename_i s c' next
      have shorter : c'.rest.length < n := length ▸ length_rest_read? next
      rw [ih _ shorter c' (read.push s) rfl, ih _ shorter c' (#[].push s) rfl]
      simp

theorem scanned_scan_of_none {c : Cursor} (h : c.read? = none) : (c.scan #[]).scanned = [] := by
  rw [scan]
  split
  · rfl
  · simp_all

theorem scanned_scan_of_some {c c' : Cursor} {s : Scanned} (h : c.read? = some (s, c')) :
    (c.scan #[]).scanned = s :: (c'.scan #[]).scanned := by
  rw [scan]
  split
  · simp_all
  · rename_i s' c'' next
    obtain ⟨rfl, rfl⟩ := Prod.mk.inj (Option.some.inj (h.symm.trans next))
    exact scanned_scan c' _

/-- The line on which the text ends does not depend on what is read already. -/
theorem endLine_scan (c : Cursor) (read : Array Scanned) :
    (c.scan read).endLine = (c.scan #[]).endLine := by
  induction length : c.rest.length using Nat.strongRecOn generalizing c read with
  | ind n ih =>
    rw [scan, scan.eq_def c #[]]
    split
    · rfl
    · rename_i s c' next
      have shorter : c'.rest.length < n := length ▸ length_rest_read? next
      rw [ih _ shorter c' (read.push s) rfl, ih _ shorter c' (#[].push s) rfl]

theorem endLine_scan_of_none {c : Cursor} (h : c.read? = none) :
    (c.scan #[]).endLine = c.skipLayout.line := by
  rw [scan]
  split
  · rfl
  · simp_all

theorem endLine_scan_of_some {c c' : Cursor} {s : Scanned} (h : c.read? = some (s, c')) :
    (c.scan #[]).endLine = (c'.scan #[]).endLine := by
  rw [scan]
  split
  · simp_all
  · rename_i s' c'' next
    obtain ⟨rfl, rfl⟩ := Prod.mk.inj (Option.some.inj (h.symm.trans next))
    exact endLine_scan c' _

end Cursor

/-! ### The end of the file -/

namespace TokenKind

theorem isSome_symbol?_of_ofReserved? {word : String} {kind : TokenKind}
    (h : ofReserved? word = some kind) : kind.symbol?.isSome = true := by
  have found : kind.symbol? = some word := by simpa using List.find?_some h
  rw [found]
  rfl

theorem isSome_symbol?_of_ofChar? {c : Char} {kind : TokenKind} (h : ofChar? c = some kind) :
    kind.symbol?.isSome = true := by
  unfold ofChar? at h
  split at h <;> cases h <;> rfl

theorem isSome_symbol?_of_extend? {kind longer : TokenKind} {c : Char}
    (h : kind.extend? c = some longer) : longer.symbol?.isSome = true := by
  unfold extend? at h
  split at h <;> cases h <;> rfl

theorem isSome_symbol?_extend {kind : TokenKind} (cs : List Char)
    (h : kind.symbol?.isSome = true) : (kind.extend cs).1.symbol?.isSome = true := by
  induction cs generalizing kind with
  | nil => exact h
  | cons c cs ih =>
    rw [extend]
    split
    · exact ih (isSome_symbol?_of_extend? ‹_›)
    · exact h

/-- A word is a keyword or an identifier. -/
theorem getD_ofReserved? (word : String) :
    (ofReserved? word).getD .identifier = .identifier ∨
      ((ofReserved? word).getD .identifier).symbol?.isSome = true := by
  cases found : ofReserved? word with
  | none => exact .inl rfl
  | some kind => exact .inr (isSome_symbol?_of_ofReserved? found)

end TokenKind

theorem Lexeme.kind_read_ne_eof (c : Char) (cs : List Char) : (read c cs).kind ≠ .eof := by
  have symbol : ∀ {kind : TokenKind}, kind.symbol?.isSome = true → kind ≠ .eof := by
    rintro _ h rfl
    cases h
  unfold read
  split
  · unfold string
    dsimp only
    split <;> simp
  · split
    · unfold number
      dsimp only
      split <;> simp
    · split
      · rcases TokenKind.getD_ofReserved? (word c cs).text with name | keyword
        · exact fun eof => TokenKind.noConfusion (name.symm.trans eof)
        · exact symbol keyword
      · split
        · simp [openComment]
        · split
          · exact symbol (TokenKind.isSome_symbol?_extend cs (TokenKind.isSome_symbol?_of_ofChar? ‹_›))
          · simp [illegal]

theorem Cursor.kind_read?_ne_eof {c c' : Cursor} {s : Scanned} (h : c.read? = some (s, c')) :
    s.token.kind ≠ .eof := by
  unfold read? at h
  dsimp only at h
  split at h
  · cases h
  · cases h
    exact Lexeme.kind_read_ne_eof _ _

/-- What holds of each token that is read holds of all tokens of a scan. -/
theorem Cursor.forall_mem_scan {P : Scanned → Prop}
    (read : ∀ {c c' : Cursor} {s : Scanned}, c.read? = some (s, c') → P s) (c : Cursor) :
    ∀ s ∈ (c.scan #[]).scanned, P s := by
  induction length : c.rest.length using Nat.strongRecOn generalizing c with
  | ind n ih =>
    cases next : c.read? with
    | none => simp [scanned_scan_of_none next]
    | some r =>
      rw [scanned_scan_of_some next]
      rintro s (_ | ⟨_, mem⟩)
      · exact read next
      · exact ih _ (length ▸ length_rest_read? next) r.2 rfl s mem

/-- The token that ends a file is read only at its end. -/
theorem Source.kind_ne_eof_of_mem_scan (source : Source) :
    ∀ s ∈ source.scan.scanned, s.token.kind ≠ .eof :=
  source.start.forall_mem_scan Cursor.kind_read?_ne_eof

/-! ### Kinds with one spelling -/

/-- What is read as a keyword, a punctuator or an operator has the text of its kind. -/
theorem Lexeme.text_read {c : Char} {cs : List Char} {text : String}
    (spelled : (read c cs).kind.symbol? = some text) : (read c cs).text = text := by
  revert spelled
  unfold read
  split
  · unfold string
    dsimp only
    split <;> exact nofun
  · split
    · unfold number
      dsimp only
      split <;> exact nofun
    · split
      · unfold word
        dsimp only
        intro spelled
        cases found : TokenKind.ofReserved? (String.ofList (c :: cs.takeWhile continuesWord)) with
        | none =>
          rw [found] at spelled
          cases spelled
        | some kind =>
          rw [found] at spelled
          have reserved : kind.symbol? = some (String.ofList (c :: cs.takeWhile continuesWord)) := by
            simpa using List.find?_some found
          exact Option.some.inj (reserved.symm.trans spelled)
      · split
        · exact nofun
        · split
          · rename_i first _
            intro spelled
            have longest : (first.extend cs).1.symbol? = some text := spelled
            show (first.extend cs).1.spelling = text
            rw [TokenKind.spelling, longest]
            rfl
          · exact nofun

/-- **Every token of such a kind has the same text.** -/
theorem Source.text_eq_of_symbol? (source : Source) :
    ∀ s ∈ source.scan.scanned, ∀ text, s.token.kind.symbol? = some text → s.token.text = text := by
  refine source.start.forall_mem_scan fun {c c' s} next text spelled => ?_
  unfold Cursor.read? at next
  dsimp only at next
  split at next
  · cases next
  · cases next
    exact Lexeme.text_read spelled

end Viper
