/-
# Layout: what stands between tokens

Blanks, line comments and block comments separate tokens and are otherwise ignored, but
their line feeds count. A line comment ends before the line feed; a block comment ends at
the first `*/` after its opening, and one that does not end is no layout.

Key definitions: `Layout.closeComment?`, `Layout.skip`.
-/
namespace Viper
namespace Layout

/-- The line after a character of line `line`. -/
def nextLine (line : UInt32) (c : Char) : UInt32 :=
  if c = '\n' then line + 1 else line

/-- The line after a text that starts on line `line`. -/
def lineAfter (line : UInt32) (text : List Char) : UInt32 :=
  text.foldl nextLine line

/-- Space, tab, line feed and carriage return. -/
def isBlank (c : Char) : Bool :=
  c = ' ' || c = '\t' || c = '\n' || c = '\r'

/-- The end of a block comment: the line and the text after the first `*/`. -/
def closeComment? (line : UInt32) : List Char → Option (UInt32 × List Char)
  | [] => none
  | c :: rest =>
    if c = '*' ∧ rest.head? = some '/' then some (line, rest.tail)
    else closeComment? (nextLine line c) rest

theorem length_closeComment? {line : UInt32} {text : List Char} {r : UInt32 × List Char}
    (h : closeComment? line text = some r) : r.2.length < text.length := by
  induction text generalizing line with
  | nil => simp [closeComment?] at h
  | cons c rest ih =>
    rw [closeComment?] at h
    split at h
    · cases h
      simp only [List.length_tail, List.length_cons]
      omega
    · have := ih h
      simp only [List.length_cons]
      omega

/-- The line and the text at the first character that is no layout. -/
def skip (line : UInt32) : List Char → UInt32 × List Char
  | [] => (line, [])
  | '/' :: '/' :: rest => skip line (rest.dropWhile (· ≠ '\n'))
  | '/' :: '*' :: rest =>
    match _closed : closeComment? line rest with
    | some r => skip r.1 r.2
    | none => (line, '/' :: '*' :: rest)
  | c :: rest => if isBlank c then skip (nextLine line c) rest else (line, c :: rest)
termination_by text => text.length
decreasing_by
  · have := (List.dropWhile_suffix (l := rest) (fun c => decide (c ≠ '\n'))).length_le
    simp only [List.length_cons]
    omega
  · have := length_closeComment? _closed
    simp only [List.length_cons]
    omega
  · simp

theorem length_skip_le (line : UInt32) (text : List Char) :
    (skip line text).2.length ≤ text.length := by
  fun_induction skip line text with
  | case1 => simp
  | case2 line rest ih =>
    have := (List.dropWhile_suffix (l := rest) (fun c => decide (c ≠ '\n'))).length_le
    simp only [List.length_cons]
    omega
  | case3 line rest r h ih =>
    have := length_closeComment? h
    simp only [List.length_cons]
    omega
  | case4 => simp
  | case5 line c rest _ _ hb ih =>
    simp only [List.length_cons]
    omega
  | case6 => simp

end Layout
end Viper
