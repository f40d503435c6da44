/-
# XdrCompiler.Text.Lines -- lines and columns of a text

A list of lines becomes a text by putting one newline between neighbours, and a
text falls apart into lines at each newline. Cutting undoes joining only when
no line holds a newline of its own, but joining always undoes cutting. Columns
are counted in characters.
-/

namespace XdrCompiler.Text

/-! ## Lines -/

/-- The lines with a newline between each two of them. -/
def joinLines : List String → String
  | [] => ""
  | [line] => line
  | line :: rest => line ++ "\n" ++ joinLines rest

/-- The pieces between the newlines; never empty. -/
def cutLines : List Char → List (List Char)
  | [] => [[]]
  | c :: rest =>
    if c = '\n' then [] :: cutLines rest
    else match cutLines rest with
      | [] => [[c]]
      | piece :: pieces => (c :: piece) :: pieces

/-- The lines of a text. -/
def lines (s : String) : List String := (cutLines s.toList).map String.ofList

theorem cutLines_ne_nil (cs : List Char) : cutLines cs ≠ [] := by
  cases cs with
  | nil => simp [cutLines]
  | cons c rest =>
    by_cases h : c = '\n'
    · simp [cutLines, h]
    · simp only [cutLines, h, if_false]
      split <;> simp

theorem joinLines_cons {line : String} {rest : List String} (h : rest ≠ []) :
    joinLines (line :: rest) = line ++ "\n" ++ joinLines rest := by
  cases rest with
  | nil => exact absurd rfl h
  | cons next others => rfl

theorem toList_joinLines_cutLines (cs : List Char) :
    (joinLines ((cutLines cs).map String.ofList)).toList = cs := by
  induction cs with
  | nil => rfl
  | cons c rest ih =>
    have hne : (cutLines rest).map String.ofList ≠ [] := by
      simpa using cutLines_ne_nil rest
    by_cases h : c = '\n'
    · have hcut : cutLines (c :: rest) = [] :: cutLines rest := by simp [cutLines, h]
      rw [hcut, List.map_cons, joinLines_cons hne]
      simp [ih, h]
    · cases hrest : cutLines rest with
      | nil => exact absurd hrest (cutLines_ne_nil rest)
      | cons piece pieces =>
        have hcut : cutLines (c :: rest) = (c :: piece) :: pieces := by simp [cutLines, h, hrest]
        rw [hrest] at ih
        rw [hcut]
        cases pieces with
        | nil => simpa [joinLines] using ih
        | cons next others => simpa [joinLines] using ih

/-- Joining the lines of a text gives the text back. -/
theorem joinLines_lines (s : String) : joinLines (lines s) = s :=
  String.toList_inj.mp (toList_joinLines_cutLines s.toList)

/-- The number of newlines in a text. -/
def countNewlines (s : String) : Nat := s.toList.count '\n'

/-- Drops the newlines at the end of a text. -/
def dropFinalNewlines (s : String) : String :=
  String.ofList (s.toList.reverse.dropWhile (· = '\n')).reverse

/-! ## Columns -/

/-- `s` followed by the spaces that fill `width` columns. -/
def padRight (width : Nat) (s : String) : String :=
  s ++ String.ofList (List.replicate (width - s.toList.length) ' ')

/-- `s` after the spaces that fill `width` columns. -/
def padLeft (width : Nat) (s : String) : String :=
  String.ofList (List.replicate (width - s.toList.length) ' ') ++ s

/-! ## Numbers -/

/-- Puts a comma after every third digit; the digits come least significant
first. -/
def groupDigits : List Char → List Char
  | a :: b :: c :: d :: rest => a :: b :: c :: ',' :: groupDigits (d :: rest)
  | few => few

/-- A whole number with commas between its groups of three digits. -/
def grouped (n : Int) : String :=
  (if n < 0 then "-" else "") ++
    String.ofList (groupDigits (toString n.natAbs).toList.reverse).reverse

end XdrCompiler.Text
