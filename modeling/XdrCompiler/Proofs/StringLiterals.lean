/-
# XdrCompiler.Proofs.StringLiterals -- a text survives its literal

A constant that is a text is written between quotes, with a backslash before each
quote and each backslash in it. Backslashes have to be taken care of before quotes
are, since the ones that escape a quote must not be escaped themselves;
`escapeLiteral` does both in one go, which comes to the same
(`escapeLiteral_eq_replaceAll`).

A literal is read from the left. A backslash that is not escaped escapes what
follows it, and the first quote that is not escaped ends the literal. The main
statement, `text_survives_escaping`, says that the literal of a text ends at its last
character and not before, and stands for that text. So different texts have
different literals, also where they end in backslashes or have them before quotes.
-/
import XdrCompiler.Proofs.Replacement
import XdrCompiler.Source.File

namespace XdrCompiler

open Text (replaceAll replaceAll_singleton)

/-! ## Reading literals -/

/-- What the characters between the quotes of a literal stand for. There are two escapes, and
every other character stands for itself. -/
def unescapeLiteral : List Char → List Char
  | [] => []
  | '\\' :: '\\' :: rest => '\\' :: unescapeLiteral rest
  | '\\' :: '"' :: rest => '"' :: unescapeLiteral rest
  | c :: rest => c :: unescapeLiteral rest

/-- Whether the next character is escaped, if this one is or is not. -/
def escapeStep (escaped : Bool) (c : Char) : Bool := !escaped && c == '\\'

/-- Whether the character at a place of a literal is escaped: right before it stands a backslash
that is not escaped itself. -/
def escapedAt (literal : List Char) (i : Nat) : Bool := (literal.take i).foldl escapeStep false

/-- A literal that stands for a value. -/
structure LiteralFor (value : String) (literal : List Char) : Prop where
  interior : ∃ interior, literal = '"' :: interior ++ ['"'] ∧
    unescapeLiteral interior = value.toList
  /-- Exactly the quotes around the interior are not escaped. -/
  quotes : ∀ i, literal[i]? = some '"' →
    (escapedAt literal i = true ↔ 0 < i ∧ i + 1 < literal.length)

theorem unescapeLiteral_cons {c : Char} (h : c ≠ '\\') (rest : List Char) :
    unescapeLiteral (c :: rest) = c :: unescapeLiteral rest := by
  rw [unescapeLiteral]
  · rintro rest' rfl -
    exact h rfl
  · rintro rest' rfl -
    exact h rfl

theorem unescapeLiteral_escape {c : Char} (h : c = '\\' ∨ c = '"') (rest : List Char) :
    unescapeLiteral ('\\' :: c :: rest) = c :: unescapeLiteral rest := by
  rcases h with rfl | rfl
  · rw [unescapeLiteral]
  · rw [unescapeLiteral]

/-! ## Escaping -/

theorem escapeLiteral_special {c : Char} (h : c = '\\' ∨ c = '"') (rest : List Char) :
    escapeLiteral (c :: rest) = '\\' :: c :: escapeLiteral rest := by
  rw [escapeLiteral, if_pos h]

theorem escapeLiteral_plain {c : Char} (h : ¬ (c = '\\' ∨ c = '"')) (rest : List Char) :
    escapeLiteral (c :: rest) = c :: escapeLiteral rest := by
  rw [escapeLiteral, if_neg h]

theorem unescapeLiteral_escapeLiteral (text : List Char) :
    unescapeLiteral (escapeLiteral text) = text := by
  induction text with
  | nil => rfl
  | cons c rest ih =>
    by_cases h : c = '\\' ∨ c = '"'
    · rw [escapeLiteral_special h, unescapeLiteral_escape h, ih]
    · rw [escapeLiteral_plain h, unescapeLiteral_cons fun hc => h (Or.inl hc), ih]

/-- Escaping is replacing the backslashes first and then the quotes. -/
theorem escapeLiteral_eq_replaceAll (text : List Char) :
    escapeLiteral text = replaceAll ['"'] ['\\', '"'] (replaceAll ['\\'] ['\\', '\\'] text) := by
  rw [replaceAll_singleton, replaceAll_singleton, List.flatMap_assoc]
  induction text with
  | nil => rfl
  | cons c rest ih =>
    rw [List.flatMap_cons, ← ih]
    by_cases hbackslash : c = '\\'
    · rw [escapeLiteral_special (Or.inl hbackslash), hbackslash]
      rfl
    · by_cases hquote : c = '"'
      · rw [escapeLiteral_special (Or.inr hquote), hquote]
        rfl
      · rw [escapeLiteral_plain (not_or.mpr ⟨hbackslash, hquote⟩), if_neg hbackslash,
          List.flatMap_singleton, if_neg hquote, List.singleton_append]

/-! ## Which quotes are escaped -/

theorem escapeStep_of_ne {c : Char} (h : c ≠ '\\') (escaped : Bool) :
    escapeStep escaped c = false := by
  simp [escapeStep, h]

/-- An escaped text leaves nothing escaped behind it. -/
theorem foldl_escapeStep_escapeLiteral (text : List Char) :
    (escapeLiteral text).foldl escapeStep false = false := by
  induction text with
  | nil => rfl
  | cons c rest ih =>
    by_cases h : c = '\\' ∨ c = '"'
    · rw [escapeLiteral_special h, List.foldl_cons, List.foldl_cons]
      exact ih
    · rw [escapeLiteral_plain h, List.foldl_cons, escapeStep_of_ne fun hc => h (Or.inl hc)]
      exact ih

/-- Every quote in an escaped text is escaped. -/
theorem escapedAt_escapeLiteral {text : List Char} {i : Nat}
    (h : (escapeLiteral text)[i]? = some '"') : escapedAt (escapeLiteral text) i = true := by
  unfold escapedAt
  induction text generalizing i with
  | nil => simp [escapeLiteral] at h
  | cons c rest ih =>
    by_cases hc : c = '\\' ∨ c = '"'
    · rw [escapeLiteral_special hc] at h ⊢
      match i with
      | 0 => simp at h
      | 1 => rfl
      | i + 2 => exact ih h
    · rw [escapeLiteral_plain hc] at h ⊢
      match i with
      | 0 => exact absurd (Or.inr (Option.some_inj.mp h)) hc
      | i + 1 =>
        rw [List.take_succ_cons, List.foldl_cons, escapeStep_of_ne fun hb => hc (Or.inl hb)]
        exact ih h

theorem literalFor_escapeLiteral (value : String) :
    LiteralFor value ('"' :: escapeLiteral value.toList ++ ['"']) where
  interior := ⟨_, rfl, unescapeLiteral_escapeLiteral value.toList⟩
  quotes := by
    intro i hi
    obtain ⟨hlength, -⟩ := List.getElem?_eq_some_iff.mp hi
    cases i with
    | zero => simp [escapedAt]
    | succ i =>
      simp only [List.cons_append, List.length_cons, List.length_append, List.length_nil,
        List.getElem?_cons_succ] at hlength hi ⊢
      rw [escapedAt, List.take_succ_cons, List.foldl_cons, escapeStep_of_ne (by decide)]
      by_cases hlast : i = (escapeLiteral value.toList).length
      · -- The quote at the end comes behind the whole escaped text.
        rw [hlast, List.take_left, foldl_escapeStep_escapeLiteral]
        simp
      · have hinside : i < (escapeLiteral value.toList).length := by omega
        rw [List.getElem?_append_left hinside] at hi
        rw [List.take_append_of_le_length (Nat.le_of_lt hinside)]
        have hescaped := escapedAt_escapeLiteral hi
        rw [escapedAt] at hescaped
        rw [hescaped]
        simp only [true_iff]
        omega

/-! ## Constants -/

theorem ConstantValue.toList_literal_text (s : String) :
    (ConstantValue.text s).literal.toList = '"' :: escapeLiteral s.toList ++ ['"'] := by
  rw [ConstantValue.literal, String.toList_ofList]

/-- The literal of a text is made by two replacements, ends where it should, stands for the text,
and belongs to no other text. -/
theorem text_survives_escaping (s : String) :
    (ConstantValue.text s).literal.toList =
        '"' :: replaceAll ['"'] ['\\', '"'] (replaceAll ['\\'] ['\\', '\\'] s.toList) ++ ['"'] ∧
      LiteralFor s (ConstantValue.text s).literal.toList ∧
      ∀ other, (ConstantValue.text other).literal = (ConstantValue.text s).literal ↔ other = s := by
  refine ⟨?_, ?_, fun other => ⟨?_, ?_⟩⟩
  · rw [ConstantValue.toList_literal_text, escapeLiteral_eq_replaceAll]
  · rw [ConstantValue.toList_literal_text]
    exact literalFor_escapeLiteral s
  · intro h
    have hlists := congrArg String.toList h
    rw [ConstantValue.toList_literal_text, ConstantValue.toList_literal_text] at hlists
    have hescaped := List.append_cancel_right (List.cons.inj hlists).2
    apply String.toList_inj.mp
    rw [← unescapeLiteral_escapeLiteral other.toList, hescaped, unescapeLiteral_escapeLiteral]
  · rintro rfl
    rfl

-- A text that ends in a backslash, with one before a quote as well.
example : (ConstantValue.text "a\\\"\\").literal = "\"a\\\\\\\"\\\\\"" := by decide

end XdrCompiler
