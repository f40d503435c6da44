/-
# XdrCompiler.Proofs.NameCharacters -- what names and numbers are spelled with

The texts that the compiler writes are told apart by characters which some of
them cannot have. A name in Pascal case has letters, digits and underscores
only (`isIdentChar_of_mem_pascalCase`), and so has the name of a constant; a
number has digits and a minus sign only (`isDigit_or_minus_of_mem_toString`).
-/
import Mathlib
import XdrCompiler.Naming.Accepted
import XdrCompiler.Naming.Words

namespace XdrCompiler.Naming

/-! ## Letters and digits -/

theorem not_isAlpha_of_isDigit {c : Char} (h : c.isDigit = true) : c.isAlpha = false := by
  rw [Bool.eq_false_iff]
  intro halpha
  -- The digits lie below both runs of letters.
  simp only [Char.isDigit, Char.isAlpha, Char.isUpper, Char.isLower, Bool.or_eq_true,
    Bool.and_eq_true, decide_eq_true_eq, UInt32.le_iff_toNat_le] at h halpha
  have hupper : '9'.val.toNat < 'A'.val.toNat := by decide
  have hlower : '9'.val.toNat < 'a'.val.toNat := by decide
  omega

theorem toUpper_of_isDigit {c : Char} (h : c.isDigit = true) : c.toUpper = c := by
  apply Char.toUpper_eq_of_not_isLower
  intro hlower
  have halpha := not_isAlpha_of_isDigit h
  simp [Char.isAlpha, hlower] at halpha

theorem toLower_of_isDigit {c : Char} (h : c.isDigit = true) : c.toLower = c := by
  apply Char.toLower_eq_of_not_isUpper
  intro hupper
  have halpha := not_isAlpha_of_isDigit h
  simp [Char.isAlpha, hupper] at halpha

theorem isAlphanum_toUpper {c : Char} (h : c.isAlphanum = true) : c.toUpper.isAlphanum = true := by
  simp only [Char.isAlphanum, Bool.or_eq_true] at h ⊢
  rcases h with halpha | hdigit
  · left
    rwa [Char.isAlpha_toUpper_eq_isAlpha]
  · right
    rwa [toUpper_of_isDigit hdigit]

theorem isAlphanum_toLower {c : Char} (h : c.isAlphanum = true) : c.toLower.isAlphanum = true := by
  simp only [Char.isAlphanum, Bool.or_eq_true] at h ⊢
  rcases h with halpha | hdigit
  · left
    rwa [Char.isAlpha_toLower_eq_isAlpha]
  · right
    rwa [toLower_of_isDigit hdigit]

/-! ## Names -/

theorem isAlphanum_of_mem_splitWords {cs word : List Char} (hword : word ∈ splitWords cs)
    {c : Char} (hc : c ∈ word) : c.isAlphanum = true := by
  have hmem : c ∈ (splitWords cs).flatten := List.mem_flatten.mpr ⟨word, hword, hc⟩
  rw [flatten_splitWords] at hmem
  exact (List.mem_filter.mp hmem).2

theorem isAlphanum_of_mem_capitalize {word : List Char} (h : ∀ c ∈ word, c.isAlphanum = true) :
    ∀ c ∈ capitalize word, c.isAlphanum = true := by
  cases word with
  | nil => exact h
  | cons first rest =>
    intro c hc
    rcases List.mem_cons.mp hc with rfl | hc
    · exact isAlphanum_toUpper (h first List.mem_cons_self)
    · obtain ⟨c', hc', rfl⟩ := List.mem_map.mp hc
      exact isAlphanum_toLower (h c' (List.mem_cons_of_mem first hc'))

theorem mem_guardDigit {word : List Char} {c : Char} (h : c ∈ guardDigit word) :
    c = '_' ∨ c ∈ word := by
  cases word with
  | nil => exact absurd h List.not_mem_nil
  | cons first rest =>
    rw [guardDigit] at h
    split at h
    · exact List.mem_cons.mp h
    · exact Or.inr h

theorem isIdentChar_of_eq_or {c : Char} (h : c = '_' ∨ c.isAlphanum = true) :
    isIdentChar c = true := by
  rcases h with rfl | hc
  · decide
  · simp [isIdentChar, hc]

theorem isIdentChar_of_mem_pascalWords {words : List (List Char)}
    (h : ∀ word ∈ words, ∀ c ∈ word, c.isAlphanum = true) :
    ∀ c ∈ pascalWords words, isIdentChar c = true := by
  intro c hc
  apply isIdentChar_of_eq_or
  cases words with
  | nil => exact absurd hc List.not_mem_nil
  | cons first rest =>
    rcases List.mem_append.mp hc with hc | hc
    · exact Or.inr (isAlphanum_of_mem_capitalize (h first List.mem_cons_self) c hc)
    · obtain ⟨word, hword, hc⟩ := List.mem_flatMap.mp hc
      refine (mem_guardDigit hc).imp_right ?_
      exact isAlphanum_of_mem_capitalize (h word (List.mem_cons_of_mem first hword)) c

/-- A name in Pascal case has letters, digits and underscores only. -/
theorem isIdentChar_of_mem_pascalCase {name : String} {c : Char}
    (h : c ∈ (pascalCase name).toList) : isIdentChar c = true := by
  rw [pascalCase, String.toList_ofList] at h
  exact isIdentChar_of_mem_pascalWords (fun word hword c => isAlphanum_of_mem_splitWords hword) c h

theorem mem_underscored {words : List (List Char)} {c : Char} (h : c ∈ underscored words) :
    c = '_' ∨ ∃ word ∈ words, c ∈ word := by
  induction words with
  | nil => exact absurd h List.not_mem_nil
  | cons first rest ih =>
    cases rest with
    | nil => exact Or.inr ⟨first, List.mem_cons_self, h⟩
    | cons second others =>
      rcases List.mem_append.mp h with h | h
      · exact Or.inr ⟨first, List.mem_cons_self, h⟩
      · rcases List.mem_cons.mp h with h | h
        · exact Or.inl h
        · refine (ih h).imp_right ?_
          rintro ⟨word, hword, hc⟩
          exact ⟨word, List.mem_cons_of_mem first hword, hc⟩

theorem isIdentChar_of_mem_underscored {words : List (List Char)}
    (h : ∀ word ∈ words, ∀ c ∈ word, c.isAlphanum = true) :
    ∀ c ∈ underscored words, isIdentChar c = true := by
  intro c hc
  refine isIdentChar_of_eq_or ((mem_underscored hc).imp_right ?_)
  rintro ⟨word, hword, hc⟩
  exact h word hword c hc

/-- The name of a constant has letters, digits and underscores only. -/
theorem isIdentChar_of_mem_constantCase {name : String} {c : Char}
    (h : c ∈ (constantCase name).toList) : isIdentChar c = true := by
  rw [constantCase, String.toList_ofList] at h
  refine isIdentChar_of_mem_underscored ?_ c h
  intro word hword c hc
  obtain ⟨small, hsmall, rfl⟩ := List.mem_map.mp hword
  obtain ⟨c', hc', rfl⟩ := List.mem_map.mp hc
  exact isAlphanum_toUpper (isAlphanum_of_mem_splitWords hsmall hc')

theorem exists_first_of_startsAndContinues {first other : Char → Bool} {cs : List Char}
    (h : startsAndContinues first other cs = true) : ∃ c ∈ cs, first c = true := by
  cases cs with
  | nil => cases h
  | cons c rest =>
    rw [startsAndContinues, Bool.and_eq_true] at h
    exact ⟨c, List.mem_cons_self, h.1⟩

theorem isIdentChar_of_startsAndContinues {cs : List Char}
    (h : startsAndContinues (fun c => c.isAlpha || c == '_') isIdentChar cs = true) :
    ∀ c ∈ cs, isIdentChar c = true := by
  cases cs with
  | nil => cases h
  | cons first rest =>
    rw [startsAndContinues, Bool.and_eq_true] at h
    obtain ⟨hfirst, hrest⟩ := h
    intro c hc
    rcases List.mem_cons.mp hc with rfl | hc
    · rw [Bool.or_eq_true] at hfirst
      rcases hfirst with halpha | hunderscore
      · simp [isIdentChar, Char.isAlphanum, halpha]
      · simp [isIdentChar, hunderscore]
    · exact List.all_eq_true.mp hrest c hc

/-! ## Numbers -/

theorem isDigit_of_mem_repr {n : Nat} {c : Char} (h : c ∈ n.repr.toList) : c.isDigit = true := by
  rw [Nat.toList_repr] at h
  exact Nat.isDigit_of_mem_toDigits (by decide) (by decide) h

/-- A number has digits and a minus sign only. -/
theorem isDigit_or_minus_of_mem_toString {n : Int} {c : Char} (h : c ∈ (toString n).toList) :
    c.isDigit = true ∨ c = '-' := by
  rw [Int.toString_eq_repr, Int.repr_eq_if] at h
  split at h
  · exact Or.inl (isDigit_of_mem_repr h)
  · rw [String.toList_append, List.mem_append] at h
    rcases h with h | h
    · exact Or.inr (List.mem_singleton.mp h)
    · exact Or.inl (isDigit_of_mem_repr h)

end XdrCompiler.Naming
