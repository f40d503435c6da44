/-
# XdrCompiler.Proofs.AcceptedNames -- the languages of accepted names

What a user may give as the name of a type, of a feature and of the output file
is a regular language each, over ASCII letters, digits and a few marks. None of
their words has a newline in it. The three checks are meant to let exactly these
words pass.

They let pass one thing more: any of these words with a newline at its end
(`accepted_up_to_newline`, `newline_accepted`). Up to that they are exact, and a
name that passes is returned as it was given.
-/
import Mathlib
import XdrCompiler.Command.Config

namespace XdrCompiler

open scoped Computability

namespace Naming

/-! ## Alphabets -/

/-- An ASCII letter. -/
def Letter (c : Char) : Prop := 'A' ≤ c ∧ c ≤ 'Z' ∨ 'a' ≤ c ∧ c ≤ 'z'

/-- An ASCII digit. -/
def Digit (c : Char) : Prop := '0' ≤ c ∧ c ≤ '9'

instance (c : Char) : Decidable (Letter c) := inferInstanceAs (Decidable (_ ∨ _))

instance (c : Char) : Decidable (Digit c) := inferInstanceAs (Decidable (_ ∧ _))

theorem isAlpha_iff {c : Char} : c.isAlpha = true ↔ Letter c := by
  simp [Char.isAlpha, Char.isUpper, Char.isLower, Letter, Char.le_def]

theorem isDigit_iff {c : Char} : c.isDigit = true ↔ Digit c := by
  simp [Char.isDigit, Digit, Char.le_def]

theorem isIdentChar_iff {c : Char} : isIdentChar c = true ↔ Letter c ∨ Digit c ∨ c = '_' := by
  simp [isIdentChar, Char.isAlphanum, isAlpha_iff, isDigit_iff, or_assoc]

/-! ## Languages -/

/-- The words of a single character that satisfies `p`. -/
def oneOf (p : Char → Prop) : Language Char := {w | ∃ c, p c ∧ w = [c]}

/-- A letter or underscore, then letters, digits and underscores. -/
def typeNames : Language Char :=
  oneOf (fun c => Letter c ∨ c = '_') * (oneOf fun c => Letter c ∨ Digit c ∨ c = '_')∗

/-- Letters, digits, underscores and hyphens, without a hyphen in front. -/
def featureNames : Language Char :=
  oneOf (fun c => Letter c ∨ Digit c ∨ c = '_') *
    (oneOf fun c => Letter c ∨ Digit c ∨ c = '_' ∨ c = '-')∗

/-- Letters, digits, underscores, dots and hyphens, without a dot or hyphen in front, and then
`.rs`. The dots may be part of further endings. -/
def fileNames : Language Char :=
  oneOf (fun c => Letter c ∨ Digit c ∨ c = '_') *
    (oneOf fun c => Letter c ∨ Digit c ∨ c = '_' ∨ c = '.' ∨ c = '-')∗ * {['.', 'r', 's']}

/-- At most one newline. -/
def lineEnd : Language Char := 1 + {['\n']}

theorem mem_star_oneOf {p : Char → Prop} {w : List Char} : w ∈ (oneOf p)∗ ↔ ∀ c ∈ w, p c := by
  constructor
  · rintro ⟨pieces, rfl, hpieces⟩ c hc
    obtain ⟨piece, hpiece, hc⟩ := List.mem_flatten.mp hc
    obtain ⟨c', hc', rfl⟩ := hpieces piece hpiece
    rwa [List.mem_singleton.mp hc]
  · intro h
    induction w with
    | nil => exact Language.nil_mem_kstar _
    | cons c rest ih =>
      obtain ⟨hc, hrest⟩ := List.forall_mem_cons.mp h
      have hword : [c] ++ rest ∈ oneOf p * (oneOf p)∗ :=
        Language.append_mem_mul ⟨c, hc, rfl⟩ (ih hrest)
      have hstar : oneOf p * (oneOf p)∗ ≤ (oneOf p)∗ := mul_kstar_le_kstar
      exact hstar hword

theorem mem_oneOf_mul_star {p q : Char → Prop} {w : List Char} :
    w ∈ oneOf p * (oneOf q)∗ ↔ ∃ c rest, w = c :: rest ∧ p c ∧ ∀ c ∈ rest, q c := by
  rw [Language.mem_mul]
  constructor
  · rintro ⟨_, ⟨c, hc, rfl⟩, rest, hrest, rfl⟩
    exact ⟨c, rest, rfl, hc, mem_star_oneOf.mp hrest⟩
  · rintro ⟨c, rest, rfl, hc, hrest⟩
    exact ⟨[c], ⟨c, hc, rfl⟩, rest, mem_star_oneOf.mpr hrest, rfl⟩

theorem startsAndContinues_iff {first other : Char → Bool} {p q : Char → Prop}
    (hfirst : ∀ c, first c = true ↔ p c) (hother : ∀ c, other c = true ↔ q c) {cs : List Char} :
    startsAndContinues first other cs = true ↔ cs ∈ oneOf p * (oneOf q)∗ := by
  rw [mem_oneOf_mul_star]
  cases cs with
  | nil => simp [startsAndContinues]
  | cons c rest => simp [startsAndContinues, hfirst, hother]

/-! ## Newlines -/

/-- No word has a newline. -/
def Unbroken (language : Language Char) : Prop := ∀ w ∈ language, '\n' ∉ w

theorem unbroken_oneOf_mul_star {p q : Char → Prop} (hp : ¬p '\n') (hq : ¬q '\n') :
    Unbroken (oneOf p * (oneOf q)∗) := by
  intro w hw hnewline
  obtain ⟨c, rest, rfl, hc, hrest⟩ := mem_oneOf_mul_star.mp hw
  rcases List.mem_cons.mp hnewline with rfl | hnewline
  · exact hp hc
  · exact hq (hrest '\n' hnewline)

theorem Unbroken.mul {l m : Language Char} (hl : Unbroken l) (hm : Unbroken m) :
    Unbroken (l * m) := by
  rintro _ ⟨a, ha, b, hb, rfl⟩ hnewline
  rcases List.mem_append.mp hnewline with hnewline | hnewline
  · exact hl a ha hnewline
  · exact hm b hb hnewline

theorem unbroken_typeNames : Unbroken typeNames :=
  unbroken_oneOf_mul_star (by decide) (by decide)

theorem unbroken_featureNames : Unbroken featureNames :=
  unbroken_oneOf_mul_star (by decide) (by decide)

theorem unbroken_fileNames : Unbroken fileNames := by
  refine (unbroken_oneOf_mul_star (by decide) (by decide)).mul ?_
  rintro _ rfl
  decide

theorem mem_mul_lineEnd {language : Language Char} {w : List Char} :
    w ∈ language * lineEnd ↔ w ∈ language ∨ w ∈ language * {['\n']} := by
  rw [lineEnd, mul_add, mul_one, Language.mem_add]

theorem not_mem_of_mem_mul_newline {language : Language Char} (h : Unbroken language)
    {w : List Char} (hw : w ∈ language * {['\n']}) : w ∉ language := by
  obtain ⟨word, -, _, rfl, rfl⟩ := hw
  intro hmem
  exact h _ hmem (by simp)

/-- Dropping a newline from the end leaves a word exactly if there was a word before it. -/
theorem chomp_mem_iff {language : Language Char} (h : Unbroken language) {cs : List Char} :
    chomp cs ∈ language ↔ cs ∈ language * lineEnd := by
  rw [Language.mem_mul]
  constructor
  · intro hmem
    unfold chomp at hmem
    split at hmem
    · next hlast =>
      obtain ⟨init, rfl⟩ := List.getLast?_eq_some_iff.mp hlast
      rw [List.dropLast_concat] at hmem
      exact ⟨init, hmem, ['\n'], Or.inr rfl, rfl⟩
    · exact ⟨cs, hmem, [], Or.inl rfl, List.append_nil cs⟩
  · rintro ⟨word, hword, ending, hempty | hnewline, rfl⟩
    · rw [(Language.mem_one ending).mp hempty, List.append_nil, chomp, if_neg]
      · exact hword
      · intro hlast
        exact h word hword (List.mem_of_getLast? hlast)
    · rw [Set.mem_singleton_iff.mp hnewline, chomp, if_pos List.getLast?_concat,
        List.dropLast_concat]
      exact hword

/-! ## The three tests -/

theorem isTypeName_iff {name : String} :
    isTypeName name = true ↔ name.toList ∈ typeNames * lineEnd := by
  rw [← chomp_mem_iff unbroken_typeNames]
  exact startsAndContinues_iff (by simp [isAlpha_iff]) fun _ => isIdentChar_iff

theorem isFeatureName_iff {name : String} :
    isFeatureName name = true ↔ name.toList ∈ featureNames * lineEnd := by
  rw [← chomp_mem_iff unbroken_featureNames]
  exact startsAndContinues_iff (fun _ => isIdentChar_iff) (by simp [isIdentChar_iff, or_assoc])

/-- The stem is what stands before the last `.rs`, whatever the stem itself ends in. -/
theorem stem?_eq_some_iff {cs stem : List Char} :
    stem? cs = some stem ↔ cs = stem ++ ['.', 'r', 's'] := by
  constructor
  · intro h
    unfold stem? at h
    split at h
    · next rest hrest =>
      cases h
      rw [← List.reverse_reverse cs, hrest]
      simp
    · cases h
  · rintro rfl
    simp [stem?]

theorem isFileName_iff {name : String} :
    isFileName name = true ↔ name.toList ∈ fileNames * lineEnd := by
  have hstart {stem : List Char} :
      startsAndContinues isIdentChar (fun c => isIdentChar c || c == '.' || c == '-') stem = true ↔
        stem ∈ oneOf (fun c => Letter c ∨ Digit c ∨ c = '_') *
          (oneOf fun c => Letter c ∨ Digit c ∨ c = '_' ∨ c = '.' ∨ c = '-')∗ :=
    startsAndContinues_iff (fun _ => isIdentChar_iff) (by simp [isIdentChar_iff, or_assoc])
  rw [← chomp_mem_iff unbroken_fileNames, isFileName, fileNames, Language.mem_mul]
  constructor
  · intro h
    split at h
    · next stem hstem => exact ⟨stem, hstart.mp h, _, rfl, (stem?_eq_some_iff.mp hstem).symm⟩
    · cases h
  · rintro ⟨stem, hstem, _, rfl, hname⟩
    rw [stem?_eq_some_iff.mpr hname.symm]
    exact hstart.mpr hstem

end Naming

/-! ## The three checks -/

/-- What a check does with a name. The words of its language, and these with a newline behind them,
pass as they are; every other text is named in its complaint. So it is right about a name unless
that is a word with a newline behind it. -/
structure AcceptsUpToNewline (check : String → Except Failure String) (language : Language Char)
    (complaint : String → ConfigError) (name : String) : Prop where
  accepts : name.toList ∈ language * Naming.lineEnd → check name = .ok name
  refuses : name.toList ∉ language * Naming.lineEnd → check name = .error (.config (complaint name))
  right_iff : (check name = .ok name ↔ name.toList ∈ language) ↔
    name.toList ∉ language * {['\n']}

theorem acceptsUpToNewline_of_iff {accepted : String → Bool} {language : Language Char}
    (hunbroken : Naming.Unbroken language)
    (h : ∀ name, accepted name = true ↔ name.toList ∈ language * Naming.lineEnd)
    (complaint : String → ConfigError) (name : String) :
    AcceptsUpToNewline
      (fun name => if accepted name then .ok name else .error (.config (complaint name)))
      language complaint name where
  accepts hname := if_pos ((h name).mpr hname)
  refuses hname := if_neg fun haccepted => hname ((h name).mp haccepted)
  right_iff := by
    have hpasses : (if accepted name then Except.ok name
        else .error (Failure.config (complaint name))) = .ok name ↔
          name.toList ∈ language ∨ name.toList ∈ language * {['\n']} := by
      rw [← Naming.mem_mul_lineEnd, ← h]
      split <;> simp_all
    have hword : name.toList ∈ language * {['\n']} → name.toList ∉ language :=
      Naming.not_mem_of_mem_mul_newline hunbroken
    rw [hpasses]
    tauto

/-- Apart from a newline at the end, the checks let pass what they are meant to. -/
theorem accepted_up_to_newline (name : String) :
    AcceptsUpToNewline checkTypeName Naming.typeNames .typeName name ∧
      AcceptsUpToNewline checkFeatureName Naming.featureNames .featureName name ∧
      AcceptsUpToNewline checkFileName Naming.fileNames .fileName name :=
  ⟨acceptsUpToNewline_of_iff Naming.unbroken_typeNames (fun _ => Naming.isTypeName_iff) _ name,
    acceptsUpToNewline_of_iff Naming.unbroken_featureNames (fun _ => Naming.isFeatureName_iff) _
      name,
    acceptsUpToNewline_of_iff Naming.unbroken_fileNames (fun _ => Naming.isFileName_iff) _ name⟩

-- A further ending is part of the stem, and the stem may not be empty.
example :
    checkFileName "a.rs.rs" = .ok "a.rs.rs" ∧
      checkFileName ".rs" = .error (.config (.fileName ".rs")) := by
  decide

/-- None of these is a word of its language. -/
theorem newline_accepted :
    ("A\n".toList ∉ Naming.typeNames ∧ checkTypeName "A\n" = .ok "A\n") ∧
      ("a\n".toList ∉ Naming.featureNames ∧ checkFeatureName "a\n" = .ok "a\n") ∧
      ("a.rs\n".toList ∉ Naming.fileNames ∧ checkFileName "a.rs\n" = .ok "a.rs\n") := by
  refine ⟨⟨fun h => ?_, rfl⟩, ⟨fun h => ?_, rfl⟩, ⟨fun h => ?_, rfl⟩⟩
  · exact Naming.unbroken_typeNames _ h (by decide)
  · exact Naming.unbroken_featureNames _ h (by decide)
  · exact Naming.unbroken_fileNames _ h (by decide)

end XdrCompiler
