/-
# XdrCompiler.Proofs.SwitchLiterals -- which pattern takes which literal

A switch value is written in two forms, as the literal that is encoded and as
the pattern that a decoded value is matched with. Integers, labels and truth
values share the variant names (`0` and `"v0"` are both `V0`), and a union
tells its switches apart by these names alone. The written forms are at least
as fine: where the pattern of one value takes the literal of another, both have
one variant name (`ident_eq_of_denotes`).

What keeps the three kinds apart is their spelling. A label has a colon and does
not end in a parenthesis, a number is digits and a sign, and `true` and `false`
have neither.
-/
import XdrCompiler.Proofs.NameCharacters
import XdrCompiler.Schema.Union

namespace XdrCompiler

/-! ## Patterns -/

/-- A name as a pattern takes every value; `true` and `false` are no names. -/
def bindsAll (pattern : String) : Bool :=
  Naming.startsAndContinues (fun c => c.isAlpha || c == '_') Naming.isIdentChar pattern.toList &&
    pattern != "true" && pattern != "false"

/-- A literal of the discriminant type is what the pattern stands for: it is spelled like the
pattern, or it is the pattern cast to the type. -/
def Denotes (discriminant pattern literal : String) : Prop :=
  literal = pattern ∨ literal = "(" ++ pattern ++ " as " ++ discriminant ++ ")"

instance (discriminant pattern literal : String) :
    Decidable (Denotes discriminant pattern literal) :=
  inferInstanceAs (Decidable (_ ∨ _))

theorem ne_of_mem_toList {s t : String} {c : Char} (hs : c ∈ s.toList) (ht : c ∉ t.toList) :
    s ≠ t := by
  rintro rfl
  exact ht hs

namespace SwitchValue

variable (discriminant : String)

/-! ## Spelling -/

theorem not_mem_toString (n : Int) {c : Char} (hdigit : c.isDigit = false) (hminus : c ≠ '-') :
    c ∉ (toString n).toList := by
  intro h
  rcases Naming.isDigit_or_minus_of_mem_toString h with h | h
  · rw [hdigit] at h
    cases h
  · exact hminus h

theorem label_ne_number (s : String) (n : Int) :
    discriminant ++ "::" ++ Naming.pascalCase s ≠ toString n := by
  have hcolon : ':' ∈ (discriminant ++ "::" ++ Naming.pascalCase s).toList := by simp
  exact ne_of_mem_toList hcolon (not_mem_toString n (by decide) (by decide))

theorem truth_ne_number (b : Bool) (n : Int) : (if b then "true" else "false") ≠ toString n := by
  have he : 'e' ∈ (if b then "true" else "false" : String).toList := by cases b <;> decide
  exact ne_of_mem_toList he (not_mem_toString n (by decide) (by decide))

theorem label_ne_truth (s : String) (b : Bool) :
    discriminant ++ "::" ++ Naming.pascalCase s ≠ if b then "true" else "false" := by
  have hcolon : ':' ∈ (discriminant ++ "::" ++ Naming.pascalCase s).toList := by simp
  exact ne_of_mem_toList hcolon (by cases b <;> decide)

theorem label_ne_append_paren (s x : String) :
    discriminant ++ "::" ++ Naming.pascalCase s ≠ x ++ ")" := by
  intro h
  have hlast := congrArg (fun t => t.toList.getLast?) h
  simp only [String.toList_append, List.getLast?_append] at hlast
  cases hp : (Naming.pascalCase s).toList.getLast? with
  | none =>
    -- An empty name leaves the colon at the end.
    rw [hp] at hlast
    exact absurd hlast (by simp)
  | some c =>
    rw [hp] at hlast
    have hc : c = ')' := by simpa using hlast
    have hident := Naming.isIdentChar_of_mem_pascalCase (List.mem_of_getLast? hp)
    rw [hc] at hident
    exact absurd hident (by decide)

/-! ## Patterns and literals of switch values -/

/-- Values with one pattern belong to one variant. -/
theorem ident_eq_of_pattern_eq {v w : SwitchValue}
    (h : v.pattern discriminant = w.pattern discriminant) : v.ident = w.ident := by
  cases v with
  | number n =>
    rw [pattern_number] at h
    cases w with
    | number m => rw [Int.repr_injective h]
    | label t => exact absurd h.symm (label_ne_number discriminant t n)
    | truth b =>
      rw [pattern_truth] at h
      exact absurd h.symm (truth_ne_number b n)
  | label s =>
    rw [pattern_label] at h
    cases w with
    | number m => exact absurd h (label_ne_number discriminant s m)
    | label t => exact (String.append_right_inj _).mp h
    | truth b =>
      rw [pattern_truth] at h
      exact absurd h (label_ne_truth discriminant s b)
  | truth b =>
    rw [pattern_truth] at h
    cases w with
    | number m => exact absurd h (truth_ne_number b m)
    | label t => exact absurd h.symm (label_ne_truth discriminant t b)
    | truth b' =>
      rw [pattern_truth] at h
      have hb : b = b' := by
        revert h
        cases b <;> cases b' <;> decide
      rw [hb]

theorem cast_ne_pattern (x : String) (v : SwitchValue) :
    "(" ++ x ++ " as " ++ discriminant ++ ")" ≠ v.pattern discriminant := by
  have hparen : '(' ∈ ("(" ++ x ++ " as " ++ discriminant ++ ")").toList := by simp
  cases v with
  | number n => exact ne_of_mem_toList hparen (not_mem_toString n (by decide) (by decide))
  | label s => exact (label_ne_append_paren discriminant s _).symm
  | truth b =>
    rw [pattern_truth]
    exact ne_of_mem_toList hparen (by cases b <;> decide)

/-- The pattern of a value takes the literal of the same value. -/
theorem denotes_self (v : SwitchValue) :
    Denotes discriminant (v.pattern discriminant) (v.encoded discriminant) := by
  cases v with
  | number n => exact Or.inr rfl
  | label s => exact Or.inl rfl
  | truth b => exact Or.inl (by rw [encoded_truth, pattern_truth])

/-- Where the pattern of one value takes the literal of another, both belong to one variant. -/
theorem ident_eq_of_denotes {v w : SwitchValue}
    (h : Denotes discriminant (v.pattern discriminant) (w.encoded discriminant)) :
    v.ident = w.ident := by
  -- A literal is its own pattern or the cast of it, and no pattern is a cast.
  rcases denotes_self discriminant w with hw | hw
  · rcases h with h | h
    · exact ident_eq_of_pattern_eq discriminant (h.symm.trans hw)
    · exact absurd (h.symm.trans hw) (cast_ne_pattern discriminant _ w)
  · rcases h with h | h
    · exact absurd (hw.symm.trans h) (cast_ne_pattern discriminant _ v)
    · have hcast := h.symm.trans hw
      simp only [String.append_left_inj, String.append_right_inj] at hcast
      exact ident_eq_of_pattern_eq discriminant hcast

theorem ident_eq_of_encoded_eq {v w : SwitchValue}
    (h : v.encoded discriminant = w.encoded discriminant) : v.ident = w.ident := by
  apply ident_eq_of_denotes discriminant
  rw [← h]
  exact denotes_self discriminant v

/-- No switch value is matched with a name, which would take every value. -/
theorem bindsAll_pattern (v : SwitchValue) : bindsAll (v.pattern discriminant) = false := by
  rw [Bool.eq_false_iff]
  intro h
  simp only [bindsAll, Bool.and_eq_true, bne_iff_ne] at h
  obtain ⟨⟨hname, htrue⟩, hfalse⟩ := h
  cases v with
  | number n =>
    obtain ⟨c, hc, hfirst⟩ := Naming.exists_first_of_startsAndContinues hname
    rcases Naming.isDigit_or_minus_of_mem_toString hc with hdigit | rfl
    · rw [Naming.not_isAlpha_of_isDigit hdigit, Bool.false_or, beq_iff_eq] at hfirst
      subst hfirst
      exact absurd hdigit (by decide)
    · exact absurd hfirst (by decide)
  | label s =>
    have hcolon : ':' ∈ (discriminant ++ "::" ++ Naming.pascalCase s).toList := by simp
    exact absurd (Naming.isIdentChar_of_startsAndContinues hname ':' hcolon) (by decide)
  | truth b =>
    rw [pattern_truth] at htrue hfalse
    cases b
    · exact hfalse rfl
    · exact htrue rfl

theorem pattern_ne_code (v : SwitchValue) : v.pattern discriminant ≠ "code" := by
  intro h
  have hbinds := bindsAll_pattern discriminant v
  rw [h] at hbinds
  exact absurd hbinds (by decide)

theorem encoded_ne_code (v : SwitchValue) : v.encoded discriminant ≠ "code" := by
  rcases denotes_self discriminant v with h | h
  · rw [h]
    exact pattern_ne_code discriminant v
  · have hparen : '(' ∈ (v.encoded discriminant).toList := by rw [h]; simp
    exact ne_of_mem_toList hparen (by decide)

end SwitchValue

end XdrCompiler
