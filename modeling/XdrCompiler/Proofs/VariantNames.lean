/-
# XdrCompiler.Proofs.VariantNames -- variants that are named like a keyword

A case of an enum, and a switch value of a union that is a label, take a variant
whose name is the key in Pascal case. Where the key is an identifier, so is that
name, and it begins with a capital letter. Only one keyword of Rust does.

That one is `Self`, and nothing keeps it away: fields are guarded against
keywords, variants are not. `keyword_variant_iff_self` says which keys are hit.
They are the three spellings of `self` that are one word, with any number of
underscores behind it (`self_variant_is_keyword` has two of them).
-/
import XdrCompiler.Proofs.Compiled
import XdrCompiler.Proofs.RenderedAlike
import XdrCompiler.Schema.Enum

namespace XdrCompiler

namespace Naming

/-- An identifier of a schema: a letter, then letters, digits and underscores. -/
def isIdentifier (name : String) : Bool := startsAndContinues Char.isAlpha isIdentChar name.toList

/-- An identifier that begins with a capital letter. -/
def isVariantName (ident : String) : Bool :=
  startsAndContinues Char.isUpper isIdentChar ident.toList

/-- One of the spellings of `self` that are one word, underscores behind it. -/
def SpellsSelf (key : String) : Prop :=
  ∃ word ∈ ["self", "Self", "SELF"], ∃ n, key.toList = word.toList ++ List.replicate n '_'

/-! ## Identifiers in Pascal case -/

theorem isIdentifier_iff {key : String} :
    isIdentifier key = true ↔
      ∃ c rest, key.toList = c :: rest ∧ c.isAlpha = true ∧ ∀ d ∈ rest, isIdentChar d = true := by
  rw [isIdentifier]
  cases key.toList with
  | nil => simp [startsAndContinues]
  | cons c rest => simp [startsAndContinues]

theorem isVariantName_pascalCase {key : String} (h : isIdentifier key = true) :
    isVariantName (pascalCase key) = true := by
  obtain ⟨c, rest, hkey, hc, -⟩ := isIdentifier_iff.mp h
  obtain ⟨small, others, hwords⟩ :=
    exists_first_word (c := c) (by simp [Char.isAlphanum, hc]) rest
  have hchars : (pascalCase key).toList = c.toUpper ::
      (small.map Char.toLower ++ (others.map fun w => guardDigit (capitalize w)).flatten) := by
    rw [pascalCase, String.toList_ofList, hkey, hwords, pascalWords_cons]
  have hident : ∀ d ∈ (pascalCase key).toList, isIdentChar d = true :=
    fun d => isIdentChar_of_mem_pascalCase
  rw [hchars] at hident
  obtain ⟨-, hothers⟩ := List.forall_mem_cons.mp hident
  rw [isVariantName, hchars, startsAndContinues, Bool.and_eq_true]
  exact ⟨by simpa using hc, List.all_eq_true.mpr hothers⟩

/-- Among the keywords there is one with a capital letter in front. -/
theorem eq_Self_of_mem_reservedWords :
    ∀ word ∈ reservedWords, isVariantName word = true → word = "Self" := by
  decide +kernel

theorem mem_reservedWords_iff {ident : String} (h : isVariantName ident = true) :
    ident ∈ reservedWords ↔ ident = "Self" := by
  constructor
  · intro hmem
    exact eq_Self_of_mem_reservedWords ident hmem h
  · rintro rfl
    decide

/-! ## Names of one word -/

/-- Behind a letter or digit that ends the last word there are no further ones. -/
theorem not_isAlphanum_of_splitWords {cs : List Char} (h : splitWords cs = []) :
    ∀ c ∈ cs, c.isAlphanum = false := by
  have hfilter : cs.filter Char.isAlphanum = [] := by rw [← flatten_splitWords, h, List.flatten_nil]
  simpa using List.filter_eq_nil_iff.mp hfilter

theorem splitWords_replicate_underscore (n : Nat) : splitWords (List.replicate n '_') = [] := by
  induction n with
  | zero => rfl
  | succ n ih =>
    rw [List.replicate_succ, splitWords, if_neg (by decide), ih]

/-- A name that begins with its only word has nothing but separators behind it. -/
theorem exists_separators {c : Char} {rest word : List Char} (hc : c.isAlphanum = true)
    (h : splitWords (c :: rest) = [word]) :
    ∃ separators, c :: rest = word ++ separators ∧ ∀ s ∈ separators, s.isAlphanum = false := by
  induction rest generalizing c word with
  | nil =>
    rw [splitWords, if_pos hc] at h
    cases h
    exact ⟨[], rfl, by simp⟩
  | cons d next ih =>
    rw [splitWords, if_pos hc] at h
    split at h
    · next hcontinues =>
      -- The word goes on with `d`, so that the rest is again a name of one word.
      have hd : d.isAlphanum = true := by
        rw [continues, Bool.and_eq_true] at hcontinues
        exact hcontinues.1
      obtain ⟨small, others, hwords⟩ := exists_first_word hd next
      rw [hwords] at h
      cases h
      obtain ⟨separators, hnext, hseparators⟩ := ih hd hwords
      exact ⟨separators, congrArg (c :: ·) hnext, hseparators⟩
    · obtain ⟨rfl, hnil⟩ := List.cons_eq_cons.mp h
      exact ⟨d :: next, rfl, not_isAlphanum_of_splitWords hnil⟩

theorem eq_or_eq_toUpper {c d : Char} (h : c.toLower = d) : c = d ∨ c = d.toUpper := by
  by_cases hupper : c.isUpper = true
  · right
    have hc : c.toUpper = c :=
      Char.toUpper_eq_of_not_isLower (Char.not_isLower_of_isUpper hupper)
    rw [← h, Char.toUpper_toLower_eq_toUpper, hc]
  · left
    rw [← h, Char.toLower_eq_of_not_isUpper hupper]

/-- Small letters, a capital in front, or capitals throughout: in any other spelling of `self` a
word ends before its last letter. -/
theorem spelling_of_splitWords {word : List Char} {n : Nat}
    (hself : word.map Char.toLower = ['s', 'e', 'l', 'f'])
    (h : splitWords (word ++ List.replicate n '_') = [word]) :
    ∃ spelling ∈ ["self", "Self", "SELF"], spelling.toList = word := by
  obtain ⟨c₁, rest₁, rfl, h₁, hself⟩ := List.map_eq_cons_iff.mp hself
  obtain ⟨c₂, rest₂, rfl, h₂, hself⟩ := List.map_eq_cons_iff.mp hself
  obtain ⟨c₃, rest₃, rfl, h₃, hself⟩ := List.map_eq_cons_iff.mp hself
  obtain ⟨c₄, rest₄, rfl, h₄, hself⟩ := List.map_eq_cons_iff.mp hself
  cases List.map_eq_nil_iff.mp hself
  rcases eq_or_eq_toUpper h₁ with rfl | rfl <;> rcases eq_or_eq_toUpper h₂ with rfl | rfl <;>
    rcases eq_or_eq_toUpper h₃ with rfl | rfl <;> rcases eq_or_eq_toUpper h₄ with rfl | rfl <;>
    simp [splitWords, continues, breaksBetween, joinFront] at h ⊢

/-- In an identifier only underscores separate. -/
theorem eq_replicate_of_separators {key : String} (h : isIdentifier key = true)
    {separators : List Char} (hkey : ∀ s ∈ separators, s ∈ key.toList)
    (hseparators : ∀ s ∈ separators, s.isAlphanum = false) :
    separators = List.replicate separators.length '_' := by
  obtain ⟨c, rest, hchars, hc, hrest⟩ := isIdentifier_iff.mp h
  refine List.eq_replicate_of_mem ?_
  intro s hs
  have hident : isIdentChar s = true := by
    have hmem := hkey s hs
    rw [hchars] at hmem
    rcases List.mem_cons.mp hmem with rfl | hmem
    · simp [isIdentChar, Char.isAlphanum, hc]
    · exact hrest s hmem
  simpa [isIdentChar, hseparators s hs] using hident

theorem foldedWords_eq_self_iff {key : String} (h : isIdentifier key = true) :
    foldedWords key = foldedWords "self" ↔ SpellsSelf key := by
  have hself : foldedWords "self" = [['s', 'e', 'l', 'f']] := by decide
  rw [hself]
  constructor
  · intro hfolded
    obtain ⟨word, hwords, hword⟩ := List.map_eq_singleton_iff.mp hfolded
    obtain ⟨c, rest, hkey, hc, -⟩ := isIdentifier_iff.mp h
    rw [hkey] at hwords
    obtain ⟨separators, hsplit, hseparators⟩ :=
      exists_separators (by simp [Char.isAlphanum, hc]) hwords
    have hreplicate := eq_replicate_of_separators h
      (fun s hs => by rw [hkey, hsplit]; exact List.mem_append_right word hs) hseparators
    rw [hsplit, hreplicate] at hwords
    obtain ⟨spelling, hspelling, rfl⟩ := spelling_of_splitWords hword hwords
    exact ⟨spelling, hspelling, separators.length, by rw [hkey, hsplit, ← hreplicate]⟩
  · rintro ⟨spelling, hspelling, n, hkey⟩
    rw [foldedWords, hkey]
    simp only [List.mem_cons, List.not_mem_nil, or_false] at hspelling
    rcases hspelling with rfl | rfl | rfl <;> cases n <;>
      simp [splitWords, continues, breaksBetween, joinFront, List.replicate_succ,
        splitWords_replicate_underscore]

end Naming

/-! ## Variants of enums and unions -/

/-- What the name of a variant is like whose key is an identifier. -/
structure VariantNaming (key ident : String) : Prop where
  capitalized : Naming.isVariantName ident = true
  keyword_iff : ident ∈ Naming.reservedWords ↔ Naming.SpellsSelf key

theorem variantNaming_pascalCase {key : String} (h : Naming.isIdentifier key = true) :
    VariantNaming key (Naming.pascalCase key) := by
  have hname := Naming.isVariantName_pascalCase h
  refine ⟨hname, ?_⟩
  have hself : Naming.pascalCase "self" = "Self" := by decide
  rw [Naming.mem_reservedWords_iff hname, ← hself, Naming.pascalCase_eq_iff,
    Naming.foldedWords_eq_self_iff h]

/-- The variant for an identifier is named by an identifier, and that is a keyword exactly if the
key spells `self`. -/
theorem keyword_variant_iff_self {key : String} (h : Naming.isIdentifier key = true) :
    (∀ (name : String) (cases : Table String Int) (i : Nat) (value : Int),
      cases.entries[i]? = some (key, value) →
        ∃ c, (EnumDecl.compile name cases).cases[i]? = some c ∧ c.value = value ∧
          VariantNaming key c.ident) ∧
      ∀ (beginnings : List String) (name : String) (d : UnionDefinition) (resolved : XdrType)
        (u : UnionDecl) (i : Nat) (arm : Arm),
        UnionDecl.compile beginnings name d resolved = .ok u →
          d.switches[i]? = some (.label key, arm) →
            ∃ v, u.variants[i]? = some v ∧ v.value = .label key ∧ VariantNaming key v.ident := by
  have hnaming := variantNaming_pascalCase h
  refine ⟨?_, ?_⟩
  · intro name cases i value hentry
    refine ⟨⟨Naming.pascalCase key, value⟩, ?_, rfl, hnaming⟩
    rw [EnumDecl.compile, List.getElem?_map, hentry]
    rfl
  · intro beginnings name d resolved u i arm hcompile hswitch
    obtain ⟨v, hv, hident, hvalue, -⟩ :=
      exists_result_of_getElem? (UnionDecl.forall₂_variants hcompile) hswitch
    refine ⟨v, hv, hvalue, ?_⟩
    rw [hident]
    exact hnaming

/-- A union with one switch. -/
def curveChoice : UnionDefinition :=
  ⟨.reference "Kind", "kind", [(.label "selfCURVE_25519", .empty)], Table.empty, none⟩

/-- A key with digits and several word ends, `self` being one of its words. -/
theorem keyword_variant_iff_self_curve :
    Naming.isIdentifier "selfCURVE_25519" = true ∧
      (∃ c, (EnumDecl.compile "Kind" (Table.ofList [("selfCURVE_25519", 7)])).cases[0]? = some c ∧
        c.value = 7 ∧ VariantNaming "selfCURVE_25519" c.ident) ∧
      (UnionDecl.compile [] "Choice" curveChoice .bool).toBool = true ∧
      ∀ u, UnionDecl.compile [] "Choice" curveChoice .bool = .ok u →
        ∃ v, u.variants[0]? = some v ∧ v.value = .label "selfCURVE_25519" ∧
          VariantNaming "selfCURVE_25519" v.ident := by
  have hkey : Naming.isIdentifier "selfCURVE_25519" = true := by decide
  obtain ⟨henum, hunion⟩ := keyword_variant_iff_self hkey
  refine ⟨hkey, henum "Kind" (Table.ofList [("selfCURVE_25519", 7)]) 0 7 rfl, rfl, ?_⟩
  intro u hu
  exact hunion [] "Choice" curveChoice .bool u 0 .empty hu rfl

/-- Both of an enum and of a union. -/
theorem self_variant_is_keyword :
    Naming.isIdentifier "SELF" = true ∧ Naming.isIdentifier "self_" = true ∧
      "Self" ∈ Naming.reservedWords ∧
      (EnumDecl.compile "Kind" (Table.ofList [("SELF", 0)])).cases.map EnumCase.ident = ["Self"] ∧
      (SwitchValue.label "self_").ident = "Self" := by
  decide +kernel

end XdrCompiler
