/-
# XdrCompiler.Proofs.SnakeCase -- names in snake case

A name in snake case is its words in small letters with an underscore between each
two of them. Without capitals a word ends only where something separates it from the
next, so that the words can be read back from it (`splitWords_snakeCase`). Snake case
is therefore a normal form: writing a name in it first changes none of the renderings
(`snakeCase_normal_form`). The names of constants have no such law, since a capital
behind a digit begins a word that the name did not have.

Fields are named in snake case, and a keyword has an underscore put behind it. That
makes every key the name of a field which is no keyword (`fieldIdentifier_safe`). It is
an identifier if the first letter or digit of the key is a letter.
-/
import XdrCompiler.Proofs.VariantNames

namespace XdrCompiler.Naming

/-! ## Words read back from snake case -/

/-- A word without capitals, in front of something else than letters and digits. -/
theorem splitWords_append_of_small {w rest : List Char} (hw : IsWord w)
    (hsmall : ∀ c ∈ w, c.isUpper = false) (hrest : rest.head?.any Char.isAlphanum = false) :
    splitWords (w ++ rest) = w :: splitWords rest := by
  obtain ⟨hne, halnum⟩ := hw
  induction w with
  | nil => exact absurd rfl hne
  | cons c w' ih =>
    have hc : c.isAlphanum = true := halnum c List.mem_cons_self
    rw [List.cons_append, splitWords, if_pos hc]
    cases w' with
    | nil =>
      have hends : continues c rest = false := by
        cases rest with
        | nil => rfl
        | cons d next =>
          have hd : d.isAlphanum = false := hrest
          simp [continues, hd]
      simp [hends]
    | cons d w'' =>
      obtain ⟨-, halnum'⟩ := List.forall_mem_cons.mp halnum
      obtain ⟨-, hsmall'⟩ := List.forall_mem_cons.mp hsmall
      -- A word would end only before a capital, and `d` is none.
      have hgoes : continues c (d :: w'' ++ rest) = true := by
        have hd := halnum' d List.mem_cons_self
        have hd' := hsmall' d List.mem_cons_self
        simp [continues, breaksBetween, hd, hd']
      rw [if_pos hgoes, ih hsmall' (List.cons_ne_nil d w'') halnum', joinFront]

theorem splitWords_underscored {ws : List (List Char)} (hws : ∀ w ∈ ws, IsWord w)
    (hsmall : ∀ w ∈ ws, ∀ c ∈ w, c.isUpper = false) : splitWords (underscored ws) = ws := by
  induction ws with
  | nil => rfl
  | cons w rest ih =>
    obtain ⟨hw, hrest⟩ := List.forall_mem_cons.mp hws
    obtain ⟨hw', hrest'⟩ := List.forall_mem_cons.mp hsmall
    cases rest with
    | nil =>
      have hlast : splitWords (w ++ []) = w :: splitWords [] :=
        splitWords_append_of_small hw hw' rfl
      rwa [List.append_nil] at hlast
    | cons next others =>
      rw [underscored_cons_cons, splitWords_append_of_small hw hw' rfl, splitWords,
        if_neg (by decide), ih hrest hrest']

theorem toList_snakeCase (name : String) :
    (snakeCase name).toList = underscored (foldedWords name) := String.toList_ofList

theorem splitWords_snakeCase (name : String) :
    splitWords (snakeCase name).toList = foldedWords name := by
  rw [toList_snakeCase]
  apply splitWords_underscored fun _ => isWord_of_mem_foldedWords
  intro w hw c hc
  obtain ⟨word, -, rfl⟩ := List.mem_map.mp hw
  obtain ⟨c', -, rfl⟩ := List.mem_map.mp hc
  exact Char.isUpper_toLower_eq_false c'

theorem foldedWords_snakeCase (name : String) :
    foldedWords (snakeCase name) = foldedWords name := by
  rw [foldedWords, splitWords_snakeCase]
  simp [foldedWords, Function.comp_def]

/-- The words of a name in snake case are the words of the name in small letters, and so the name
is rendered as before. -/
theorem snakeCase_normal_form (name : String) :
    words (snakeCase name) = (words name).map (String.map Char.toLower) ∧
      snakeCase (snakeCase name) = snakeCase name ∧
      pascalCase (snakeCase name) = pascalCase name ∧
      constantCase (snakeCase name) = constantCase name ∧
      fieldIdentifier (snakeCase name) = fieldIdentifier name := by
  have hfolded := foldedWords_snakeCase name
  refine ⟨?_, snakeCase_eq_iff.mpr hfolded, pascalCase_eq_iff.mpr hfolded,
    constantCase_eq_iff.mpr hfolded, fieldIdentifier_eq_iff.mpr hfolded⟩
  rw [words, splitWords_snakeCase, foldedWords, words, List.map_map, List.map_map]
  refine List.map_congr_left fun w _ => String.toList_inj.mp ?_
  simp

-- In capitals a word ends before the `B`, which the name itself has in its only word.
example : constantCase "a1b" = "A1B" ∧ constantCase (constantCase "a1b") = "A1_B" := by decide

/-! ## Names of fields -/

/-- An identifier that begins with a small letter. -/
def isFieldName (ident : String) : Bool :=
  startsAndContinues Char.isLower isIdentChar ident.toList

/-- The first letter or digit of a text. -/
def firstAlphanum? (text : String) : Option Char := text.toList.find? Char.isAlphanum

/-- What the name of the field with a given key is like. -/
structure SafeField (key ident : String) : Prop where
  not_reserved : ident ∉ reservedWords
  chars : ∀ c ∈ ident.toList, c.isLower = true ∨ c.isDigit = true ∨ c = '_'
  not_doubled : ¬['_', '_'] <:+: ident.toList
  head?_eq : ident.toList.head? = (firstAlphanum? key).map Char.toLower
  not_leading : ident.toList.head? ≠ some '_'
  isFieldName_iff : isFieldName ident = true ↔ (firstAlphanum? key).any Char.isAlpha = true
  of_isIdentifier : isIdentifier key = true → isFieldName ident = true

theorem isLower_or_isDigit_of_mem_foldedWords {name : String} {w : List Char}
    (hw : w ∈ foldedWords name) {c : Char} (hc : c ∈ w) :
    c.isLower = true ∨ c.isDigit = true := by
  obtain ⟨word, hword, rfl⟩ := List.mem_map.mp hw
  obtain ⟨c', hc', rfl⟩ := List.mem_map.mp hc
  have halnum := isAlphanum_of_mem_splitWords hword hc'
  simp only [Char.isAlphanum, Bool.or_eq_true] at halnum
  rcases halnum with halpha | hdigit
  · left
    rwa [Char.isLower_toLower_eq_isAlpha]
  · right
    rwa [toLower_of_isDigit hdigit]

theorem chars_snakeCase {name : String} {c : Char} (h : c ∈ (snakeCase name).toList) :
    c.isLower = true ∨ c.isDigit = true ∨ c = '_' := by
  rw [toList_snakeCase] at h
  rcases mem_underscored h with rfl | ⟨w, hw, hc⟩
  · exact Or.inr (Or.inr rfl)
  · exact (isLower_or_isDigit_of_mem_foldedWords hw hc).imp_right Or.inl

theorem head?_underscored {ws : List (List Char)} (h : ∀ w ∈ ws, IsWord w) :
    (underscored ws).head? = ws.flatten.head? := by
  cases ws with
  | nil => rfl
  | cons w rest =>
    obtain ⟨c, w', rfl⟩ := List.exists_cons_of_ne_nil (h w List.mem_cons_self).1
    cases rest <;> rfl

theorem head?_snakeCase (name : String) :
    (snakeCase name).toList.head? = (firstAlphanum? name).map Char.toLower := by
  rw [toList_snakeCase, head?_underscored fun _ => isWord_of_mem_foldedWords, foldedWords,
    ← List.map_flatten, flatten_splitWords, List.head?_map, List.head?_filter, firstAlphanum?]

/-- Not even an underscore behind the last word follows another one. -/
theorem isChain_underscored {ws : List (List Char)} (h : ∀ w ∈ ws, IsWord w) :
    (underscored ws ++ ['_']).IsChain fun a b => a = '_' → b ≠ '_' := by
  induction ws with
  | nil => exact .singleton '_'
  | cons w rest ih =>
    obtain ⟨hw, hrest⟩ := List.forall_mem_cons.mp h
    have hne : ∀ c ∈ w, c ≠ '_' := by
      rintro c hc rfl
      exact absurd (hw.2 '_' hc) (by decide)
    have hword : (w ++ ['_']).IsChain fun a b => a = '_' → b ≠ '_' := by
      apply List.Pairwise.isChain
      refine List.pairwise_append.mpr ⟨?_, List.pairwise_singleton _ _, fun a ha _ _ heq => ?_⟩
      · exact List.pairwise_of_forall_mem_list fun a ha _ _ heq => absurd heq (hne a ha)
      · exact absurd heq (hne a ha)
    cases rest with
    | nil => exact hword
    | cons next others =>
      rw [underscored_cons_cons, List.append_assoc, List.cons_append, List.append_cons]
      refine List.isChain_append.mpr ⟨hword, ih hrest, ?_⟩
      rintro a - b hb -
      -- Behind the underscore comes the first character of the next word.
      obtain ⟨c, next', rfl⟩ := List.exists_cons_of_ne_nil (hrest next List.mem_cons_self).1
      have hhead : (underscored ((c :: next') :: others) ++ ['_']).head? = some c := by
        cases others <;> rfl
      rw [hhead] at hb
      obtain rfl := Option.mem_some.mp hb
      rintro rfl
      exact absurd ((hrest _ List.mem_cons_self).2 '_' List.mem_cons_self) (by decide)

theorem not_doubled_of_isInfix (name : String) {cs : List Char}
    (h : cs <:+: (snakeCase name).toList ++ ['_']) : ¬['_', '_'] <:+: cs := by
  intro hdoubled
  obtain ⟨front, back, hsplit⟩ := hdoubled.trans h
  rw [toList_snakeCase] at hsplit
  have hpair : underscored (foldedWords name) ++ ['_'] = front ++ '_' :: '_' :: back := by
    simpa using hsplit.symm
  have hwords : ∀ w ∈ foldedWords name, IsWord w := fun _ => isWord_of_mem_foldedWords
  exact List.isChain_iff_forall_rel_of_append_cons_cons.mp (isChain_underscored hwords) hpair rfl
    rfl

theorem reservedWords_spelled :
    ∀ word ∈ reservedWords, word.toList ≠ [] ∧ word.toList.getLast? ≠ some '_' := by
  decide +kernel

/-- A field is named by the key in snake case, or by that with an underscore behind it. -/
theorem fieldIdentifier_cases (key : String) :
    (fieldIdentifier key).toList = (snakeCase key).toList ∧ snakeCase key ∉ reservedWords ∨
      (fieldIdentifier key).toList = (snakeCase key).toList ++ ['_'] ∧
        snakeCase key ∈ reservedWords := by
  unfold fieldIdentifier
  split
  · next hreserved => exact Or.inr ⟨by simp, hreserved⟩
  · next hreserved => exact Or.inl ⟨rfl, hreserved⟩

theorem fieldIdentifier_not_mem_reservedWords (key : String) :
    fieldIdentifier key ∉ reservedWords := by
  intro hmem
  rcases fieldIdentifier_cases key with ⟨hsame, hfree⟩ | ⟨hescaped, -⟩
  · exact hfree (String.toList_inj.mp hsame ▸ hmem)
  · apply (reservedWords_spelled _ hmem).2
    rw [hescaped, List.getLast?_concat]

theorem chars_fieldIdentifier {key : String} {c : Char} (h : c ∈ (fieldIdentifier key).toList) :
    c.isLower = true ∨ c.isDigit = true ∨ c = '_' := by
  rcases fieldIdentifier_cases key with ⟨hsame, -⟩ | ⟨hescaped, -⟩
  · exact chars_snakeCase (hsame ▸ h)
  · rw [hescaped] at h
    rcases List.mem_append.mp h with h | h
    · exact chars_snakeCase h
    · exact Or.inr (Or.inr (List.mem_singleton.mp h))

theorem head?_fieldIdentifier (key : String) :
    (fieldIdentifier key).toList.head? = (firstAlphanum? key).map Char.toLower := by
  rw [← head?_snakeCase]
  rcases fieldIdentifier_cases key with ⟨hsame, -⟩ | ⟨hescaped, hreserved⟩
  · rw [hsame]
  · rw [hescaped, List.head?_append_of_ne_nil _ (reservedWords_spelled _ hreserved).1]

theorem not_doubled_fieldIdentifier (key : String) :
    ¬['_', '_'] <:+: (fieldIdentifier key).toList := by
  apply not_doubled_of_isInfix key
  rcases fieldIdentifier_cases key with ⟨hsame, -⟩ | ⟨hescaped, -⟩
  · rw [hsame]
    exact (List.prefix_append _ _).isInfix
  · rw [hescaped]

theorem isFieldName_iff_head? {ident : String}
    (h : ∀ c ∈ ident.toList, c.isLower = true ∨ c.isDigit = true ∨ c = '_') :
    isFieldName ident = true ↔ ident.toList.head?.any Char.isLower = true := by
  rw [isFieldName]
  cases hident : ident.toList with
  | nil => simp [startsAndContinues]
  | cons c rest =>
    have hrest : ∀ d ∈ rest, isIdentChar d = true := by
      intro d hd
      rw [hident] at h
      rcases h d (List.mem_cons_of_mem c hd) with hlower | hdigit | rfl
      · simp [isIdentChar, Char.isAlphanum, Char.isAlpha, hlower]
      · simp [isIdentChar, Char.isAlphanum, hdigit]
      · decide
    rw [startsAndContinues, List.all_eq_true.mpr hrest, Bool.and_true]
    rfl

theorem isFieldName_fieldIdentifier_iff (key : String) :
    isFieldName (fieldIdentifier key) = true ↔ (firstAlphanum? key).any Char.isAlpha = true := by
  rw [isFieldName_iff_head? fun _ => chars_fieldIdentifier, head?_fieldIdentifier]
  cases firstAlphanum? key <;> simp

theorem firstAlphanum?_of_isIdentifier {key : String} (h : isIdentifier key = true) :
    (firstAlphanum? key).any Char.isAlpha = true := by
  obtain ⟨c, rest, hkey, hc, -⟩ := isIdentifier_iff.mp h
  simp [firstAlphanum?, hkey, Char.isAlphanum, hc]

/-- Every key names a field safely. -/
theorem fieldIdentifier_safe (key : String) : SafeField key (fieldIdentifier key) where
  not_reserved := fieldIdentifier_not_mem_reservedWords key
  chars _ := chars_fieldIdentifier
  not_doubled := not_doubled_fieldIdentifier key
  head?_eq := head?_fieldIdentifier key
  not_leading := by
    rw [head?_fieldIdentifier]
    intro hleading
    obtain ⟨c, hc, hunderscore⟩ := Option.map_eq_some_iff.mp hleading
    have halnum := isAlphanum_toLower (List.find?_some hc)
    rw [hunderscore] at halnum
    exact absurd halnum (by decide)
  isFieldName_iff := isFieldName_fieldIdentifier_iff key
  of_isIdentifier h := (isFieldName_fieldIdentifier_iff key).mpr (firstAlphanum?_of_isIdentifier h)

/-- A key that becomes a keyword only in small letters. -/
theorem fieldIdentifier_safe_self :
    isIdentifier "Self" = true ∧ isFieldName (fieldIdentifier "Self") = true ∧
      fieldIdentifier "Self" = "self_" := by
  have hkey : isIdentifier "Self" = true := by decide
  exact ⟨hkey, (fieldIdentifier_safe "Self").of_isIdentifier hkey, by decide⟩

end XdrCompiler.Naming
