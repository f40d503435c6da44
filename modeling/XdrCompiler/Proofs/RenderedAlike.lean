/-
# XdrCompiler.Proofs.RenderedAlike -- which names are rendered alike

A rendering keeps the words of a name and nothing else of it. Neither the case of
its letters nor the characters between its words are left, so different names may
be rendered alike. The words themselves survive: the renderings as a variant, as a
field and as a constant each show where a word begins, and so each of the three is
the same for two names exactly if the names have the same words, case apart
(`pascalCase_eq_iff`, `fieldIdentifier_eq_iff`, `constantCase_eq_iff`).
-/
import XdrCompiler.Naming.Reserved
import XdrCompiler.Proofs.NameCharacters

namespace XdrCompiler.Naming

/-! ## Texts made of marked pieces -/

/-- The first character of the piece satisfies `mark`, and no other one does. -/
def MarkedFirst (mark : Char → Bool) (piece : List Char) : Prop :=
  ∃ first rest, piece = first :: rest ∧ mark first = true ∧ ∀ c ∈ rest, mark c = false

section MarkedFirst

variable {mark : Char → Bool} {pieces pieces' : List (List Char)}

theorem head?_flatten_of_marked (h : ∀ piece ∈ pieces, MarkedFirst mark piece) :
    ∀ c ∈ pieces.flatten.head?, mark c = true := by
  cases pieces with
  | nil => simp
  | cons piece others =>
    obtain ⟨first, rest, rfl, hfirst, -⟩ := h piece List.mem_cons_self
    simp [hfirst]

/-- A text without marks and what begins with a mark can be told apart. -/
theorem append_inj_of_mark {a b x y : List Char} (ha : ∀ c ∈ a, mark c = false)
    (hb : ∀ c ∈ b, mark c = false) (hx : ∀ c ∈ x.head?, mark c = true)
    (hy : ∀ c ∈ y.head?, mark c = true) (h : a ++ x = b ++ y) : a = b ∧ x = y := by
  have htake : ∀ {l z : List Char}, (∀ c ∈ l, mark c = false) → (∀ c ∈ z.head?, mark c = true) →
      (l ++ z).takeWhile (fun c => !mark c) = l := by
    intro l z hl hz
    rw [List.takeWhile_append_of_pos (by simpa using hl)]
    cases z with
    | nil => simp
    | cons c rest => simp [hz c rfl]
  have hab : a = b := by
    rw [← htake ha hx, h, htake hb hy]
  subst hab
  exact ⟨rfl, List.append_cancel_left h⟩

/-- The pieces of a text are found at their marks. -/
theorem flatten_inj_of_marked (h : ∀ piece ∈ pieces, MarkedFirst mark piece)
    (h' : ∀ piece ∈ pieces', MarkedFirst mark piece) (heq : pieces.flatten = pieces'.flatten) :
    pieces = pieces' := by
  induction pieces generalizing pieces' with
  | nil =>
    cases pieces' with
    | nil => rfl
    | cons piece' others' =>
      obtain ⟨first, rest, rfl, -, -⟩ := h' piece' List.mem_cons_self
      cases heq
  | cons piece others ih =>
    obtain ⟨first, rest, rfl, hfirst, hrest⟩ := h piece List.mem_cons_self
    cases pieces' with
    | nil => cases heq
    | cons piece' others' =>
      obtain ⟨first', rest', rfl, hfirst', hrest'⟩ := h' piece' List.mem_cons_self
      obtain ⟨-, hothers⟩ := List.forall_mem_cons.mp h
      obtain ⟨-, hothers'⟩ := List.forall_mem_cons.mp h'
      obtain ⟨rfl, hrests⟩ := List.cons.inj heq
      obtain ⟨rfl, hflatten⟩ := append_inj_of_mark hrest hrest'
        (head?_flatten_of_marked hothers) (head?_flatten_of_marked hothers') hrests
      rw [ih hothers hothers' hflatten]

end MarkedFirst

/-! ## Words, case apart -/

/-- The words of a name in small letters. -/
def foldedWords (name : String) : List (List Char) :=
  (splitWords name.toList).map (·.map Char.toLower)

/-- A word that a name may have. -/
def IsWord (word : List Char) : Prop := word ≠ [] ∧ ∀ c ∈ word, c.isAlphanum = true

theorem isWord_of_mem_splitWords {cs word : List Char} (h : word ∈ splitWords cs) : IsWord word :=
  ⟨ne_nil_of_mem_splitWords word h, fun _ => isAlphanum_of_mem_splitWords h⟩

/-- A letter or digit in front begins the first word. -/
theorem exists_first_word {c : Char} (hc : c.isAlphanum = true) (rest : List Char) :
    ∃ small others, splitWords (c :: rest) = (c :: small) :: others := by
  rw [splitWords, if_pos hc]
  split
  · cases splitWords rest with
    | nil => exact ⟨[], [], rfl⟩
    | cons word others => exact ⟨word, others, rfl⟩
  · exact ⟨[], splitWords rest, rfl⟩

theorem IsWord.map {word : List Char} (h : IsWord word) {f : Char → Char}
    (hf : ∀ c, c.isAlphanum = true → (f c).isAlphanum = true) : IsWord (word.map f) := by
  refine ⟨by simpa using h.1, ?_⟩
  intro c hc
  obtain ⟨c', hc', rfl⟩ := List.mem_map.mp hc
  exact hf c' (h.2 c' hc')

theorem isWord_of_mem_map {f : Char → Char}
    (hf : ∀ c, c.isAlphanum = true → (f c).isAlphanum = true) {cs word : List Char}
    (h : word ∈ (splitWords cs).map (·.map f)) : IsWord word := by
  obtain ⟨small, hsmall, rfl⟩ := List.mem_map.mp h
  exact (isWord_of_mem_splitWords hsmall).map hf

/-! ## Snake case and constants -/

theorem IsWord.marked_underscore {word : List Char} (h : IsWord word) :
    MarkedFirst (· == '_') ('_' :: word) := by
  refine ⟨'_', word, rfl, rfl, ?_⟩
  intro c hc
  rw [beq_eq_false_iff_ne]
  rintro rfl
  exact absurd (h.2 '_' hc) (by decide)

theorem underscored_cons_cons (word next : List Char) (others : List (List Char)) :
    underscored (word :: next :: others) = word ++ '_' :: underscored (next :: others) := rfl

theorem flatten_map_underscore {words : List (List Char)} (h : words ≠ []) :
    (words.map ('_' :: ·)).flatten = '_' :: underscored words := by
  induction words with
  | nil => exact absurd rfl h
  | cons word rest ih =>
    cases rest with
    | nil => simp [underscored]
    | cons next others =>
      rw [List.map_cons, List.flatten_cons, ih (List.cons_ne_nil _ _), underscored_cons_cons,
        List.cons_append]

theorem underscored_eq_nil_iff {words : List (List Char)} (h : ∀ word ∈ words, IsWord word) :
    underscored words = [] ↔ words = [] := by
  cases words with
  | nil => simp [underscored]
  | cons word rest =>
    have hword := (h word List.mem_cons_self).1
    cases rest <;> simp [underscored, hword]

/-- Words can be read back from between the underscores. -/
theorem underscored_inj {words words' : List (List Char)} (h : ∀ word ∈ words, IsWord word)
    (h' : ∀ word ∈ words', IsWord word) (heq : underscored words = underscored words') :
    words = words' := by
  by_cases hnil : words = []
  · rw [hnil] at heq ⊢
    exact ((underscored_eq_nil_iff h').mp heq.symm).symm
  · have hnil' : words' ≠ [] := by
      intro hnil'
      rw [← underscored_eq_nil_iff h', ← heq, underscored_eq_nil_iff h] at hnil'
      exact hnil hnil'
    have hpieces : ∀ {l : List (List Char)}, (∀ word ∈ l, IsWord word) →
        ∀ piece ∈ l.map ('_' :: ·), MarkedFirst (· == '_') piece := by
      intro l hl piece hpiece
      obtain ⟨word, hword, rfl⟩ := List.mem_map.mp hpiece
      exact (hl word hword).marked_underscore
    have hflatten : (words.map ('_' :: ·)).flatten = (words'.map ('_' :: ·)).flatten := by
      rw [flatten_map_underscore hnil, flatten_map_underscore hnil', heq]
    have hmap := flatten_inj_of_marked (hpieces h) (hpieces h') hflatten
    exact List.map_injective_iff.mpr (List.cons_injective) hmap

theorem snakeCase_eq_iff {a b : String} :
    snakeCase a = snakeCase b ↔ foldedWords a = foldedWords b := by
  rw [snakeCase, snakeCase, String.ofList_inj]
  constructor
  · refine underscored_inj ?_ ?_
    · exact fun word => isWord_of_mem_map fun c => isAlphanum_toLower
    · exact fun word => isWord_of_mem_map fun c => isAlphanum_toLower
  · intro h
    exact congrArg underscored h

theorem map_toUpper_eq_iff {words words' : List (List Char)} :
    words.map (·.map Char.toUpper) = words'.map (·.map Char.toUpper) ↔
      words.map (·.map Char.toLower) = words'.map (·.map Char.toLower) := by
  have hlower (l : List (List Char)) :
      (l.map (·.map Char.toUpper)).map (·.map Char.toLower) = l.map (·.map Char.toLower) := by
    simp [Function.comp_def]
  have hupper (l : List (List Char)) :
      (l.map (·.map Char.toLower)).map (·.map Char.toUpper) = l.map (·.map Char.toUpper) := by
    simp [Function.comp_def]
  constructor
  · intro h
    rw [← hlower words, h, hlower]
  · intro h
    rw [← hupper words, h, hupper]

/-- Two constants have one name exactly if their keys have the same words, case apart. -/
theorem constantCase_eq_iff {a b : String} :
    constantCase a = constantCase b ↔ foldedWords a = foldedWords b := by
  rw [constantCase, constantCase, String.ofList_inj, foldedWords, foldedWords,
    ← map_toUpper_eq_iff]
  constructor
  · refine underscored_inj ?_ ?_
    · exact fun word => isWord_of_mem_map fun c => isAlphanum_toUpper
    · exact fun word => isWord_of_mem_map fun c => isAlphanum_toUpper
  · intro h
    exact congrArg underscored h

/-! ## Fields -/

theorem getLast?_underscored_ne {words : List (List Char)} (h : ∀ word ∈ words, IsWord word) :
    (underscored words).getLast? ≠ some '_' := by
  induction words with
  | nil => simp [underscored]
  | cons word rest ih =>
    obtain ⟨hword, hrest⟩ := List.forall_mem_cons.mp h
    cases rest with
    | nil =>
      intro hlast
      exact absurd (hword.2 '_' (List.mem_of_getLast? hlast)) (by decide)
    | cons next others =>
      have hne : underscored (next :: others) ≠ [] := by
        rw [Ne, underscored_eq_nil_iff hrest]
        exact List.cons_ne_nil _ _
      rw [underscored_cons_cons, List.append_cons, List.getLast?_append_of_ne_nil _ hne]
      exact ih hrest

theorem isWord_of_mem_foldedWords {name : String} {word : List Char}
    (h : word ∈ foldedWords name) : IsWord word :=
  isWord_of_mem_map (fun _ => isAlphanum_toLower) h

/-- A name in snake case does not end in an underscore, so it is no escaped name. -/
theorem snakeCase_append_underscore_ne (a b : String) : snakeCase a ++ "_" ≠ snakeCase b := by
  intro h
  have hwords : ∀ word ∈ foldedWords b, IsWord word := fun _ => isWord_of_mem_foldedWords
  apply getLast?_underscored_ne hwords
  have hlists : (snakeCase a).toList ++ ['_'] = underscored (foldedWords b) := by
    simpa [snakeCase, foldedWords] using congrArg String.toList h
  rw [← hlists, List.getLast?_concat]

/-- Two fields have one name exactly if their keys have the same words, case apart. -/
theorem fieldIdentifier_eq_iff {a b : String} :
    fieldIdentifier a = fieldIdentifier b ↔ foldedWords a = foldedWords b := by
  rw [← snakeCase_eq_iff]
  constructor
  · intro h
    unfold fieldIdentifier at h
    split at h
    · split at h
      · simpa using h
      · exact absurd h (snakeCase_append_underscore_ne a b)
    · split at h
      · exact absurd h.symm (snakeCase_append_underscore_ne b a)
      · exact h
  · intro h
    rw [fieldIdentifier, fieldIdentifier, h]

/-! ## Variants -/

/-- The characters that a later word of a name in Pascal case begins with. -/
def beginsWord (c : Char) : Bool := c.isUpper || c == '_'

theorem beginsWord_toLower {c : Char} (h : c.isAlphanum = true) :
    beginsWord c.toLower = false := by
  have hne : c.toLower ≠ '_' := by
    intro heq
    have halnum := isAlphanum_toLower h
    rw [heq] at halnum
    exact absurd halnum (by decide)
  simp [beginsWord, hne]

theorem beginsWord_of_mem_map_toLower {cs : List Char} (h : ∀ c ∈ cs, c.isAlphanum = true) :
    ∀ c ∈ cs.map Char.toLower, beginsWord c = false := by
  intro c hc
  obtain ⟨c', hc', rfl⟩ := List.mem_map.mp hc
  exact beginsWord_toLower (h c' hc')

theorem map_toLower_capitalize (word : List Char) :
    (capitalize word).map Char.toLower = word.map Char.toLower := by
  cases word with
  | nil => rfl
  | cons first rest => simp [capitalize]

theorem capitalize_map_toLower (word : List Char) :
    capitalize (word.map Char.toLower) = capitalize word := by
  cases word with
  | nil => rfl
  | cons first rest => simp [capitalize]

/-- A later word as it is written, marked by a capital or by an underscore. -/
theorem IsWord.marked_guardDigit {word : List Char} (h : IsWord word) :
    MarkedFirst beginsWord (guardDigit (capitalize word)) := by
  obtain ⟨hne, halnum⟩ := h
  cases word with
  | nil => exact absurd rfl hne
  | cons first rest =>
    obtain ⟨hfirst, hrest⟩ := List.forall_mem_cons.mp halnum
    have hsmall := beginsWord_of_mem_map_toLower hrest
    rw [capitalize, guardDigit]
    split
    · next hdigit =>
      refine ⟨'_', _, rfl, rfl, List.forall_mem_cons.mpr ⟨?_, hsmall⟩⟩
      have halone := beginsWord_toLower (isAlphanum_toUpper hfirst)
      rwa [toLower_of_isDigit hdigit] at halone
    · next hdigit =>
      refine ⟨first.toUpper, _, rfl, ?_, hsmall⟩
      have halpha : first.toUpper.isAlpha = true := by
        simpa [Char.isAlphanum, hdigit] using isAlphanum_toUpper hfirst
      simpa [beginsWord] using Or.inl halpha

theorem marked_of_mem_map_guardDigit {words : List (List Char)}
    (h : ∀ word ∈ words, IsWord word) :
    ∀ piece ∈ words.map fun w => guardDigit (capitalize w), MarkedFirst beginsWord piece := by
  intro piece hpiece
  obtain ⟨word, hword, rfl⟩ := List.mem_map.mp hpiece
  exact (h word hword).marked_guardDigit

/-- The letters and digits of a written word are the capitalized word. -/
theorem IsWord.filter_guardDigit {word : List Char} (h : IsWord word) :
    (guardDigit (capitalize word)).filter Char.isAlphanum = capitalize word := by
  have hkeep : (capitalize word).filter Char.isAlphanum = capitalize word :=
    List.filter_eq_self.mpr (isAlphanum_of_mem_capitalize h.2)
  cases hword : capitalize word with
  | nil => rfl
  | cons first rest =>
    rw [hword] at hkeep
    rw [guardDigit]
    split
    · rw [List.filter_cons_of_neg (by decide), hkeep]
    · exact hkeep

theorem map_toLower_eq_of_capitalize {words words' : List (List Char)}
    (h : words.map capitalize = words'.map capitalize) :
    words.map (·.map Char.toLower) = words'.map (·.map Char.toLower) := by
  have hlower (l : List (List Char)) :
      (l.map capitalize).map (·.map Char.toLower) = l.map (·.map Char.toLower) := by
    simp [Function.comp_def, map_toLower_capitalize]
  rw [← hlower words, h, hlower]

/-- The later words of a name are read back from how they are written. -/
theorem map_capitalize_eq_of_flatten {words words' : List (List Char)}
    (h : ∀ word ∈ words, IsWord word) (h' : ∀ word ∈ words', IsWord word)
    (heq : (words.map fun w => guardDigit (capitalize w)).flatten =
      (words'.map fun w => guardDigit (capitalize w)).flatten) :
    words.map capitalize = words'.map capitalize := by
  have hread : ∀ {l : List (List Char)}, (∀ word ∈ l, IsWord word) →
      (l.map fun w => guardDigit (capitalize w)).map (·.filter Char.isAlphanum) =
        l.map capitalize := by
    intro l hl
    rw [List.map_map]
    exact List.map_congr_left fun word hword => (hl word hword).filter_guardDigit
  rw [← hread h, ← hread h', flatten_inj_of_marked (marked_of_mem_map_guardDigit h)
    (marked_of_mem_map_guardDigit h') heq]

theorem pascalWords_cons (first : Char) (small : List Char) (rest : List (List Char)) :
    pascalWords ((first :: small) :: rest) =
      first.toUpper ::
        (small.map Char.toLower ++ (rest.map fun w => guardDigit (capitalize w)).flatten) := by
  rw [pascalWords, List.flatMap_def, capitalize, List.cons_append]

theorem pascalWords_inj {words words' : List (List Char)} (h : ∀ word ∈ words, IsWord word)
    (h' : ∀ word ∈ words', IsWord word) (heq : pascalWords words = pascalWords words') :
    words.map capitalize = words'.map capitalize := by
  have hcons : ∀ {word : List Char} {rest : List (List Char)}, (∀ w ∈ word :: rest, IsWord w) →
      ∃ first small, word = first :: small ∧ (∀ c ∈ small, c.isAlphanum = true) ∧
        ∀ w ∈ rest, IsWord w := by
    intro word rest hwords
    obtain ⟨⟨hne, halnum⟩, hrest⟩ := List.forall_mem_cons.mp hwords
    obtain ⟨first, small, rfl⟩ := List.exists_cons_of_ne_nil hne
    exact ⟨first, small, rfl, (List.forall_mem_cons.mp halnum).2, hrest⟩
  cases words with
  | nil =>
    cases words' with
    | nil => rfl
    | cons word' rest' =>
      obtain ⟨first', small', rfl, -, -⟩ := hcons h'
      cases heq
  | cons word rest =>
    obtain ⟨first, small, rfl, hsmall, hrest⟩ := hcons h
    cases words' with
    | nil => cases heq
    | cons word' rest' =>
      obtain ⟨first', small', rfl, hsmall', hrest'⟩ := hcons h'
      rw [pascalWords_cons, pascalWords_cons] at heq
      obtain ⟨hfirst, htails⟩ := List.cons.inj heq
      -- The first word goes on up to the first capital or underscore.
      obtain ⟨hsmalls, hflatten⟩ := append_inj_of_mark (beginsWord_of_mem_map_toLower hsmall)
        (beginsWord_of_mem_map_toLower hsmall')
        (head?_flatten_of_marked (marked_of_mem_map_guardDigit hrest))
        (head?_flatten_of_marked (marked_of_mem_map_guardDigit hrest')) htails
      rw [List.map_cons, List.map_cons, map_capitalize_eq_of_flatten hrest hrest' hflatten,
        capitalize, capitalize, hfirst, hsmalls]

theorem pascalWords_map_toLower (words : List (List Char)) :
    pascalWords (words.map (·.map Char.toLower)) = pascalWords words := by
  cases words with
  | nil => rfl
  | cons word rest => simp [pascalWords, capitalize_map_toLower, List.flatMap_map]

/-- Two variants have one name exactly if their keys have the same words, case apart. -/
theorem pascalCase_eq_iff {a b : String} :
    pascalCase a = pascalCase b ↔ foldedWords a = foldedWords b := by
  rw [pascalCase, pascalCase, String.ofList_inj]
  constructor
  · intro h
    apply map_toLower_eq_of_capitalize
    exact pascalWords_inj (fun _ => isWord_of_mem_splitWords)
      (fun _ => isWord_of_mem_splitWords) h
  · intro h
    rw [← pascalWords_map_toLower, ← pascalWords_map_toLower (splitWords b.toList)]
    exact congrArg pascalWords h

end XdrCompiler.Naming
