/-
# XdrCompiler.Proofs.WordBoundaries -- where a name is cut into words

The words of a name have its letters and digits in their order, and leave nothing
of them out. What has to be said beyond that is where one word ends and the next
begins, and this depends on the surroundings in the name: on what stands between
two neighbours, and on what follows them. `WordEnds` lists the cases.

The main statement, `words_cut_exactly`, says that the words are the only ones that
end just there. They can be had in two passes as well, first putting a space at each
change of case and then cutting at all that is no letter or digit. The renderings
as a variant, as a field and as a constant write the words one after the other, so
these also leave no letter or digit out; they add underscores and change cases only.
-/
import XdrCompiler.Proofs.RenderedAlike

namespace XdrCompiler.Naming

/-! ## Neighbours and the words that hold them -/

/-- Two letters or digits of a text with nothing but separators between them. -/
structure Neighbours (cs before : List Char) (a : Char) (gap : List Char) (b : Char)
    (after : List Char) : Prop where
  text_eq : cs = before ++ a :: (gap ++ b :: after)
  left : a.isAlphanum = true
  right : b.isAlphanum = true
  separators : ∀ c ∈ gap, c.isAlphanum = false

/-- Whether a word ends between `a` and `b`, which have `gap` between them and `after` behind them:
something separates them, or a capital follows a small letter or digit, or the second of two
capitals begins a capitalized word. -/
def WordEnds (a : Char) (gap : List Char) (b : Char) (after : List Char) : Prop :=
  gap ≠ [] ∨ (a.isLower = true ∨ a.isDigit = true) ∧ b.isUpper = true ∨
    a.isUpper = true ∧ b.isUpper = true ∧ after.head?.any Char.isLower = true

instance (a : Char) (gap : List Char) (b : Char) (after : List Char) :
    Decidable (WordEnds a gap b after) :=
  inferInstanceAs (Decidable (_ ∨ _ ∨ _))

/-- One word holds both `a` and the `b` right behind it, where `front` is what the words have before
that `a`. -/
def HeldTogether (ws : List (List Char)) (front : List Char) (a b : Char) : Prop :=
  ∃ earlier left right later,
    ws = earlier ++ (left ++ a :: b :: right) :: later ∧ front = earlier.flatten ++ left

/-- Words that have the letters and digits of a text and end where a word has to end. -/
structure CutAtWordEnds (cs : List Char) (ws : List (List Char)) : Prop where
  flatten_eq : ws.flatten = cs.filter Char.isAlphanum
  ne_nil : ∀ w ∈ ws, w ≠ []
  apart_iff : ∀ {before : List Char} {a : Char} {gap : List Char} {b : Char} {after : List Char},
    Neighbours cs before a gap b after →
      (¬HeldTogether ws (before.filter Char.isAlphanum) a b ↔ WordEnds a gap b after)

section HeldTogether

variable {ws : List (List Char)} {w front : List Char} {a b c : Char}

theorem heldTogether_nil_cons : HeldTogether ([] :: ws) front a b ↔ HeldTogether ws front a b := by
  constructor
  · rintro ⟨earlier, left, right, later, hws, hfront⟩
    rcases List.cons_eq_append_iff.mp hws with ⟨-, hword⟩ | ⟨others, rfl, rfl⟩
    · simp at hword
    · exact ⟨others, left, right, later, rfl, hfront⟩
  · rintro ⟨earlier, left, right, later, rfl, hfront⟩
    exact ⟨[] :: earlier, left, right, later, rfl, hfront⟩

/-- A further letter in front of the first word changes nothing behind it. -/
theorem heldTogether_cons_cons :
    HeldTogether ((c :: w) :: ws) (c :: front) a b ↔ HeldTogether (w :: ws) front a b := by
  constructor
  · rintro ⟨earlier, left, right, later, hws, hfront⟩
    rcases List.cons_eq_append_iff.mp hws with ⟨rfl, hword⟩ | ⟨others, rfl, rfl⟩
    · obtain ⟨hfirst, rfl⟩ := List.cons.inj hword
      rw [List.flatten_nil, List.nil_append] at hfront
      subst hfront
      obtain ⟨-, rfl⟩ := List.cons.inj hfirst
      exact ⟨[], front, right, later, rfl, rfl⟩
    · refine ⟨w :: others, left, right, later, rfl, ?_⟩
      simpa using hfront
  · rintro ⟨earlier, left, right, later, hws, rfl⟩
    rcases List.cons_eq_append_iff.mp hws with ⟨rfl, hword⟩ | ⟨others, rfl, rfl⟩
    · obtain ⟨rfl, rfl⟩ := List.cons.inj hword
      exact ⟨[], c :: left, right, later, rfl, rfl⟩
    · exact ⟨(c :: w) :: others, left, right, later, rfl, rfl⟩

/-- The very first letter is held together with the next one if its word goes on with that. -/
theorem heldTogether_nil_iff :
    HeldTogether ((c :: w) :: ws) [] a b ↔ c = a ∧ w.head? = some b := by
  constructor
  · rintro ⟨earlier, left, right, later, hws, hfront⟩
    obtain ⟨hearlier, rfl⟩ := List.append_eq_nil_iff.mp hfront.symm
    rcases List.cons_eq_append_iff.mp hws with ⟨rfl, hword⟩ | ⟨others, rfl, rfl⟩
    · obtain ⟨hword, -⟩ := List.cons.inj hword
      obtain ⟨rfl, rfl⟩ := List.cons.inj hword
      exact ⟨rfl, rfl⟩
    · simp at hearlier
  · rintro ⟨rfl, hhead⟩
    obtain ⟨right, rfl⟩ := List.head?_eq_some_iff.mp hhead
    exact ⟨[], [], right, ws, rfl, rfl⟩

theorem heldTogether_joinFront :
    HeldTogether (joinFront c ws) (c :: front) a b ↔ HeldTogether ws front a b := by
  cases ws with
  | nil => exact heldTogether_cons_cons.trans heldTogether_nil_cons
  | cons word others => exact heldTogether_cons_cons

end HeldTogether

/-! ## The words end where they have to -/

theorem continues_cons_iff {a b : Char} {after : List Char} :
    continues a (b :: after) = true ↔ b.isAlphanum = true ∧ ¬WordEnds a [] b after := by
  rw [continues, Bool.and_eq_true, Bool.not_eq_true', ← Bool.not_eq_true]
  refine and_congr_right fun _ => not_congr ?_
  cases after with
  | nil => simp [breaksBetween, WordEnds]
  | cons c rest => simp [breaksBetween, WordEnds, and_assoc]

/-- Behind the first letter or digit the first word goes on unless it has to end there. -/
theorem continues_iff {a b : Char} {gap after : List Char} (hb : b.isAlphanum = true)
    (hgap : ∀ c ∈ gap, c.isAlphanum = false) :
    continues a (gap ++ b :: after) = true ↔ ¬WordEnds a gap b after := by
  cases gap with
  | nil => simp [continues_cons_iff, hb]
  | cons s gap' =>
    have hs : s.isAlphanum = false := hgap s List.mem_cons_self
    simp [continues, WordEnds, hs]

/-- The first two letters or digits of a text. -/
theorem heldTogether_splitWords_cons {a b : Char} {gap after : List Char} (ha : a.isAlphanum = true)
    (hb : b.isAlphanum = true) (hgap : ∀ c ∈ gap, c.isAlphanum = false) :
    HeldTogether (splitWords (a :: (gap ++ b :: after))) [] a b ↔ ¬WordEnds a gap b after := by
  rw [← continues_iff hb hgap, splitWords, if_pos ha]
  by_cases hcontinues : continues a (gap ++ b :: after) = true
  · rw [if_pos hcontinues]
    -- Only without separators does the word go on.
    have hnil : gap = [] := by
      by_contra hne
      exact (continues_iff hb hgap).mp hcontinues (Or.inl hne)
    subst hnil
    obtain ⟨small, others, hwords⟩ := exists_first_word hb after
    rw [List.nil_append, hwords, joinFront, heldTogether_nil_iff]
    simpa using hcontinues
  · rw [if_neg hcontinues, heldTogether_nil_iff]
    simp [hcontinues]

/-- Any two neighbours. What stands before them is read first, letter by letter, and each letter is
either put in front of the words so far or is a word by itself. -/
theorem heldTogether_splitWords {before : List Char} {a : Char} {gap : List Char} {b : Char}
    {after : List Char} (ha : a.isAlphanum = true) (hb : b.isAlphanum = true)
    (hgap : ∀ c ∈ gap, c.isAlphanum = false) :
    HeldTogether (splitWords (before ++ a :: (gap ++ b :: after))) (before.filter Char.isAlphanum)
      a b ↔ ¬WordEnds a gap b after := by
  induction before with
  | nil => exact heldTogether_splitWords_cons ha hb hgap
  | cons c rest ih =>
    rw [List.cons_append, splitWords]
    by_cases hc : c.isAlphanum = true
    · rw [if_pos hc, List.filter_cons_of_pos hc, ← ih]
      split
      · exact heldTogether_joinFront
      · exact heldTogether_cons_cons.trans heldTogether_nil_cons
    · rw [if_neg hc, List.filter_cons_of_neg hc, ih]

theorem cutAtWordEnds_splitWords (cs : List Char) : CutAtWordEnds cs (splitWords cs) where
  flatten_eq := flatten_splitWords cs
  ne_nil := ne_nil_of_mem_splitWords
  apart_iff := by
    rintro before a gap b after ⟨rfl, ha, hb, hgap⟩
    rw [heldTogether_splitWords ha hb hgap, not_not]

/-! ## No other words do -/

/-- Letters that follow each other among the letters of a text are neighbours in it. -/
theorem exists_neighbours {cs front back : List Char} {a b : Char}
    (h : cs.filter Char.isAlphanum = front ++ a :: b :: back) :
    ∃ before gap after, Neighbours cs before a gap b after ∧
      before.filter Char.isAlphanum = front := by
  obtain ⟨start, rest, rfl, rfl, hrest⟩ := List.filter_eq_append_iff.mp h
  obtain ⟨skipped, rest', rfl, hskipped, ha, hrest'⟩ := List.filter_eq_cons_iff.mp hrest
  obtain ⟨gap, after, rfl, hgap, hb, -⟩ := List.filter_eq_cons_iff.mp hrest'
  refine ⟨start ++ skipped, gap, after, ⟨by simp, ha, hb, by simpa using hgap⟩, ?_⟩
  rw [List.filter_append, List.filter_eq_nil_iff.mpr hskipped, List.append_nil]

theorem exists_first_of_flatten {ws : List (List Char)} {c : Char} {letters : List Char}
    (hne : ∀ w ∈ ws, w ≠ []) (h : ws.flatten = c :: letters) :
    ∃ w others, ws = (c :: w) :: others ∧ w ++ others.flatten = letters := by
  cases ws with
  | nil => simp at h
  | cons first others =>
    obtain ⟨c', w, rfl⟩ := List.exists_cons_of_ne_nil (hne first List.mem_cons_self)
    obtain ⟨rfl, hrest⟩ := List.cons.inj h
    exact ⟨w, others, rfl, hrest⟩

/-- The first word goes on behind its first letter if it holds the second one too. -/
theorem ne_nil_iff_heldTogether {c d : Char} {w letters : List Char} {others : List (List Char)}
    (h : w ++ others.flatten = d :: letters) :
    w ≠ [] ↔ HeldTogether ((c :: w) :: others) [] c d := by
  rw [heldTogether_nil_iff]
  cases w with
  | nil => simp
  | cons d' w' =>
    obtain ⟨rfl, -⟩ := List.cons.inj h
    simp

/-- Lists of words with the same letters are equal if the same neighbours are held together. -/
theorem eq_of_heldTogether_iff {ws ws' : List (List Char)} {letters : List Char}
    (hne : ∀ w ∈ ws, w ≠ []) (hne' : ∀ w ∈ ws', w ≠ []) (hflatten : ws.flatten = letters)
    (hflatten' : ws'.flatten = letters)
    (h : ∀ front a b back, letters = front ++ a :: b :: back →
      (HeldTogether ws front a b ↔ HeldTogether ws' front a b)) : ws = ws' := by
  induction letters generalizing ws ws' with
  | nil =>
    have hnil : ∀ {l : List (List Char)}, (∀ w ∈ l, w ≠ []) → l.flatten = [] → l = [] := by
      intro l hl hempty
      exact List.eq_nil_iff_forall_not_mem.mpr fun w hw =>
        hl w hw (List.flatten_eq_nil_iff.mp hempty w hw)
    rw [hnil hne hflatten, hnil hne' hflatten']
  | cons c rest ih =>
    obtain ⟨w, others, rfl, hrest⟩ := exists_first_of_flatten hne hflatten
    obtain ⟨w', others', rfl, hrest'⟩ := exists_first_of_flatten hne' hflatten'
    have hothers := (List.forall_mem_cons.mp hne).2
    have hothers' := (List.forall_mem_cons.mp hne').2
    -- Both first words end behind `c`, or none of them does; either way `c` can be taken off.
    have hends : w ≠ [] ↔ w' ≠ [] := by
      cases rest with
      | nil =>
        rw [(List.append_eq_nil_iff.mp hrest).1, (List.append_eq_nil_iff.mp hrest').1]
      | cons d back =>
        rw [ne_nil_iff_heldTogether (c := c) hrest, ne_nil_iff_heldTogether (c := c) hrest',
          h [] c d back rfl]
    have hbehind : ∀ front a b back, rest = front ++ a :: b :: back →
        (HeldTogether (w :: others) front a b ↔ HeldTogether (w' :: others') front a b) := by
      rintro front a b back rfl
      rw [← heldTogether_cons_cons (c := c), h (c :: front) a b back rfl, heldTogether_cons_cons]
    by_cases hw : w = []
    · obtain rfl : w' = [] := not_not.mp fun hw' => hends.mpr hw' hw
      subst hw
      simp only [heldTogether_nil_cons] at hbehind
      rw [ih hothers hothers' hrest hrest' hbehind]
    · have hcons : w :: others = w' :: others' :=
        ih (List.forall_mem_cons.mpr ⟨hw, hothers⟩)
          (List.forall_mem_cons.mpr ⟨hends.mp hw, hothers'⟩) hrest hrest' hbehind
      obtain ⟨rfl, rfl⟩ := List.cons.inj hcons
      rfl

theorem CutAtWordEnds.unique {cs : List Char} {ws ws' : List (List Char)}
    (h : CutAtWordEnds cs ws) (h' : CutAtWordEnds cs ws') : ws = ws' := by
  refine eq_of_heldTogether_iff h.ne_nil h'.ne_nil h.flatten_eq h'.flatten_eq ?_
  intro front a b back hletters
  obtain ⟨before, gap, after, hneighbours, rfl⟩ := exists_neighbours hletters
  rw [← not_iff_not, h.apart_iff hneighbours, h'.apart_iff hneighbours]

theorem cutAtWordEnds_iff {cs : List Char} {ws : List (List Char)} :
    CutAtWordEnds cs ws ↔ ws = splitWords cs := by
  constructor
  · intro h
    exact h.unique (cutAtWordEnds_splitWords cs)
  · rintro rfl
    exact cutAtWordEnds_splitWords cs

/-! ## Cutting in two passes -/

/-- A text with a space wherever a word ends between two characters. -/
def spaced : List Char → List Char
  | a :: b :: after =>
    if WordEnds a [] b after then a :: ' ' :: spaced (b :: after) else a :: spaced (b :: after)
  | short => short

/-- What stands between the characters that are no letters or digits, without the empty pieces. -/
def pieces (cs : List Char) : List (List Char) :=
  (cs.splitOnP fun c => !c.isAlphanum).filter fun piece => !piece.isEmpty

theorem pieces_nil : pieces [] = [] := rfl

theorem pieces_cons_separator {c : Char} (hc : c.isAlphanum = false) (rest : List Char) :
    pieces (c :: rest) = pieces rest := by
  simp [pieces, List.splitOnP_cons_eq_if_modifyHead, hc]

theorem pieces_cons_of_head? {c : Char} (hc : c.isAlphanum = true) {rest : List Char} :
    pieces (c :: rest) =
      if rest.head?.any Char.isAlphanum then joinFront c (pieces rest) else [c] :: pieces rest := by
  cases rest with
  | nil => simp [pieces, List.splitOnP_cons_eq_if_modifyHead, hc]
  | cons d next =>
    obtain ⟨piece, others, hpieces⟩ :=
      List.exists_cons_of_ne_nil (List.splitOnP_ne_nil (fun c => !c.isAlphanum) next)
    by_cases hd : d.isAlphanum = true
    · simp [pieces, List.splitOnP_cons_eq_if_modifyHead, hc, hd, hpieces, joinFront]
    · simp [pieces, List.splitOnP_cons_eq_if_modifyHead, hc, hd, hpieces]

theorem head?_spaced (cs : List Char) : (spaced cs).head? = cs.head? := by
  fun_cases spaced cs with
  | case1 a b after hends => rfl
  | case2 a b after hends => rfl
  | case3 => rfl

/-- The words are what is cut out of the text with the spaces. -/
theorem pieces_spaced (cs : List Char) : pieces (spaced cs) = splitWords cs := by
  fun_induction spaced cs with
  | case1 a b after hends ih =>
    rw [splitWords, ← ih]
    by_cases ha : a.isAlphanum = true
    · rw [pieces_cons_of_head? ha, if_neg (by simp), pieces_cons_separator (by decide), if_pos ha,
        if_neg fun hcontinues => (continues_cons_iff.mp hcontinues).2 hends]
    · rw [if_neg ha, pieces_cons_separator (Bool.not_eq_true _ ▸ ha),
        pieces_cons_separator (by decide)]
  | case2 a b after hends ih =>
    rw [splitWords, ← ih]
    by_cases ha : a.isAlphanum = true
    · simp [pieces_cons_of_head? ha, head?_spaced, continues_cons_iff, ha, hends]
    · rw [if_neg ha, pieces_cons_separator (Bool.not_eq_true _ ▸ ha)]
  | case3 short hshort =>
    cases short with
    | nil => rfl
    | cons c rest =>
      cases rest with
      | nil =>
        by_cases hc : c.isAlphanum = true
        · rw [pieces_cons_of_head? hc, pieces_nil, splitWords, if_pos hc]
          rfl
        · rw [pieces_cons_separator (Bool.not_eq_true _ ▸ hc), splitWords, if_neg hc]
          rfl
      | cons d after => exact absurd rfl (hshort c d after)

/-! ## Renderings keep letters and digits -/

/-- Up to cases and underscores the rendering has the letters and digits of the name. -/
def KeepsLetters (name rendering : String) : Prop :=
  (rendering.toList.filter (· ≠ '_')).map Char.toLower =
    (name.toList.filter Char.isAlphanum).map Char.toLower

/-- Of what an identifier is spelled with, only the underscore is no letter or digit. -/
theorem filter_ne_underscore {cs : List Char} (h : ∀ c ∈ cs, isIdentChar c = true) :
    cs.filter (· ≠ '_') = cs.filter Char.isAlphanum := by
  apply List.filter_congr
  intro c hc
  by_cases hunderscore : c = '_'
  · subst hunderscore
    decide
  · have halnum : c.isAlphanum = true := by simpa [isIdentChar, hunderscore] using h c hc
    simp [hunderscore, halnum]

theorem filter_underscored {ws : List (List Char)} (h : ∀ w ∈ ws, IsWord w) :
    (underscored ws).filter Char.isAlphanum = ws.flatten := by
  have hkeep : ∀ {w : List Char}, IsWord w → w.filter Char.isAlphanum = w :=
    fun hw => List.filter_eq_self.mpr hw.2
  induction ws with
  | nil => rfl
  | cons w rest ih =>
    obtain ⟨hw, hrest⟩ := List.forall_mem_cons.mp h
    cases rest with
    | nil => simp [underscored, hkeep hw]
    | cons next others =>
      rw [underscored_cons_cons, List.filter_append, hkeep hw,
        List.filter_cons_of_neg (by decide), ih hrest]
      rfl

theorem filter_pascalWords {ws : List (List Char)} (h : ∀ w ∈ ws, IsWord w) :
    (pascalWords ws).filter Char.isAlphanum = (ws.map capitalize).flatten := by
  cases ws with
  | nil => rfl
  | cons first rest =>
    obtain ⟨hfirst, hrest⟩ := List.forall_mem_cons.mp h
    have hkeep : (capitalize first).filter Char.isAlphanum = capitalize first :=
      List.filter_eq_self.mpr (isAlphanum_of_mem_capitalize hfirst.2)
    rw [pascalWords, List.filter_append, hkeep, List.flatMap_def, List.filter_flatten, List.map_map,
      List.map_cons, List.flatten_cons]
    congr 2
    exact List.map_congr_left fun w hw => (hrest w hw).filter_guardDigit

theorem keepsLetters_pascalCase (name : String) : KeepsLetters name (pascalCase name) := by
  rw [KeepsLetters, filter_ne_underscore fun _ => isIdentChar_of_mem_pascalCase, pascalCase,
    String.toList_ofList, filter_pascalWords fun _ => isWord_of_mem_splitWords,
    ← flatten_splitWords, List.map_flatten, List.map_flatten, List.map_map]
  congr 1
  exact List.map_congr_left fun w _ => map_toLower_capitalize w

/-- Writing each letter in some case, with underscores between the words. -/
theorem keepsLetters_underscored (name : String) {f : Char → Char}
    (hf : ∀ c, c.isAlphanum = true → (f c).isAlphanum = true)
    (hlower : ∀ c, (f c).toLower = c.toLower) :
    KeepsLetters name (String.ofList (underscored ((splitWords name.toList).map (·.map f)))) := by
  have hwords : ∀ w ∈ (splitWords name.toList).map (·.map f), IsWord w :=
    fun _ => isWord_of_mem_map hf
  rw [KeepsLetters, String.toList_ofList,
    filter_ne_underscore (isIdentChar_of_mem_underscored fun w hw => (hwords w hw).2),
    filter_underscored hwords, ← List.map_flatten, flatten_splitWords, List.map_map]
  exact List.map_congr_left fun c _ => hlower c

/-- What the words of a name are, and what the renderings keep of them. -/
theorem words_cut_exactly (name : String) :
    (∀ ws : List String, CutAtWordEnds name.toList (ws.map String.toList) ↔ ws = words name) ∧
      (words name).map String.toList = pieces (spaced name.toList) ∧
      KeepsLetters name (pascalCase name) ∧ KeepsLetters name (snakeCase name) ∧
      KeepsLetters name (constantCase name) := by
  have hwords : (words name).map String.toList = splitWords name.toList := by
    simp [words, Function.comp_def]
  refine ⟨fun ws => ?_, ?_, keepsLetters_pascalCase name, ?_, ?_⟩
  · rw [cutAtWordEnds_iff, ← hwords]
    exact (List.map_injective_iff.mpr fun _ _ => String.toList_inj.mp).eq_iff
  · rw [hwords, pieces_spaced]
  · exact keepsLetters_underscored name (fun _ => isAlphanum_toLower) (by simp)
  · exact keepsLetters_underscored name (fun _ => isAlphanum_toUpper) (by simp)

/-- Two capitals that are parted and two that are not. -/
theorem words_cut_exactly_server :
    Neighbours "HTTPServer".toList "HTT".toList 'P' [] 'S' "erver".toList ∧
      ¬HeldTogether ((words "HTTPServer").map String.toList) "HTT".toList 'P' 'S' ∧
      Neighbours "HTTPServer".toList "HT".toList 'T' [] 'P' "Server".toList ∧
      HeldTogether ((words "HTTPServer").map String.toList) "HT".toList 'T' 'P' := by
  have hparted : Neighbours "HTTPServer".toList "HTT".toList 'P' [] 'S' "erver".toList :=
    ⟨rfl, rfl, rfl, by simp⟩
  have hjoined : Neighbours "HTTPServer".toList "HT".toList 'T' [] 'P' "Server".toList :=
    ⟨rfl, rfl, rfl, by simp⟩
  have hcut := ((words_cut_exactly "HTTPServer").1 (words "HTTPServer")).mpr rfl
  refine ⟨hparted, (hcut.apart_iff hparted).mpr (by decide), hjoined, ?_⟩
  exact not_not.mp fun happart => absurd ((hcut.apart_iff hjoined).mp happart) (by decide)

-- Digits end no word, but a capital behind them begins one.
example : words "Café_A1B·HTTPServer2" = ["Caf", "A1", "B", "HTTP", "Server2"] := by decide

end XdrCompiler.Naming
