/-
# XdrCompiler.Proofs.SwitchCoverage -- a default variant wherever a value is not listed

Whether a union needs a default variant is judged by the number of its switches
alone. The main statement, `default_fills_gaps`, says that the number is enough:
where the switches are values of the discriminant, the default variant is there
exactly if the definition asks for it or some value has no switch. An integer
always has a value without one.

For `bool` and for an enum it is a pigeonhole argument. The variants of a union
have names of their own, and a value of the discriminant has the name under which
a switch lists it. So as many switches as values list every value. The converse
takes values with names of their own, which `bool` always has and an enum need
not have: two of its cases may be rendered alike.
-/
import Mathlib.Data.List.Perm.Subperm
import XdrCompiler.Proofs.Compiled
import XdrCompiler.Source.Declaration

namespace XdrCompiler

/-! ## The default variant in the text -/

namespace UnionDecl

/-- The default variant stands behind the listed ones in the type, in the encoder and in the
decoder. -/
structure EmitsDefault (u : UnionDecl) : Prop where
  member : u.memberLines =
    u.variants.map memberLine ++ ["    Default(" ++ u.discriminant.declared ++ ")"]
  writer : u.writerLines = u.variants.map u.writerLine ++
    ["            " ++ u.name ++ "::Default(code) => code.to_xdr_buffered(write_stream),"]
  reader : u.readerLines = u.variants.map u.readerLine ++
    ["            code => Ok(" ++ u.name ++ "::Default(code)),"]

theorem emitsDefault_iff {u : UnionDecl} : u.EmitsDefault ↔ u.hasDefault = true := by
  constructor
  · intro h
    have hmember := h.member
    unfold memberLines at hmember
    rw [List.append_right_inj] at hmember
    by_contra hnone
    rw [if_neg hnone] at hmember
    cases hmember
  · intro h
    refine ⟨?_, ?_, ?_⟩
    · rw [memberLines, if_pos h]
    · rw [writerLines, if_pos h]
    · rw [readerLines, if_pos h]

end UnionDecl

/-! ## Values and switches -/

/-- The names under which a union lists the values of a discriminant that has finitely many. -/
def XdrType.valueIdents? : XdrType → Option (List String)
  | .bool => some ["True", "False"]
  | .enum decl => some (decl.cases.map EnumCase.ident)
  | _ => none

theorem XdrType.isExhaustedBy_iff {resolved : XdrType} {count : Nat} :
    resolved.isExhaustedBy count = true ↔
      ∃ idents, resolved.valueIdents? = some idents ∧ idents.length ≤ count := by
  cases resolved with
  | bool =>
    have hcast : (2 : Int) ≤ count ↔ 2 ≤ count := by omega
    simp [isExhaustedBy, valueIdents?, hcast]
  | enum decl => simp [isExhaustedBy, valueIdents?, EnumDecl.caseCount]
  | _ => simp [isExhaustedBy, valueIdents?]

/-- The definition has a switch for the value. -/
def UnionDefinition.Lists (d : UnionDefinition) (v : SwitchValue) : Prop :=
  ∃ arm, (v, arm) ∈ d.switches

/-- The definition has a switch for the case of an enum: a label that is rendered like it. -/
def UnionDefinition.ListsCase (d : UnionDefinition) (c : EnumCase) : Prop :=
  ∃ s, Naming.pascalCase s = c.ident ∧ d.Lists (.label s)

section Compiled

variable {beginnings : List String} {name : String} {d : UnionDefinition} {resolved : XdrType}
  {u : UnionDecl}

theorem UnionDecl.hasDefault_iff (h : UnionDecl.compile beginnings name d resolved = .ok u) :
    u.hasDefault = true ↔
      d.defaultArm ≠ none ∨ resolved.isExhaustedBy d.switches.length = false := by
  obtain ⟨discriminant, compiled, -, -, -, -, rfl⟩ := UnionDecl.compile_eq_ok_iff.mp h
  simp [UnionDefinition.needsDefault, Option.isSome_iff_ne_none]

/-- No two switches of a union that compiles have one name. -/
theorem UnionDecl.nodup_switch_idents (h : UnionDecl.compile beginnings name d resolved = .ok u) :
    (d.switches.map fun s => s.1.ident).Nodup := by
  obtain ⟨discriminant, compiled, -, -, hcompiled, -, -⟩ := UnionDecl.compile_eq_ok_iff.mp h
  exact (Variant.compileAll_eq_ok_iff.mp hcompiled).2.1

/-! ## Counting -/

/-- As many switches as there are values, all of them for values, list every value. -/
theorem UnionDecl.listed_of_not_hasDefault
    (h : UnionDecl.compile beginnings name d resolved = .ok u) {idents : List String}
    (hidents : resolved.valueIdents? = some idents)
    (hswitches : ∀ s ∈ d.switches, s.1.ident ∈ idents) (hdefault : ¬u.hasDefault = true)
    {ident : String} (hident : ident ∈ idents) : ∃ s ∈ d.switches, s.1.ident = ident := by
  have hexhausted : resolved.isExhaustedBy d.switches.length = true := by
    rw [UnionDecl.hasDefault_iff h, not_or] at hdefault
    simpa using hdefault.2
  obtain ⟨idents', hidents', hlength⟩ := XdrType.isExhaustedBy_iff.mp hexhausted
  obtain rfl : idents = idents' := Option.some_inj.mp (hidents.symm.trans hidents')
  have hsubset : (d.switches.map fun s => s.1.ident) ⊆ idents := by
    intro i hi
    obtain ⟨s, hs, rfl⟩ := List.mem_map.mp hi
    exact hswitches s hs
  -- Distinct names inside a list that is no longer than they are exhaust it.
  have hperm := (List.subperm_of_subset (UnionDecl.nodup_switch_idents h) hsubset).perm_of_length_le
    (by rwa [List.length_map])
  exact List.mem_map.mp (hperm.mem_iff.mpr hident)

/-- Where the values have names of their own, a default variant that the definition does not
ask for has a value to take. -/
theorem UnionDecl.hasDefault_iff_gap (h : UnionDecl.compile beginnings name d resolved = .ok u)
    {idents : List String} (hidents : resolved.valueIdents? = some idents)
    (hswitches : ∀ s ∈ d.switches, s.1.ident ∈ idents) (hnodup : idents.Nodup) :
    u.hasDefault = true ↔
      d.defaultArm ≠ none ∨ ∃ ident ∈ idents, ∀ s ∈ d.switches, s.1.ident ≠ ident := by
  constructor
  · intro hdefault
    by_contra hnone
    push Not at hnone
    obtain ⟨harm, hlisted⟩ := hnone
    have hsubset : idents ⊆ d.switches.map fun s => s.1.ident := by
      intro ident hident
      obtain ⟨s, hs, hsame⟩ := hlisted ident hident
      exact List.mem_map.mpr ⟨s, hs, hsame⟩
    have hlength : idents.length ≤ d.switches.length := by
      simpa using (List.subperm_of_subset hnodup hsubset).length_le
    have hexhausted := XdrType.isExhaustedBy_iff.mpr ⟨idents, hidents, hlength⟩
    rcases (UnionDecl.hasDefault_iff h).mp hdefault with hgiven | hfew
    · exact hgiven harm
    · rw [hexhausted] at hfew
      cases hfew
  · rintro (hgiven | ⟨ident, hident, hgap⟩)
    · exact (UnionDecl.hasDefault_iff h).mpr (Or.inl hgiven)
    · by_contra hdefault
      obtain ⟨s, hs, hsame⟩ :=
        UnionDecl.listed_of_not_hasDefault h hidents hswitches hdefault hident
      exact hgap s hs hsame

end Compiled

/-! ## The values of a discriminant -/

theorem SwitchValue.ident_truth_inj {b c : Bool} (h : (truth b).ident = (truth c).ident) :
    b = c := by
  revert h
  cases b <;> cases c <;> decide

/-- With truth values for switches, the names without a switch are those of the truth values
that are not listed. -/
theorem UnionDefinition.exists_gap_bool_iff {d : UnionDefinition}
    (hbool : ∀ v, d.Lists v → ∃ b, v = .truth b) :
    (∃ ident ∈ ["True", "False"], ∀ s ∈ d.switches, s.1.ident ≠ ident) ↔
      ∃ b, ¬d.Lists (.truth b) := by
  have hident (b : Bool) :
      (∀ s ∈ d.switches, s.1.ident ≠ (SwitchValue.truth b).ident) ↔ ¬d.Lists (.truth b) := by
    constructor
    · rintro hgap ⟨arm, hs⟩
      exact hgap _ hs rfl
    · rintro hnot ⟨v, arm⟩ hs hsame
      obtain ⟨c, rfl⟩ := hbool v ⟨arm, hs⟩
      rw [SwitchValue.ident_truth_inj hsame] at hs
      exact hnot ⟨arm, hs⟩
  simp only [List.mem_cons, List.not_mem_nil, or_false, exists_eq_or_imp, exists_eq_left,
    Bool.exists_bool, ← hident]
  exact or_comm

/-- With labels for switches, a case is listed if some switch has its name. -/
theorem UnionDefinition.listsCase_iff {d : UnionDefinition}
    (hlabel : ∀ v, d.Lists v → ∃ s, v = .label s) (c : EnumCase) :
    d.ListsCase c ↔ ∃ s ∈ d.switches, s.1.ident = c.ident := by
  constructor
  · rintro ⟨s, hs, arm, hmem⟩
    exact ⟨_, hmem, hs⟩
  · rintro ⟨⟨v, arm⟩, hmem, hsame⟩
    obtain ⟨s, rfl⟩ := hlabel v ⟨arm, hmem⟩
    exact ⟨s, hsame, arm, hmem⟩

theorem EnumDecl.idents_compile (name : String) (cases : Table String Int) :
    (EnumDecl.compile name cases).cases.map EnumCase.ident =
      cases.keys.map Naming.pascalCase := by
  simp [EnumDecl.compile, Table.keys, Function.comp_def]

/-! ## Coverage -/

/-- The default variant of a union is there for the values that have no switch. -/
structure DefaultFillsGaps (d : UnionDefinition) (resolved : XdrType) (u : UnionDecl) : Prop where
  integer : resolved = .int ∨ resolved = .uint ∨ resolved = .hyper ∨ resolved = .uhyper →
    u.EmitsDefault
  bool : resolved = .bool → (∀ v, d.Lists v → ∃ b, v = .truth b) →
    (u.EmitsDefault ↔ d.defaultArm ≠ none ∨ ∃ b, ¬d.Lists (.truth b))
  enum : ∀ (enumName : String) (cases : Table String Int) (e : EnumDecl),
    EnumDecl.compile enumName cases = e → resolved = .enum e →
    (∀ v, d.Lists v → ∃ s, v = .label s ∧ ∃ c ∈ e.cases, Naming.pascalCase s = c.ident) →
    (¬u.EmitsDefault → ∀ c ∈ e.cases, d.ListsCase c) ∧
      ((cases.keys.map Naming.pascalCase).Nodup →
        (u.EmitsDefault ↔ d.defaultArm ≠ none ∨ ∃ c ∈ e.cases, ¬d.ListsCase c))

/-- Every union that compiles has its default variant exactly where it is needed. -/
theorem default_fills_gaps {beginnings : List String} {name : String} {d : UnionDefinition}
    {resolved : XdrType} {u : UnionDecl}
    (h : UnionDecl.compile beginnings name d resolved = .ok u) : DefaultFillsGaps d resolved u := by
  refine ⟨?_, ?_, ?_⟩
  · intro hinteger
    rw [UnionDecl.emitsDefault_iff, UnionDecl.hasDefault_iff h]
    right
    rcases hinteger with rfl | rfl | rfl | rfl <;> rfl
  · rintro rfl hbool
    have hswitches : ∀ s ∈ d.switches, s.1.ident ∈ ["True", "False"] := by
      rintro ⟨v, arm⟩ hs
      obtain ⟨b, rfl⟩ := hbool v ⟨arm, hs⟩
      show (SwitchValue.truth b).ident ∈ ["True", "False"]
      cases b <;> decide
    rw [UnionDecl.emitsDefault_iff, UnionDecl.hasDefault_iff_gap h rfl hswitches (by decide),
      UnionDefinition.exists_gap_bool_iff hbool]
  · rintro enumName cases e he rfl hlabels
    have hlabel : ∀ v, d.Lists v → ∃ s, v = .label s := by
      intro v hv
      obtain ⟨s, rfl, -⟩ := hlabels v hv
      exact ⟨s, rfl⟩
    have hswitches : ∀ s ∈ d.switches, s.1.ident ∈ e.cases.map EnumCase.ident := by
      rintro ⟨v, arm⟩ hs
      obtain ⟨s, rfl, c, hc, hsame⟩ := hlabels v ⟨arm, hs⟩
      exact List.mem_map.mpr ⟨c, hc, hsame.symm⟩
    simp only [UnionDecl.emitsDefault_iff, UnionDefinition.listsCase_iff hlabel]
    refine ⟨?_, ?_⟩
    · intro hdefault c hc
      exact UnionDecl.listed_of_not_hasDefault h rfl hswitches hdefault (List.mem_map_of_mem hc)
    · intro hnodup
      rw [← EnumDecl.idents_compile enumName, he] at hnodup
      rw [UnionDecl.hasDefault_iff_gap h rfl hswitches hnodup]
      simp

/-- An enum whose cases are spelled in three ways. -/
def colors : EnumDecl :=
  EnumDecl.compile "Color" (Table.ofList [("darkRed", 0), ("GREEN", 1), ("Blue", 7)])

/-- All cases of the enum, in another order and in other spellings. -/
def allColors : UnionDefinition where
  switchOn := .reference "Color"
  switchName := "color"
  switches :=
    [(.label "blue", .empty), (.label "DARK_RED", .named "shade"), (.label "green", .empty)]
  arms := Table.ofList [("shade", .uint)]
  defaultArm := none

theorem default_fills_gaps_colors :
    ∃ u, UnionDecl.compile [] "Paint" allColors (.enum colors) = .ok u ∧
      ¬u.EmitsDefault ∧ ∀ c ∈ colors.cases, allColors.ListsCase c := by
  have hrun : (UnionDecl.compile [] "Paint" allColors (.enum colors)).map UnionDecl.hasDefault =
      .ok false := by
    decide +kernel
  have hlabels : ∀ v, allColors.Lists v →
      ∃ s, v = .label s ∧ ∃ c ∈ colors.cases, Naming.pascalCase s = c.ident := by
    rintro v ⟨arm, hs⟩
    simp only [allColors, List.mem_cons, Prod.mk.injEq, List.not_mem_nil, or_false] at hs
    rcases hs with ⟨rfl, -⟩ | ⟨rfl, -⟩ | ⟨rfl, -⟩
    · exact ⟨"blue", rfl, ⟨"Blue", 7⟩, by decide +kernel⟩
    · exact ⟨"DARK_RED", rfl, ⟨"DarkRed", 0⟩, by decide +kernel⟩
    · exact ⟨"green", rfl, ⟨"Green", 1⟩, by decide +kernel⟩
  obtain ⟨u, hu, hdefault⟩ := map_eq_ok_iff.mp hrun
  have hnone : ¬u.EmitsDefault := by simp [UnionDecl.emitsDefault_iff, hdefault]
  exact ⟨u, hu, hnone,
    ((default_fills_gaps hu).enum "Color" _ colors rfl rfl hlabels).1 hnone⟩

end XdrCompiler
