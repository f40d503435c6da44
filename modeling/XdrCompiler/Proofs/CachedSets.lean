/-
# XdrCompiler.Proofs.CachedSets -- what a declaration needs and holds is what its text names

A compiled struct or union carries two sets of names, those that it needs and
those that are part of its values. They are gathered from the descriptors, next to
the Rust types and by recursions of their own. Here they are compared with the
text that is written. What a declaration needs is what the types in it name. What
it holds is what they name outside of `Box` and of the two kinds of vectors, be it
a `Box` around the first field of a boxed family, around a payload with a boxed
beginning, or around the pointer of an optional reference back to the owner.

The text comes in last. Before that, both sets are compared with the Rust types
of the declaration (`StructDecl.mem_held_iff`, `UnionDecl.mem_referred_iff` and
their like), which holds whatever the names are.
-/
import XdrCompiler.Proofs.Compiled
import XdrCompiler.Proofs.TypeText

namespace XdrCompiler

open TypeText (IsReferenceName Legible namesIn heldNamesIn isMark)

/-! ## Members -/

namespace XdrType

/-- The Rust type of a descriptor holds exactly what the descriptor holds. -/
theorem mem_heldNames_toRust {t : XdrType} {type : RustType} (h : t.toRust = .ok type)
    (n : String) : n ∈ type.heldNames ↔ n ∈ t.heldDependencies := by
  induction t generalizing type with
  | reference name =>
    cases h
    simp [RustType.heldNames, heldDependencies]
  | array element length ih =>
    obtain ⟨inner, hinner, rfl⟩ := map_eq_ok_iff.mp h
    show n ∈ inner.heldNames ↔ n ∈ element.heldDependencies
    exact ih hinner
  | varArray element bound ih =>
    obtain ⟨inner, hinner, rfl⟩ := map_eq_ok_iff.mp h
    simp [RustType.heldNames, heldDependencies]
  | option element ih =>
    obtain ⟨inner, hinner, rfl⟩ := map_eq_ok_iff.mp h
    show n ∈ inner.heldNames ↔ n ∈ element.heldDependencies
    exact ih hinner
  | void => cases h
  | enum decl => cases h
  | struct decl => cases h
  | union decl => cases h
  | raw value => cases h
  | _ =>
    cases h
    simp [RustType.heldNames, heldDependencies]

/-- The same for a member; the pointer back to its owner holds nothing. -/
theorem mem_heldNames_toMember {t : XdrType} {owner : String} {type : RustType}
    (h : t.toMember owner = .ok type) (n : String) :
    n ∈ type.heldNames ↔ n ∈ t.memberHeld owner := by
  unfold toMember at h
  unfold memberHeld
  by_cases hcycle : t.isOptionalCycle owner = true
  · rw [if_pos hcycle] at h ⊢
    cases h
    simp [RustType.heldNames]
  · rw [if_neg hcycle] at h ⊢
    exact mem_heldNames_toRust h n

/-- The lengths of a Rust type are the lengths of the descriptor, written out. -/
theorem exists_length_of_toRust {t : XdrType} {type : RustType} (h : t.toRust = .ok type) :
    ∀ l ∈ type.lengths, ∃ length : Length, l = length.text := by
  induction t generalizing type with
  | array element length ih =>
    obtain ⟨inner, hinner, rfl⟩ := map_eq_ok_iff.mp h
    intro l hl
    rcases List.mem_cons.mp hl with rfl | hl
    · exact ⟨length, rfl⟩
    · exact ih hinner l hl
  | varArray element bound ih =>
    obtain ⟨inner, hinner, rfl⟩ := map_eq_ok_iff.mp h
    intro l hl
    rcases List.mem_append.mp hl with hl | hl
    · obtain ⟨length, -, rfl⟩ := Option.map_eq_some_iff.mp (Option.mem_toList.mp hl)
      exact ⟨length, rfl⟩
    · exact ih hinner l hl
  | bytes length =>
    cases h
    intro l hl
    exact ⟨length, List.mem_singleton.mp hl⟩
  | varBytes bound =>
    cases h
    intro l hl
    obtain ⟨length, -, rfl⟩ := Option.map_eq_some_iff.mp (Option.mem_toList.mp hl)
    exact ⟨length, rfl⟩
  | string bound =>
    cases h
    intro l hl
    obtain ⟨length, -, rfl⟩ := Option.map_eq_some_iff.mp (Option.mem_toList.mp hl)
    exact ⟨length, rfl⟩
  | option element ih =>
    obtain ⟨inner, hinner, rfl⟩ := map_eq_ok_iff.mp h
    intro l hl
    exact ih hinner l hl
  | void => cases h
  | enum decl => cases h
  | struct decl => cases h
  | union decl => cases h
  | raw value => cases h
  | _ =>
    cases h
    intro l hl
    exact absurd hl List.not_mem_nil

end XdrType

theorem TypeText.not_isMark_of_isIdentChar {c : Char} (h : Naming.isIdentChar c = true) :
    isMark c = false := by
  rw [Bool.eq_false_iff]
  intro hmark
  simp only [isMark, List.mem_cons, List.not_mem_nil, or_false, decide_eq_true_eq] at hmark
  rcases hmark with rfl | rfl | rfl | rfl | rfl | rfl | rfl <;> exact absurd h (by decide)

/-- No length has a mark in it. -/
theorem Length.not_isMark_text (length : Length) : ∀ c ∈ length.text.toList, isMark c = false := by
  intro c hc
  cases length with
  | literal n =>
    rcases Naming.isDigit_or_minus_of_mem_toString hc with hdigit | rfl
    · apply TypeText.not_isMark_of_isIdentChar
      simp [Naming.isIdentChar, Char.isAlphanum, hdigit]
    · simp [isMark]
  | constant name =>
    exact TypeText.not_isMark_of_isIdentChar (Naming.isIdentChar_of_mem_constantCase hc)

theorem XdrType.legible_of_toRust {t : XdrType} {type : RustType} (h : t.toRust = .ok type)
    (hnames : ∀ n ∈ t.dependencies, IsReferenceName n) : Legible type where
  names := fun n hn => hnames n ((mem_names_toRust h n).mp hn)
  lengths := by
    intro l hl
    obtain ⟨length, rfl⟩ := exists_length_of_toRust h l hl
    exact length.not_isMark_text

theorem XdrType.legible_of_toMember {t : XdrType} {owner : String} {type : RustType}
    (h : t.toMember owner = .ok type) (hnames : ∀ n ∈ t.dependencies, IsReferenceName n) :
    Legible type := by
  refine ⟨fun n hn => hnames n ((mem_names_toMember h n).mp hn), ?_⟩
  unfold toMember at h
  split at h
  · cases h
    exact fun l hl => absurd hl List.not_mem_nil
  · exact (legible_of_toRust h hnames).lengths

/-! ## Structs -/

theorem FieldDecl.mem_heldByFields_iff {owner : String} {boxed : Bool}
    {fields : List (String × XdrType)} {decls : List FieldDecl}
    (h : FieldDecl.compileAll owner boxed fields = .ok decls) (n : String) :
    (∃ held ∈ heldByFields owner boxed fields, n ∈ held) ↔
      ∃ f ∈ decls, f.boxed = false ∧ n ∈ f.type.heldNames := by
  -- Only the first field can be boxed, so the flag falls to `false` along the list.
  induction fields generalizing boxed decls with
  | nil =>
    cases h
    simp [heldByFields]
  | cons field rest ih =>
    obtain ⟨first, hfirst, h⟩ := bind_eq_ok_iff.mp h
    obtain ⟨others, hothers, h⟩ := bind_eq_ok_iff.mp h
    cases h
    obtain ⟨type, htype, rfl⟩ := map_eq_ok_iff.mp hfirst
    have hheld := XdrType.mem_heldNames_toMember htype n
    simp only [heldByFields, List.mem_cons, exists_eq_or_imp, ih hothers, hheld]
    cases boxed <;> simp

namespace StructDecl

variable {beginnings : List String} {name : String} {fields : List (String × XdrType)}
  {s : StructDecl}

/-- A struct needs what the types of its fields name. -/
theorem mem_referred_iff (h : StructDecl.compile beginnings name fields = .ok s) (n : String) :
    n ∈ s.referred ↔ ∃ f ∈ s.fields, n ∈ f.type.names := by
  constructor
  · intro hn
    obtain ⟨decls, hdecls, rfl⟩ := StructDecl.compile_eq_ok_iff.mp h
    obtain ⟨deps, hdeps, hn⟩ := NameSet.mem_unionAll.mp hn
    obtain ⟨field, hfield, rfl⟩ := List.mem_map.mp hdeps
    obtain ⟨f, hf, -, htype⟩ := exists_result_of_mem (FieldDecl.forall₂_of_compileAll hdecls) hfield
    exact ⟨f, hf, (XdrType.mem_names_toMember htype n).mpr hn⟩
  · rintro ⟨f, hf, hn⟩
    exact StructDecl.names_subset_referred h hf hn

/-- A struct holds what the types of its fields hold, unless the field is boxed. -/
theorem mem_held_iff (h : StructDecl.compile beginnings name fields = .ok s) (n : String) :
    n ∈ s.held ↔ ∃ f ∈ s.fields, f.boxed = false ∧ n ∈ f.type.heldNames := by
  obtain ⟨decls, hdecls, rfl⟩ := StructDecl.compile_eq_ok_iff.mp h
  rw [NameSet.mem_unionAll]
  exact FieldDecl.mem_heldByFields_iff hdecls n

theorem held_subset_referred (h : StructDecl.compile beginnings name fields = .ok s) :
    ∀ n ∈ s.held, n ∈ s.referred := by
  intro n hn
  obtain ⟨f, hf, -, hn⟩ := (mem_held_iff h n).mp hn
  exact (mem_referred_iff h n).mpr ⟨f, hf, f.type.heldNames_subset_names n hn⟩

end StructDecl

/-! ## Unions -/

/-- The name is needed by an arm that no switch selects. -/
def UnionDefinition.NeededUnselected (d : UnionDefinition) (n : String) : Prop :=
  ∃ key t, d.arms.get? key = some t ∧ ¬d.Selects key ∧ n ∈ t.dependencies

theorem Variant.mem_held_iff {beginnings : List String} {unionName : String} {d : UnionDefinition}
    {value : SwitchValue} {arm : Arm} {c : Variant × NameSet}
    (h : Variant.compile beginnings unionName d value arm = .ok c) (n : String) :
    n ∈ c.2 ↔ ∃ p, c.1.payload = some p ∧ p.boxed = false ∧ n ∈ p.type.heldNames := by
  unfold Variant.compile at h
  cases arm with
  | empty =>
    cases h
    simp
  | foreign => cases h
  | named key =>
    cases hpayload : d.payload? key with
    | none =>
      simp only [hpayload] at h
      cases h
    | some payload =>
      simp only [hpayload] at h
      obtain ⟨type, htype, rfl⟩ := map_eq_ok_iff.mp h
      have hheld := XdrType.mem_heldNames_toMember htype n
      cases hboxed : startsWithAny beginnings type.callable <;> simp [hheld]

namespace UnionDecl

variable {beginnings : List String} {name : String} {d : UnionDefinition} {resolved : XdrType}
  {u : UnionDecl}

theorem toRust_switchOn (h : UnionDecl.compile beginnings name d resolved = .ok u) :
    d.switchOn.toRust = .ok u.discriminant := by
  obtain ⟨discriminant, compiled, hdiscriminant, -, -, -, rfl⟩ := UnionDecl.compile_eq_ok_iff.mp h
  exact hdiscriminant

/-- A payload of a compiled union is that of an arm which some switch selects. -/
theorem exists_arm_of_payload (h : UnionDecl.compile beginnings name d resolved = .ok u)
    {v : Variant} (hv : v ∈ u.variants) {p : Payload} (hp : v.payload = some p) :
    ∃ key t, d.Selects key ∧ d.arms.get? key = some t ∧ t.toMember name = .ok p.type := by
  obtain ⟨⟨value, arm⟩, hs, -, -, hfits⟩ := exists_source_of_mem (UnionDecl.forall₂_variants h) hv
  rw [hp] at hfits
  cases arm with
  | empty => exact hfits.elim
  | foreign => exact hfits.elim
  | named key =>
    obtain ⟨payload, hpayload, htype, -⟩ := hfits
    obtain ⟨t, ht, hdefined⟩ := Option.bind_eq_some_iff.mp hpayload
    rw [XdrType.eq_of_defined?_eq_some hdefined] at htype
    exact ⟨key, t, ⟨value, hs⟩, ht, htype⟩

/-- An arm that some switch selects is a payload of the compiled union. -/
theorem exists_payload_of_arm (h : UnionDecl.compile beginnings name d resolved = .ok u)
    {key : String} (hkey : d.Selects key) {t : XdrType} (ht : d.arms.get? key = some t) :
    ∃ v ∈ u.variants, ∃ p, v.payload = some p ∧ t.toMember name = .ok p.type := by
  obtain ⟨value, hs⟩ := hkey
  obtain ⟨v, hv, -, -, hfits⟩ := exists_result_of_mem (UnionDecl.forall₂_variants h) hs
  cases hp : v.payload with
  | none =>
    rw [hp] at hfits
    exact hfits.elim
  | some p =>
    rw [hp] at hfits
    obtain ⟨payload, hpayload, htype, -⟩ := hfits
    obtain ⟨t', ht', hdefined⟩ := Option.bind_eq_some_iff.mp hpayload
    obtain rfl : t = t' := Option.some_inj.mp (ht.symm.trans ht')
    rw [XdrType.eq_of_defined?_eq_some hdefined] at htype
    exact ⟨v, hv, p, hp, htype⟩

/-- A union needs what its payloads and its discriminant name, and what the other arms need. -/
theorem mem_referred_iff (h : UnionDecl.compile beginnings name d resolved = .ok u) (n : String) :
    n ∈ u.referred ↔ (∃ v ∈ u.variants, ∃ p, v.payload = some p ∧ n ∈ p.type.names) ∨
      n ∈ u.discriminant.names ∨ d.NeededUnselected n := by
  have hreferred : u.referred = (NameSet.unionAll (d.arms.values.map XdrType.dependencies)).union
      d.switchOn.dependencies := by
    obtain ⟨discriminant, compiled, -, -, -, -, rfl⟩ := UnionDecl.compile_eq_ok_iff.mp h
    rfl
  constructor
  · intro hn
    rw [hreferred, NameSet.mem_union, NameSet.mem_unionAll] at hn
    rcases hn with ⟨deps, hdeps, hn⟩ | hn
    · obtain ⟨t, ht, rfl⟩ := List.mem_map.mp hdeps
      obtain ⟨⟨key, t⟩, hentry, rfl⟩ := List.mem_map.mp ht
      have hget : d.arms.get? key = some t := Table.get?_eq_some_iff.mpr hentry
      by_cases hkey : d.Selects key
      · obtain ⟨v, hv, p, hp, htype⟩ := exists_payload_of_arm h hkey hget
        exact Or.inl ⟨v, hv, p, hp, (XdrType.mem_names_toMember htype n).mpr hn⟩
      · exact Or.inr (Or.inr ⟨key, t, hget, hkey, hn⟩)
    · exact Or.inr (Or.inl ((XdrType.mem_names_toRust (toRust_switchOn h) n).mpr hn))
  · rintro (⟨v, hv, p, hp, hn⟩ | hn | ⟨key, t, ht, -, hn⟩)
    · exact payload_names_subset_referred h hv hp hn
    · exact discriminant_names_subset_referred h hn
    · rw [hreferred, NameSet.mem_union, NameSet.mem_unionAll]
      exact Or.inl ⟨_, List.mem_map_of_mem (Table.mem_values_of_get? ht), hn⟩

/-- A union holds what its discriminant and its payloads hold, unless a payload is boxed. -/
theorem mem_held_iff (h : UnionDecl.compile beginnings name d resolved = .ok u) (n : String) :
    n ∈ u.held ↔ (∃ v ∈ u.variants, ∃ p, v.payload = some p ∧ p.boxed = false ∧
      n ∈ p.type.heldNames) ∨ n ∈ u.discriminant.heldNames := by
  rw [XdrType.mem_heldNames_toRust (toRust_switchOn h)]
  obtain ⟨discriminant, compiled, -, -, hcompiled, -, rfl⟩ := UnionDecl.compile_eq_ok_iff.mp h
  obtain ⟨hall, -, -⟩ := Variant.compileAll_eq_ok_iff.mp hcompiled
  have hvariant : ∀ c ∈ compiled, (n ∈ c.2 ↔
      ∃ p, c.1.payload = some p ∧ p.boxed = false ∧ n ∈ p.type.heldNames) := by
    intro c hc
    obtain ⟨s, -, hs⟩ := exists_source_of_mem hall hc
    exact Variant.mem_held_iff hs n
  simp only [NameSet.mem_union, NameSet.mem_unionAll, List.mem_map, exists_exists_and_eq_and]
  rw [or_comm]
  refine or_congr_left (exists_congr fun c => and_congr_right fun hc => hvariant c hc)

theorem held_subset_referred (h : UnionDecl.compile beginnings name d resolved = .ok u) :
    ∀ n ∈ u.held, n ∈ u.referred := by
  intro n hn
  rw [mem_referred_iff h]
  rcases (mem_held_iff h n).mp hn with ⟨v, hv, p, hp, -, hn⟩ | hn
  · exact Or.inl ⟨v, hv, p, hp, p.type.heldNames_subset_names n hn⟩
  · exact Or.inr (Or.inl (u.discriminant.heldNames_subset_names n hn))

end UnionDecl

/-! ## The sets and the text -/

/-- The types of the fields as they are declared. -/
def StructDecl.fieldTypes (s : StructDecl) : List String :=
  s.fields.map fun f => declaredType f.type f.boxed

/-- The types of the payloads as they are declared. -/
def UnionDecl.payloadTypes (u : UnionDecl) : List String :=
  u.variants.filterMap fun v => v.payload.map fun p => declaredType p.type p.boxed

/-- A struct needs and holds what the types of its fields name. -/
structure StructDecl.SetsMatchText (s : StructDecl) : Prop where
  referred : ∀ n, n ∈ s.referred ↔ ∃ type ∈ s.fieldTypes, n ∈ namesIn type
  held : ∀ n, n ∈ s.held ↔ ∃ type ∈ s.fieldTypes, n ∈ heldNamesIn type

/-- A union needs and holds what the types of its payloads and its discriminant name; it needs
what its other arms need as well. -/
structure UnionDecl.SetsMatchText (u : UnionDecl) (d : UnionDefinition) : Prop where
  referred : ∀ n, n ∈ u.referred ↔ (∃ type ∈ u.payloadTypes, n ∈ namesIn type) ∨
    n ∈ namesIn u.discriminant.declared ∨ d.NeededUnselected n
  held : ∀ n, n ∈ u.held ↔ (∃ type ∈ u.payloadTypes, n ∈ heldNamesIn type) ∨
    n ∈ heldNamesIn u.discriminant.declared
  discriminant : ∀ n, n ∈ heldNamesIn u.discriminant.declared ↔ n ∈ d.switchOn.heldDependencies

/-- The names that a struct refers to can be told from the rest of the text. -/
def HasReferenceNames (fields : List (String × XdrType)) : Prop :=
  ∀ field ∈ fields, ∀ n ∈ field.2.dependencies, IsReferenceName n

/-- The names that the text of a union refers to can be told from the rest of it. -/
structure UnionDefinition.HasReferenceNames (d : UnionDefinition) : Prop where
  switchOn : ∀ n ∈ d.switchOn.dependencies, IsReferenceName n
  arms : ∀ key t, d.Selects key → d.arms.get? key = some t →
    ∀ n ∈ t.dependencies, IsReferenceName n

theorem StructDecl.setsMatchText {beginnings : List String} {name : String}
    {fields : List (String × XdrType)} {s : StructDecl}
    (h : StructDecl.compile beginnings name fields = .ok s) (hnames : HasReferenceNames fields) :
    s.SetsMatchText := by
  have hlegible : ∀ f ∈ s.fields, Legible f.type := by
    obtain ⟨decls, hdecls, rfl⟩ := StructDecl.compile_eq_ok_iff.mp h
    intro f hf
    obtain ⟨field, hfield, -, htype⟩ :=
      exists_source_of_mem (FieldDecl.forall₂_of_compileAll hdecls) hf
    exact XdrType.legible_of_toMember htype (hnames field hfield)
  refine ⟨?_, ?_⟩
  · intro n
    rw [mem_referred_iff h, fieldTypes]
    simp only [List.mem_map, exists_exists_and_eq_and]
    refine exists_congr fun f => and_congr_right fun hf => ?_
    rw [TypeText.namesIn_declaredType (hlegible f hf)]
  · intro n
    rw [mem_held_iff h, fieldTypes]
    simp only [List.mem_map, exists_exists_and_eq_and]
    refine exists_congr fun f => and_congr_right fun hf => ?_
    rw [TypeText.heldNamesIn_declaredType (hlegible f hf)]
    cases f.boxed <;> simp

theorem UnionDecl.exists_payloadTypes_iff {u : UnionDecl} {P : String → Prop} :
    (∃ type ∈ u.payloadTypes, P type) ↔
      ∃ v ∈ u.variants, ∃ p, v.payload = some p ∧ P (declaredType p.type p.boxed) := by
  simp only [payloadTypes, List.mem_filterMap, Option.map_eq_some_iff]
  constructor
  · rintro ⟨type, ⟨v, hv, p, hp, rfl⟩, htype⟩
    exact ⟨v, hv, p, hp, htype⟩
  · rintro ⟨v, hv, p, hp, htype⟩
    exact ⟨_, ⟨v, hv, p, hp, rfl⟩, htype⟩

theorem UnionDecl.setsMatchText {beginnings : List String} {name : String} {d : UnionDefinition}
    {resolved : XdrType} {u : UnionDecl}
    (h : UnionDecl.compile beginnings name d resolved = .ok u) (hnames : d.HasReferenceNames) :
    u.SetsMatchText d := by
  have hdiscriminant : Legible u.discriminant :=
    XdrType.legible_of_toRust (toRust_switchOn h) hnames.switchOn
  have hlegible : ∀ v ∈ u.variants, ∀ p, v.payload = some p → Legible p.type := by
    intro v hv p hp
    obtain ⟨key, t, hkey, ht, htype⟩ := exists_arm_of_payload h hv hp
    exact XdrType.legible_of_toMember htype (hnames.arms key t hkey ht)
  have hnamesIn : namesIn u.discriminant.declared = u.discriminant.names :=
    TypeText.namesIn_declaredType hdiscriminant false
  have hheldNamesIn : heldNamesIn u.discriminant.declared = u.discriminant.heldNames :=
    TypeText.heldNamesIn_declaredType hdiscriminant false
  refine ⟨?_, ?_, ?_⟩
  · intro n
    rw [mem_referred_iff h, exists_payloadTypes_iff, hnamesIn]
    refine or_congr_left (exists_congr fun v => and_congr_right fun hv =>
      exists_congr fun p => and_congr_right fun hp => ?_)
    rw [TypeText.namesIn_declaredType (hlegible v hv p hp)]
  · intro n
    rw [mem_held_iff h, exists_payloadTypes_iff, hheldNamesIn]
    refine or_congr_left (exists_congr fun v => and_congr_right fun hv =>
      exists_congr fun p => and_congr_right fun hp => ?_)
    rw [TypeText.heldNamesIn_declaredType (hlegible v hv p hp)]
    cases p.boxed <;> simp
  · intro n
    rw [hheldNamesIn]
    exact XdrType.mem_heldNames_toRust (toRust_switchOn h) n

/-- The sets of every declaration that compiles are those of its text, and what it holds is
part of what it needs. -/
theorem cached_sets_match_text (beginnings : List String) (name : String) :
    (∀ fields s, StructDecl.compile beginnings name fields = .ok s →
      (HasReferenceNames fields → s.SetsMatchText) ∧ ∀ n ∈ s.held, n ∈ s.referred) ∧
    (∀ d resolved u, UnionDecl.compile beginnings name d resolved = .ok u →
      (d.HasReferenceNames → u.SetsMatchText d) ∧ ∀ n ∈ u.held, n ∈ u.referred) := by
  refine ⟨?_, ?_⟩
  · intro fields s h
    exact ⟨StructDecl.setsMatchText h, StructDecl.held_subset_referred h⟩
  · intro d resolved u h
    exact ⟨UnionDecl.setsMatchText h, UnionDecl.held_subset_referred h⟩

/-- A field in front that a beginning boxes, a pointer back, and a length spelled like the type
of another field. -/
def nodeFields : List (String × XdrType) :=
  [("head", .reference "Head"), ("next", .option (.reference "ScSpecTypeNode")),
    ("key", .array (.option (.reference "SIZE")) (.constant "size")),
    ("rest", .varArray (.reference "Tail") (some (.constant "size")))]

/-- Payloads by value, behind a beginning that is boxed and in a vector, and an arm that no
switch selects. -/
def choiceUnion : UnionDefinition where
  switchOn := .reference "Kind"
  switchName := "kind"
  switches := [(.label "plain", .named "plain"), (.label "boxed", .named "boxed"),
    (.label "many", .named "many"), (.label "none", .empty)]
  arms := Table.ofList
    [("plain", .option (.reference "Plain")), ("boxed", .reference "ScSpecTypeDef"),
      ("many", .varArray (.reference "Many") none), ("spare", .reference "Spare")]
  defaultArm := none

theorem cached_sets_match_text_node :
    (∃ s, StructDecl.compile ["ScSpecType"] "ScSpecTypeNode" nodeFields = .ok s ∧
      HasReferenceNames nodeFields ∧ s.SetsMatchText) ∧
    (∃ u, UnionDecl.compile ["ScSpecType"] "ScSpecTypeNode" choiceUnion .int = .ok u ∧
      choiceUnion.HasReferenceNames ∧ u.SetsMatchText choiceUnion) := by
  have hfields : HasReferenceNames nodeFields := by
    simp [HasReferenceNames, nodeFields, XdrType.dependencies, IsReferenceName, TypeText.IsWord,
      TypeText.typeWords, isMark]
  have hdefinition : choiceUnion.HasReferenceNames := by
    have harms : ∀ arm ∈ choiceUnion.arms.entries, ∀ n ∈ arm.2.dependencies, IsReferenceName n := by
      simp [choiceUnion, Table.ofList, Table.insert, Table.empty, Pairs.put, XdrType.dependencies,
        IsReferenceName, TypeText.IsWord, TypeText.typeWords, isMark]
    refine ⟨?_, fun key t _ ht => harms (key, t) (Table.get?_eq_some_iff.mp ht)⟩
    simp [choiceUnion, XdrType.dependencies, IsReferenceName, TypeText.IsWord, TypeText.typeWords,
      isMark]
  have hstruct : (StructDecl.compile ["ScSpecType"] "ScSpecTypeNode" nodeFields).toBool = true := by
    decide +kernel
  have hunion :
      (UnionDecl.compile ["ScSpecType"] "ScSpecTypeNode" choiceUnion .int).toBool = true := by
    decide +kernel
  obtain ⟨s, hs⟩ := exists_eq_ok_of_toBool hstruct
  obtain ⟨u, hu⟩ := exists_eq_ok_of_toBool hunion
  obtain ⟨hmatchStruct, hmatchUnion⟩ := cached_sets_match_text ["ScSpecType"] "ScSpecTypeNode"
  exact ⟨⟨s, hs, hfields, (hmatchStruct _ s hs).1 hfields⟩,
    ⟨u, hu, hdefinition, (hmatchUnion _ _ u hu).1 hdefinition⟩⟩

end XdrCompiler
