/-
# XdrCompiler.Proofs.Compiled -- what a compiled declaration consists of

For each compiling function, one statement of everything that its success says:
which checks were passed and what the declaration is made of. What holds of the
table of a finished schema is derived from these by one induction over the
registrations and the waiting unions (`forall_types_ofRegistrations`).
-/
import XdrCompiler.Proofs.Results
import XdrCompiler.Schema.Builder

namespace XdrCompiler

/-! ## Rust types -/

namespace XdrType

/-- The Rust type of a descriptor names exactly the dependencies of the descriptor. -/
theorem mem_names_toRust {t : XdrType} {type : RustType} (h : t.toRust = .ok type) (n : String) :
    n ∈ type.names ↔ n ∈ t.dependencies := by
  induction t generalizing type with
  | reference name =>
    cases h
    simp [RustType.names, dependencies]
  | array element length ih =>
    obtain ⟨inner, hinner, rfl⟩ := map_eq_ok_iff.mp h
    show n ∈ inner.names ↔ n ∈ element.dependencies
    exact ih hinner
  | varArray element bound ih =>
    obtain ⟨inner, hinner, rfl⟩ := map_eq_ok_iff.mp h
    show n ∈ inner.names ↔ n ∈ element.dependencies
    exact ih hinner
  | option element ih =>
    obtain ⟨inner, hinner, rfl⟩ := map_eq_ok_iff.mp h
    show n ∈ inner.names ↔ n ∈ element.dependencies
    exact ih hinner
  | void => cases h
  | enum decl => cases h
  | struct decl => cases h
  | union decl => cases h
  | raw value => cases h
  | _ =>
    cases h
    simp [RustType.names, dependencies]

/-- The same for a member; the pointer back to its owner names the owner. -/
theorem mem_names_toMember {t : XdrType} {owner : String} {type : RustType}
    (h : t.toMember owner = .ok type) (n : String) : n ∈ type.names ↔ n ∈ t.dependencies := by
  unfold toMember at h
  by_cases hcycle : t.isOptionalCycle owner = true
  · rw [if_pos hcycle] at h
    cases h
    rw [isOptionalCycle_iff.mp hcycle]
    simp [RustType.names, dependencies]
  · rw [if_neg hcycle] at h
    exact mem_names_toRust h n

/-- The descriptor has a Rust type. -/
def Renders (t : XdrType) : Prop := ∃ type, t.toRust = .ok type

/-- An optional reference has a Rust type, so that a member fails only where its type does. -/
theorem toMember_eq_error_iff {t : XdrType} {owner : String} {failure : Failure} :
    t.toMember owner = .error failure ↔ t.toRust = .error failure := by
  unfold toMember
  split
  · next hcycle =>
    rw [isOptionalCycle_iff.mp hcycle]
    constructor
    · intro h
      cases h
    · intro h
      cases h
  · rfl

theorem exists_toMember_iff (t : XdrType) (owner : String) :
    (∃ type, t.toMember owner = .ok type) ↔ t.Renders := by
  unfold Renders toMember
  split
  · next hcycle =>
    rw [isOptionalCycle_iff.mp hcycle]
    exact ⟨fun _ => ⟨_, rfl⟩, fun _ => ⟨_, rfl⟩⟩
  · rfl

end XdrType

/-! ## Structs -/

theorem FieldDecl.forall₂_of_compileAll {owner : String} {boxed : Bool}
    {fields : List (String × XdrType)} {decls : List FieldDecl}
    (h : FieldDecl.compileAll owner boxed fields = .ok decls) :
    List.Forall₂ (fun field decl => decl.ident = Naming.fieldIdentifier field.1 ∧
      field.2.toMember owner = .ok decl.type) fields decls := by
  induction fields generalizing boxed decls with
  | nil =>
    cases h
    exact .nil
  | cons field rest ih =>
    obtain ⟨first, hfirst, h⟩ := bind_eq_ok_iff.mp h
    obtain ⟨others, hothers, h⟩ := bind_eq_ok_iff.mp h
    cases h
    obtain ⟨type, htype, rfl⟩ := map_eq_ok_iff.mp hfirst
    exact .cons ⟨rfl, htype⟩ (ih hothers)

theorem StructDecl.compile_eq_ok_iff {beginnings : List String} {name : String}
    {fields : List (String × XdrType)} {s : StructDecl} :
    StructDecl.compile beginnings name fields = .ok s ↔
      ∃ decls, FieldDecl.compileAll name (startsWithAny beginnings name) fields = .ok decls ∧
        s = { name := name
              fields := decls
              referred := NameSet.unionAll (fields.map fun field => field.2.dependencies)
              held := NameSet.unionAll
                (heldByFields name (startsWithAny beginnings name) fields) } := by
  constructor
  · intro h
    obtain ⟨decls, hdecls, h⟩ := bind_eq_ok_iff.mp h
    exact ⟨decls, hdecls, (Except.ok.inj h).symm⟩
  · rintro ⟨decls, hdecls, rfl⟩
    exact bind_eq_ok_iff.mpr ⟨decls, hdecls, rfl⟩

/-- What the fields of a compiled struct name is among what the struct needs. -/
theorem StructDecl.names_subset_referred {beginnings : List String} {name : String}
    {fields : List (String × XdrType)} {s : StructDecl}
    (h : StructDecl.compile beginnings name fields = .ok s) {f : FieldDecl} (hf : f ∈ s.fields)
    {n : String} (hn : n ∈ f.type.names) : n ∈ s.referred := by
  obtain ⟨decls, hdecls, rfl⟩ := StructDecl.compile_eq_ok_iff.mp h
  obtain ⟨field, hfield, -, htype⟩ :=
    exists_source_of_mem (FieldDecl.forall₂_of_compileAll hdecls) hf
  rw [NameSet.mem_unionAll]
  exact ⟨_, List.mem_map_of_mem hfield, (XdrType.mem_names_toMember htype n).mp hn⟩

/-! ## Unions -/

/-- Some switch selects the arm with the given key. -/
def UnionDefinition.Selects (d : UnionDefinition) (key : String) : Prop :=
  ∃ value, (value, Arm.named key) ∈ d.switches

/-- The arm of a switch fits the payload of its variant: both are absent, or the arm names
a payload that has a Rust type, and the variant boxes it by the rule of beginnings. -/
def ArmFits (beginnings : List String) (unionName : String) (d : UnionDefinition) :
    Arm → Option Payload → Prop
  | .empty, none => True
  | .named key, some p =>
    ∃ payload, d.payload? key = some payload ∧ payload.toMember unionName = .ok p.type ∧
      p.boxed = startsWithAny beginnings p.type.callable
  | _, _ => False

theorem Variant.of_compile {beginnings : List String} {unionName : String} {d : UnionDefinition}
    {value : SwitchValue} {arm : Arm} {c : Variant × NameSet}
    (h : Variant.compile beginnings unionName d value arm = .ok c) :
    c.1.ident = value.ident ∧ c.1.value = value ∧
      ArmFits beginnings unionName d arm c.1.payload := by
  unfold Variant.compile at h
  cases arm with
  | empty =>
    cases h
    exact ⟨rfl, rfl, trivial⟩
  | foreign => cases h
  | named key =>
    cases hpayload : d.payload? key with
    | none =>
      simp only [hpayload] at h
      cases h
    | some payload =>
      simp only [hpayload] at h
      obtain ⟨type, htype, rfl⟩ := map_eq_ok_iff.mp h
      exact ⟨rfl, rfl, payload, hpayload, htype, rfl⟩

/-- Compiling the switches succeeds when each does and no variant name comes twice. -/
theorem Variant.compileAll_eq_ok_iff {beginnings : List String} {unionName : String}
    {d : UnionDefinition} {taken : List String} {switches : List (SwitchValue × Arm)}
    {compiled : List (Variant × NameSet)} :
    Variant.compileAll beginnings unionName d taken switches = .ok compiled ↔
      List.Forall₂ (fun s c => Variant.compile beginnings unionName d s.1 s.2 = .ok c)
        switches compiled ∧
      (switches.map fun s => s.1.ident).Nodup ∧ ∀ s ∈ switches, s.1.ident ∉ taken := by
  -- The names of the switches before are taken, so `taken` grows along the list.
  induction switches generalizing taken compiled with
  | nil =>
    simp only [Variant.compileAll, List.forall₂_nil_left_iff]
    constructor
    · intro h
      exact ⟨(Except.ok.inj h).symm, List.nodup_nil, fun s hs => absurd hs List.not_mem_nil⟩
    · rintro ⟨rfl, -, -⟩
      rfl
  | cons s rest ih =>
    obtain ⟨value, arm⟩ := s
    rw [Variant.compileAll]
    by_cases htaken : value.ident ∈ taken
    · rw [if_pos htaken]
      constructor
      · intro h
        cases h
      · rintro ⟨-, -, hfree⟩
        exact absurd htaken (hfree _ List.mem_cons_self)
    · rw [if_neg htaken]
      constructor
      · intro h
        obtain ⟨first, hfirst, h⟩ := bind_eq_ok_iff.mp h
        obtain ⟨others, hothers, h⟩ := bind_eq_ok_iff.mp h
        cases h
        obtain ⟨hall, hnodup, hfree⟩ := ih.mp hothers
        refine ⟨.cons hfirst hall, ?_, ?_⟩
        · rw [List.map_cons, List.nodup_cons]
          refine ⟨?_, hnodup⟩
          intro hmem
          obtain ⟨s, hs, hident⟩ := List.mem_map.mp hmem
          exact hfree s hs (hident ▸ List.mem_cons_self)
        · intro s hs
          rcases List.mem_cons.mp hs with rfl | hs
          · exact htaken
          · exact fun hmem => hfree s hs (List.mem_cons_of_mem _ hmem)
      · rintro ⟨hall, hnodup, hfree⟩
        cases hall with
        | cons hfirst hall =>
          rw [List.map_cons, List.nodup_cons] at hnodup
          refine bind_eq_ok_iff.mpr ⟨_, hfirst, bind_eq_ok_iff.mpr ⟨_, ih.mpr ⟨hall, hnodup.2, ?_⟩,
            rfl⟩⟩
          intro s hs hmem
          rcases List.mem_cons.mp hmem with hident | hmem
          · exact hnodup.1 (hident ▸ List.mem_map_of_mem (f := fun s => s.1.ident) hs)
          · exact hfree s (List.mem_cons_of_mem _ hs) hmem

/-- The checks of a union in their order, one inside the other. -/
theorem UnionDecl.compile_eq (beginnings : List String) (name : String) (d : UnionDefinition)
    (resolved : XdrType) :
    UnionDecl.compile beginnings name d resolved =
      d.switchOn.toRust.bind fun discriminant =>
        if d.defaultHasPayload then .error (.schema (.defaultWithPayload name))
        else (Variant.compileAll beginnings name d [] d.switches).bind fun compiled =>
          if d.needsDefault resolved && (compiled.map Prod.fst).any (·.ident == "Default") then
            .error (.schema (.defaultTaken name))
          else .ok {
            name := name
            discriminant := discriminant
            variants := compiled.map Prod.fst
            hasDefault := d.needsDefault resolved
            referred := (NameSet.unionAll (d.arms.values.map XdrType.dependencies)).union
              d.switchOn.dependencies
            held := d.switchOn.heldDependencies.union
              (NameSet.unionAll (compiled.map Prod.snd)) } := by
  unfold UnionDecl.compile
  cases d.switchOn.toRust with
  | error failure => rfl
  | ok discriminant =>
    cases d.defaultHasPayload with
    | true => rfl
    | false =>
      cases Variant.compileAll beginnings name d [] d.switches with
      | error failure => rfl
      | ok compiled =>
        show ite _ _ _ = ite _ _ _
        split <;> rfl

theorem UnionDecl.compile_eq_ok_iff {beginnings : List String} {name : String}
    {d : UnionDefinition} {resolved : XdrType} {u : UnionDecl} :
    UnionDecl.compile beginnings name d resolved = .ok u ↔
      ∃ discriminant compiled, d.switchOn.toRust = .ok discriminant ∧
        d.defaultHasPayload = false ∧
        Variant.compileAll beginnings name d [] d.switches = .ok compiled ∧
        (d.needsDefault resolved = true →
          ∀ v ∈ compiled.map Prod.fst, v.ident ≠ "Default") ∧
        u = { name := name
              discriminant := discriminant
              variants := compiled.map Prod.fst
              hasDefault := d.needsDefault resolved
              referred := (NameSet.unionAll (d.arms.values.map XdrType.dependencies)).union
                d.switchOn.dependencies
              held := d.switchOn.heldDependencies.union
                (NameSet.unionAll (compiled.map Prod.snd)) } := by
  have htaken : ∀ variants : List Variant,
      (d.needsDefault resolved && variants.any (·.ident == "Default")) = true ↔
        ¬(d.needsDefault resolved = true → ∀ v ∈ variants, v.ident ≠ "Default") := by
    intro variants
    simp
  constructor
  · intro h
    obtain ⟨discriminant, hdiscriminant, h⟩ := bind_eq_ok_iff.mp h
    by_cases hpayload : d.defaultHasPayload = true
    · rw [if_pos hpayload] at h
      cases h
    · rw [if_neg hpayload] at h
      obtain ⟨compiled, hcompiled, h⟩ := bind_eq_ok_iff.mp h
      dsimp only at h
      by_cases hdefault :
          (d.needsDefault resolved && (compiled.map Prod.fst).any (·.ident == "Default")) = true
      · rw [if_pos hdefault] at h
        cases h
      · rw [if_neg hdefault] at h
        refine ⟨discriminant, compiled, hdiscriminant, by simpa using hpayload, hcompiled, ?_,
          (Except.ok.inj h).symm⟩
        exact not_not.mp ((htaken _).not.mp hdefault)
  · rintro ⟨discriminant, compiled, hdiscriminant, hpayload, hcompiled, hdefault, rfl⟩
    refine bind_eq_ok_iff.mpr ⟨discriminant, hdiscriminant, ?_⟩
    rw [if_neg (by simp [hpayload])]
    refine bind_eq_ok_iff.mpr ⟨compiled, hcompiled, ?_⟩
    dsimp only
    rw [if_neg ((htaken _).not.mpr (not_not.mpr hdefault))]
    rfl

/-- The variants of a compiled union are those of its switches, in order. -/
theorem UnionDecl.forall₂_variants {beginnings : List String} {name : String}
    {d : UnionDefinition} {resolved : XdrType} {u : UnionDecl}
    (h : UnionDecl.compile beginnings name d resolved = .ok u) :
    List.Forall₂ (fun s v => v.ident = s.1.ident ∧ v.value = s.1 ∧
      ArmFits beginnings name d s.2 v.payload) d.switches u.variants := by
  obtain ⟨discriminant, compiled, -, -, hcompiled, -, rfl⟩ := UnionDecl.compile_eq_ok_iff.mp h
  obtain ⟨hall, -, -⟩ := Variant.compileAll_eq_ok_iff.mp hcompiled
  rw [List.forall₂_map_right_iff]
  exact hall.imp fun s c hc => Variant.of_compile hc

theorem UnionDecl.ident_of_mem_variants {beginnings : List String} {name : String}
    {d : UnionDefinition} {resolved : XdrType} {u : UnionDecl}
    (h : UnionDecl.compile beginnings name d resolved = .ok u) {v : Variant}
    (hv : v ∈ u.variants) : v.ident = v.value.ident := by
  obtain ⟨s, -, hident, hvalue, -⟩ := exists_source_of_mem (UnionDecl.forall₂_variants h) hv
  rw [hident, hvalue]

/-- The variants of a compiled union have names of their own, `Default` included where there
is a default variant. -/
theorem UnionDecl.nodup_idents {beginnings : List String} {name : String}
    {d : UnionDefinition} {resolved : XdrType} {u : UnionDecl}
    (h : UnionDecl.compile beginnings name d resolved = .ok u) :
    (u.variants.map Variant.ident).Nodup ∧
      (u.hasDefault = true → ∀ v ∈ u.variants, v.ident ≠ "Default") := by
  have hidents := map_eq_map_of_forall₂ (UnionDecl.forall₂_variants h) fun s v hv => hv.1
  obtain ⟨discriminant, compiled, -, -, hcompiled, hdefault, rfl⟩ :=
    UnionDecl.compile_eq_ok_iff.mp h
  obtain ⟨-, hnodup, -⟩ := Variant.compileAll_eq_ok_iff.mp hcompiled
  refine ⟨?_, hdefault⟩
  rw [hidents]
  exact hnodup

theorem UnionDefinition.dependencies_of_payload? {d : UnionDefinition} {key : String}
    {payload : XdrType} (h : d.payload? key = some payload) {n : String}
    (hn : n ∈ payload.dependencies) :
    n ∈ NameSet.unionAll (d.arms.values.map XdrType.dependencies) := by
  obtain ⟨entry, hentry, hdefined⟩ := Option.bind_eq_some_iff.mp h
  rw [XdrType.eq_of_defined?_eq_some hdefined] at hn
  rw [NameSet.mem_unionAll]
  exact ⟨_, List.mem_map_of_mem (Table.mem_values_of_get? hentry), hn⟩

/-- What the discriminant of a compiled union names is among what the union needs. -/
theorem UnionDecl.discriminant_names_subset_referred {beginnings : List String} {name : String}
    {d : UnionDefinition} {resolved : XdrType} {u : UnionDecl}
    (h : UnionDecl.compile beginnings name d resolved = .ok u) {n : String}
    (hn : n ∈ u.discriminant.names) : n ∈ u.referred := by
  obtain ⟨discriminant, compiled, hdiscriminant, -, -, -, rfl⟩ := UnionDecl.compile_eq_ok_iff.mp h
  rw [NameSet.mem_union]
  exact Or.inr ((XdrType.mem_names_toRust hdiscriminant n).mp hn)

/-- And so is what a payload of it names. -/
theorem UnionDecl.payload_names_subset_referred {beginnings : List String} {name : String}
    {d : UnionDefinition} {resolved : XdrType} {u : UnionDecl}
    (h : UnionDecl.compile beginnings name d resolved = .ok u) {v : Variant} (hv : v ∈ u.variants)
    {p : Payload} (hp : v.payload = some p) {n : String} (hn : n ∈ p.type.names) :
    n ∈ u.referred := by
  obtain ⟨⟨value, arm⟩, -, -, -, hfits⟩ := exists_source_of_mem (UnionDecl.forall₂_variants h) hv
  rw [hp] at hfits
  cases arm with
  | empty => exact hfits.elim
  | foreign => exact hfits.elim
  | named key =>
    obtain ⟨payload, hpayload, htype, -⟩ := hfits
    have hdep : n ∈ payload.dependencies := (XdrType.mem_names_toMember htype n).mp hn
    obtain ⟨discriminant, compiled, -, -, -, -, rfl⟩ := UnionDecl.compile_eq_ok_iff.mp h
    rw [NameSet.mem_union]
    exact Or.inl (UnionDefinition.dependencies_of_payload? hpayload hdep)

/-! ## Finished schemas -/

/-- Every entry of a table has a property. -/
def Table.Forall {κ α : Type} [DecidableEq κ] (P : κ → α → Prop) (t : Table κ α) : Prop :=
  ∀ k v, t.get? k = some v → P k v

theorem Table.Forall.insert {κ α : Type} [DecidableEq κ] {P : κ → α → Prop} {t : Table κ α}
    (h : t.Forall P) {k : κ} {v : α} (hv : P k v) : (t.insert k v).Forall P := by
  intro k' v' hget
  by_cases hk : k' = k
  · subst hk
    rw [Table.get?_insert_self] at hget
    exact Option.some_inj.mp hget ▸ hv
  · rw [Table.get?_insert_of_ne hk] at hget
    exact h k' v' hget

section Schema

variable {beginnings : List String} {P : String → XdrType → Prop}

/-- A property of entries that everything which is registered brings with it. -/
structure Registers (beginnings : List String) (P : String → XdrType → Prop) : Prop where
  enum : ∀ name cases, P name (.enum (EnumDecl.compile name cases))
  struct : ∀ name fields decl, StructDecl.compile beginnings name fields = .ok decl →
    P name (.struct decl)
  union : ∀ name d resolved decl, UnionDecl.compile beginnings name d resolved = .ok decl →
    P name (.union decl)

theorem Registers.register (hP : Registers beginnings P) {b b' : Builder} {r : Registration}
    (halias : ∀ name t, r = .typeAlias name t → P name t) (h : b.register r = .ok b')
    (hb : b.boxedBeginnings = beginnings) (hall : b.types.Forall P) :
    b'.boxedBeginnings = beginnings ∧ b'.types.Forall P := by
  cases r with
  | typeAlias name t =>
    cases h
    exact ⟨hb, hall.insert (halias name t rfl)⟩
  | enum name cases =>
    cases h
    exact ⟨hb, hall.insert (hP.enum name cases)⟩
  | struct name fields =>
    obtain ⟨decl, hdecl, rfl⟩ := map_eq_ok_iff.mp h
    exact ⟨hb, hall.insert (hP.struct name fields decl (hb ▸ hdecl))⟩
  | union name definition =>
    cases h
    exact ⟨hb, hall⟩
  | constant name value =>
    cases h
    exact ⟨hb, hall⟩
  | failing failure => cases h

theorem Registers.registerAll (hP : Registers beginnings P) {b b' : Builder}
    {registrations : List Registration}
    (halias : ∀ name t, .typeAlias name t ∈ registrations → P name t)
    (h : b.registerAll registrations = .ok b') (hb : b.boxedBeginnings = beginnings)
    (hall : b.types.Forall P) : b'.boxedBeginnings = beginnings ∧ b'.types.Forall P := by
  induction registrations generalizing b with
  | nil =>
    cases h
    exact ⟨hb, hall⟩
  | cons r rest ih =>
    obtain ⟨next, hnext, h⟩ := bind_eq_ok_iff.mp h
    obtain ⟨hb', hall'⟩ := hP.register
      (fun name t hr => halias name t (hr ▸ List.mem_cons_self)) hnext hb hall
    exact ih (fun name t hmem => halias name t (List.mem_cons_of_mem r hmem)) h hb' hall'

theorem Registers.compilePending (hP : Registers beginnings P) {types : Table String XdrType}
    (pending : List (String × Option UnionDefinition)) (hall : types.Forall P) :
    (Builder.compilePending beginnings types pending).1.Forall P := by
  induction pending generalizing types with
  | nil => exact hall
  | cons entry rest ih =>
    obtain ⟨name, definition⟩ := entry
    rw [Builder.compilePending]
    cases hdecl : Builder.compileUnion beginnings types name definition with
    | error failure => exact hall
    | ok decl =>
      refine ih (hall.insert ?_)
      cases definition with
      | none => cases hdecl
      | some d =>
        obtain ⟨resolved, -, hdecl⟩ := bind_eq_ok_iff.mp hdecl
        exact hP.union name d resolved decl hdecl

/-- A property that every registration brings with it holds of all entries of a finished
schema. -/
theorem forall_types_ofRegistrations (hP : Registers beginnings P)
    {registrations : List Registration} {schema : Schema}
    (halias : ∀ name t, .typeAlias name t ∈ registrations → P name t)
    (h : Schema.ofRegistrations beginnings registrations = .ok schema) :
    schema.types.Forall P := by
  obtain ⟨b, hb, h⟩ := bind_eq_ok_iff.mp h
  obtain ⟨hbeginnings, hall⟩ := hP.registerAll halias hb rfl
    (fun name t hget => absurd hget (by simp [Builder.new]))
  have hpending := hP.compilePending b.pending hall
  unfold Builder.build at h
  rw [hbeginnings] at h
  split at h
  · next types hcompiled =>
    cases h
    rwa [hcompiled] at hpending
  · cases h

end Schema

end XdrCompiler
