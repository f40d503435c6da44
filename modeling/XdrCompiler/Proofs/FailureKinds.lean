/-
# XdrCompiler.Proofs.FailureKinds -- how a well-typed schema can fail

A schema module is well typed if what it registers is made of genuine types
(`XdrType.genuine`) and every union has a definition. A declaration that was
compiled elsewhere is a genuine type, too, but one that cannot be written out in
the place of a name, so there is a stricter sense of the word, without such
declarations inside of anything.

Each function of the compiler that can fail gets one statement here, with both
sides of it: what it gives, and what it fails with (`Ends`). A well-typed schema
fails with schema errors only, or in the wider sense also with the refusal to write
a declaration out. It never runs into a value that has no property to read.
-/
import XdrCompiler.Proofs.Building
import XdrCompiler.Proofs.Compiled
import XdrCompiler.Source.File

namespace XdrCompiler

/-! ## Both sides of an attempt -/

section Ends

variable {ε α β : Type} {P P' : ε → Prop} {Q : α → Prop} {R : β → Prop} {x : Except ε α}

/-- What the attempt gives satisfies `Q`, and what it fails with satisfies `P`. -/
inductive Ends (P : ε → Prop) (Q : α → Prop) : Except ε α → Prop
  | ok {a : α} : Q a → Ends P Q (.ok a)
  | error {e : ε} : P e → Ends P Q (.error e)

theorem Ends.bind {f : α → Except ε β} (hx : Ends P Q x) (hf : ∀ a, Q a → Ends P R (f a)) :
    Ends P R (x.bind f) := by
  cases hx with
  | ok ha => exact hf _ ha
  | error he => exact .error he

theorem Ends.map {f : α → β} (hx : Ends P Q x) (hf : ∀ a, Q a → R (f a)) :
    Ends P R (x.map f) := by
  cases hx with
  | ok ha => exact .ok (hf _ ha)
  | error he => exact .error he

theorem Ends.imp_error (hx : Ends P Q x) (h : ∀ e, P e → P' e) : Ends P' Q x := by
  cases hx with
  | ok ha => exact .ok ha
  | error he => exact .error (h _ he)

theorem Ends.of_error {e : ε} (hx : Ends P Q x) (h : x = .error e) : P e := by
  cases hx with
  | ok ha => cases h
  | error he =>
    cases h
    exact he

end Ends

/-! ## Well-typed registrations -/

/-- Whether a value is a type, at every depth. With `bundles`, a compiled declaration may
stand for its name. -/
def XdrType.genuine (bundles : Bool) : XdrType → Bool
  | .array element _ => element.genuine bundles
  | .varArray element _ => element.genuine bundles
  | .option inner => inner.genuine bundles
  | .enum _ => bundles
  | .struct _ => bundles
  | .union _ => bundles
  | .raw _ => false
  | _ => true

/-- Whether a value may stand under a name: a declaration may always. -/
def XdrType.genuineEntry (bundles : Bool) (t : XdrType) : Bool :=
  t.label != .typeAlias || t.genuine bundles

/-- The payload that an arm selects. -/
def UnionDefinition.selected? (d : UnionDefinition) : Arm → Option XdrType
  | .named key => d.payload? key
  | _ => none

/-- Whether the discriminant and all payloads that are selected are types. -/
def UnionDefinition.genuine (bundles : Bool) (d : UnionDefinition) : Bool :=
  d.switchOn.genuine bundles &&
    d.switches.all fun s => (d.selected? s.2).all (XdrType.genuine bundles)

/-- Whether a registration is well typed. One that fails on its own account is not. -/
def Registration.genuine (bundles : Bool) : Registration → Bool
  | .typeAlias _ type => type.genuineEntry bundles
  | .enum _ _ => true
  | .struct _ fields => fields.all fun field => field.2.genuine bundles
  | .union _ (some d) => d.genuine bundles
  | .union _ none => false
  | .constant _ _ => true
  | .failing _ => false

/-- The failures that the types of a schema can be blamed for. -/
def Failure.OfTypes (bundles : Bool) : Failure → Prop
  | .schema _ => True
  | .internal (.unnamed _ _) => bundles = true
  | _ => False

variable {bundles : Bool}

/-! ## Rust types -/

namespace XdrType

theorem ends_toRust {t : XdrType} (h : t.genuine bundles = true) :
    Ends (Failure.OfTypes bundles) (fun _ => True) t.toRust := by
  induction t with
  -- A wrapper fails as what it wraps does.
  | array element length ih => exact (ih h).map fun _ _ => trivial
  | varArray element bound ih => exact (ih h).map fun _ _ => trivial
  | option inner ih => exact (ih h).map fun _ _ => trivial
  | void => exact .error trivial
  | enum decl => exact .error h
  | struct decl => exact .error h
  | union decl => exact .error h
  | raw value => cases h
  | _ => exact .ok trivial

theorem ends_declaredText {t : XdrType} (h : t.genuine bundles = true) :
    Ends (Failure.OfTypes bundles) (fun _ => True) t.declaredText :=
  (ends_toRust h).map fun _ _ => trivial

theorem ends_toMember {t : XdrType} (h : t.genuine bundles = true) (owner : String) :
    Ends (Failure.OfTypes bundles) (fun _ => True) (t.toMember owner) := by
  unfold toMember
  split
  · exact .ok trivial
  · exact ends_toRust h

/-- What may stand under a name has a kind. -/
theorem exists_kind? {t : XdrType} (h : t.genuineEntry bundles = true) :
    ∃ kind, t.kind? = some kind := by
  cases t with
  | raw value => cases h
  | varArray element bound => cases bound <;> exact ⟨_, rfl⟩
  | varBytes bound => cases bound <;> exact ⟨_, rfl⟩
  | string bound => cases bound <;> exact ⟨_, rfl⟩
  | _ => exact ⟨_, rfl⟩

/-- So it is at least refused by its kind. -/
theorem ends_asDiscriminant {t : XdrType} (h : t.genuineEntry bundles = true) :
    Ends (Failure.OfTypes bundles) (fun _ => True) t.asDiscriminant := by
  obtain ⟨kind, hkind⟩ := exists_kind? h
  unfold asDiscriminant
  split
  case h_7 =>
    rw [hkind]
    exact .error trivial
  all_goals exact .ok trivial

theorem genuineEntry_of_genuine {t : XdrType} (h : t.genuine bundles = true) :
    t.genuineEntry bundles = true := by
  rw [genuineEntry, h, Bool.or_true]

end XdrType

theorem Table.Forall.erase {κ α : Type} [DecidableEq κ] {P : κ → α → Prop} {t : Table κ α}
    (h : t.Forall P) (k : κ) : (t.erase k).Forall P := by
  intro k' v hget
  by_cases hk : k' = k
  · subst hk
    rw [Table.get?_erase_self] at hget
    cases hget
  · rw [Table.get?_erase_of_ne hk] at hget
    exact h k' v hget

theorem ends_resolveThrough {types fresh : Table String XdrType}
    (hfresh : fresh.Forall fun _ t => t.genuineEntry bundles = true) {t : XdrType}
    (ht : t.genuineEntry bundles = true) :
    Ends (Failure.OfTypes bundles) (fun _ => True) (resolveThrough types fresh t) := by
  fun_induction resolveThrough types fresh t with
  | case1 fresh name entry hentry target htarget ih =>
    -- The walk goes on at an entry of the table.
    obtain rfl := XdrType.eq_of_defined?_eq_some htarget
    exact ih (hfresh.erase name) (hfresh name _ hentry)
  | case2 => exact .error trivial
  | case3 => exact .error trivial
  | case4 => exact .error trivial
  | case5 fresh t hreference => exact XdrType.ends_asDiscriminant ht

/-! ## Structs -/

theorem ends_fields {owner : String} {boxed : Bool} {fields : List (String × XdrType)}
    (h : ∀ field ∈ fields, field.2.genuine bundles = true) :
    Ends (Failure.OfTypes bundles) (fun _ => True) (FieldDecl.compileAll owner boxed fields) := by
  induction fields generalizing boxed with
  | nil => exact .ok trivial
  | cons field rest ih =>
    obtain ⟨hfield, hrest⟩ := List.forall_mem_cons.mp h
    have hfirst : Ends (Failure.OfTypes bundles) (fun _ => True)
        (FieldDecl.compile owner boxed field) :=
      (XdrType.ends_toMember hfield owner).map fun _ _ => trivial
    exact hfirst.bind fun _ _ => (ih hrest).bind fun _ _ => .ok trivial

theorem StructDecl.ends_compile {beginnings : List String} {name : String}
    {fields : List (String × XdrType)} (h : ∀ field ∈ fields, field.2.genuine bundles = true) :
    Ends (Failure.OfTypes bundles) (fun _ => True)
      (StructDecl.compile beginnings name fields) :=
  (ends_fields h).bind fun _ _ => .ok trivial

/-! ## Unions -/

theorem Variant.ends_compile {beginnings : List String} {unionName : String}
    {d : UnionDefinition} (value : SwitchValue) {arm : Arm}
    (h : (d.selected? arm).all (XdrType.genuine bundles) = true) :
    Ends (Failure.OfTypes bundles) (fun _ => True)
      (Variant.compile beginnings unionName d value arm) := by
  unfold Variant.compile
  cases arm with
  | empty => exact .ok trivial
  | foreign => exact .error trivial
  | named key =>
    dsimp only
    cases hpayload : d.payload? key with
    | none => exact .error trivial
    | some payload =>
      have hgenuine : payload.genuine bundles = true := by
        simpa [UnionDefinition.selected?, hpayload] using h
      exact (XdrType.ends_toMember hgenuine unionName).map fun _ _ => trivial

theorem Variant.ends_compileAll {beginnings : List String} {unionName : String}
    {d : UnionDefinition} {taken : List String} {switches : List (SwitchValue × Arm)}
    (h : ∀ s ∈ switches, (d.selected? s.2).all (XdrType.genuine bundles) = true) :
    Ends (Failure.OfTypes bundles) (fun _ => True)
      (Variant.compileAll beginnings unionName d taken switches) := by
  induction switches generalizing taken with
  | nil => exact .ok trivial
  | cons s rest ih =>
    obtain ⟨value, arm⟩ := s
    obtain ⟨hfirst, hrest⟩ := List.forall_mem_cons.mp h
    rw [Variant.compileAll]
    split
    · exact .error trivial
    · exact (Variant.ends_compile value hfirst).bind fun _ _ =>
        (ih hrest).bind fun _ _ => .ok trivial

theorem UnionDecl.ends_compile {beginnings : List String} {name : String} {d : UnionDefinition}
    (h : d.genuine bundles = true) (resolved : XdrType) :
    Ends (Failure.OfTypes bundles) (fun _ => True)
      (UnionDecl.compile beginnings name d resolved) := by
  obtain ⟨hdiscriminant, hpayloads⟩ := Bool.and_eq_true_iff.mp h
  rw [UnionDecl.compile_eq]
  refine (XdrType.ends_toRust hdiscriminant).bind fun discriminant _ => ?_
  split
  · exact .error trivial
  · refine (Variant.ends_compileAll (List.all_eq_true.mp hpayloads)).bind fun compiled _ => ?_
    split
    · exact .error trivial
    · exact .ok trivial

/-! ## Building -/

/-- What was registered with the builder is well typed. -/
structure Builder.Genuine (bundles : Bool) (b : Builder) : Prop where
  types : b.types.Forall fun _ t => t.genuineEntry bundles = true
  pending : ∀ q ∈ b.pending, ∃ d, q.2 = some d ∧ d.genuine bundles = true

/-- All entries of the schema may stand under a name. -/
def Schema.Genuine (bundles : Bool) (schema : Schema) : Prop :=
  schema.types.Forall fun _ t => t.genuineEntry bundles = true

namespace Builder

theorem ends_compileUnion (beginnings : List String) {types : Table String XdrType}
    (htypes : types.Forall fun _ t => t.genuineEntry bundles = true) (name : String)
    {d : UnionDefinition} (hd : d.genuine bundles = true) :
    Ends (Failure.OfTypes bundles) (fun _ => True)
      (compileUnion beginnings types name (some d)) := by
  obtain ⟨hdiscriminant, -⟩ := Bool.and_eq_true_iff.mp hd
  refine (ends_resolveThrough htypes (XdrType.genuineEntry_of_genuine hdiscriminant)).bind ?_
  exact fun resolved _ => UnionDecl.ends_compile hd resolved

/-- A step adds a union to the table, so what the next one meets is well typed again. -/
theorem genuine_compilePending (beginnings : List String) {types : Table String XdrType}
    {pending : List (String × Option UnionDefinition)}
    (htypes : types.Forall fun _ t => t.genuineEntry bundles = true)
    (hpending : ∀ q ∈ pending, ∃ d, q.2 = some d ∧ d.genuine bundles = true) :
    ((compilePending beginnings types pending).1.Forall
        fun _ t => t.genuineEntry bundles = true) ∧
      ∀ failure, (compilePending beginnings types pending).2 = some failure →
        failure.OfTypes bundles := by
  induction pending generalizing types with
  | nil => exact ⟨htypes, fun _ h => nomatch h⟩
  | cons q rest ih =>
    obtain ⟨⟨d, hdefinition, hd⟩, hrest⟩ := List.forall_mem_cons.mp hpending
    have hends := ends_compileUnion beginnings htypes q.1 hd
    rw [← hdefinition] at hends
    cases hu : compileUnion beginnings types q.1 q.2 with
    | error failure =>
      rw [compilePending_cons_error hu]
      refine ⟨htypes, fun failure' h => ?_⟩
      cases h
      exact hends.of_error hu
    | ok u =>
      rw [compilePending_cons_ok hu]
      -- A union may stand under a name, whatever was there before.
      exact ih (htypes.insert rfl) hrest

namespace Genuine

theorem register {b : Builder} (h : b.Genuine bundles) {r : Registration}
    (hr : r.genuine bundles = true) :
    Ends (Failure.OfTypes bundles) (Builder.Genuine bundles) (b.register r) := by
  cases r with
  | typeAlias name type => exact .ok { h with types := h.types.insert hr }
  | enum name cases => exact .ok { h with types := h.types.insert rfl }
  | struct name fields =>
    refine (StructDecl.ends_compile (List.all_eq_true.mp hr)).map fun decl _ => ?_
    exact { h with types := h.types.insert rfl }
  | union name definition =>
    cases definition with
    | none => cases hr
    | some d =>
      refine .ok { h with pending := ?_ }
      intro q hq
      rcases List.mem_append.mp hq with hq | hq
      · exact h.pending q hq
      · rw [List.mem_singleton.mp hq]
        exact ⟨d, rfl, hr⟩
  | constant name value => exact .ok ⟨h.types, h.pending⟩
  | failing failure => cases hr

theorem registerAll {b : Builder} (h : b.Genuine bundles) {registrations : List Registration}
    (hall : ∀ r ∈ registrations, r.genuine bundles = true) :
    Ends (Failure.OfTypes bundles) (Builder.Genuine bundles) (b.registerAll registrations) := by
  induction registrations generalizing b with
  | nil => exact .ok h
  | cons r rest ih =>
    obtain ⟨hr, hrest⟩ := List.forall_mem_cons.mp hall
    exact (h.register hr).bind fun _ hnext => ih hnext hrest

theorem build {b : Builder} (h : b.Genuine bundles) :
    Ends (Failure.OfTypes bundles) (Schema.Genuine bundles) b.build.2 := by
  obtain ⟨htypes, hfailure⟩ :=
    genuine_compilePending b.boxedBeginnings h.types h.pending
  cases hdone : (compilePending b.boxedBeginnings b.types b.pending).2 with
  | none =>
    rw [build_of_eq_none hdone]
    exact .ok htypes
  | some failure =>
    rw [build_of_eq_some hdone]
    exact .error (hfailure failure hdone)

end Genuine

theorem genuine_new (beginnings : List String) : (new beginnings).Genuine bundles :=
  ⟨fun _ _ h => (by cases h), fun _ hq => absurd hq List.not_mem_nil⟩

end Builder

/-- A well-typed schema is built, or its types are to blame. -/
theorem ends_ofRegistrations (beginnings : List String) {registrations : List Registration}
    (h : ∀ r ∈ registrations, r.genuine bundles = true) :
    Ends (Failure.OfTypes bundles) (Schema.Genuine bundles)
      (Schema.ofRegistrations beginnings registrations) :=
  ((Builder.genuine_new beginnings).registerAll h).bind fun _ hb => hb.build

/-! ## The source text -/

/-- Declarations have a text of their own; everything else is written as a type. -/
theorem XdrType.ends_itemText {t : XdrType} (h : t.genuineEntry bundles = true) :
    Ends (Failure.OfTypes bundles) (fun _ => True) t.itemText := by
  cases t with
  | enum decl => exact .ok trivial
  | struct decl => exact .ok trivial
  | union decl => exact .ok trivial
  | void => exact .error trivial
  | raw value => cases h
  | _ => exact (ends_declaredText h).map fun _ _ => trivial

theorem ends_typeBlocks {main : NameSet} {feature : String} {entries : List (String × XdrType)}
    (h : ∀ e ∈ entries, e.2.genuineEntry bundles = true) :
    Ends (Failure.OfTypes bundles) (fun _ => True) (typeBlocks main feature entries) := by
  induction entries with
  | nil => exact .ok trivial
  | cons e rest ih =>
    obtain ⟨he, hrest⟩ := List.forall_mem_cons.mp h
    have hfirst : Ends (Failure.OfTypes bundles) (fun _ => True)
        (typeLines e.1 e.2 (decide (e.1 ∉ main)) feature) :=
      (XdrType.ends_itemText he).map fun _ _ => trivial
    exact hfirst.bind fun _ _ => (ih hrest).bind fun _ _ => .ok trivial

/-- With a date, the source text is complete, or the types are to blame. -/
theorem ends_assemble {p : Provenance} (hdate : p.generatedOn ≠ "") {schema : Schema}
    (h : schema.Genuine bundles) (main : NameSet) :
    Ends (Failure.OfTypes bundles) (fun _ => True) (assemble p schema main) := by
  have hheader : Ends (Failure.OfTypes bundles) (fun _ => True) (headerLines p) := by
    rw [headerLines, if_neg hdate]
    exact .ok trivial
  have himports : Ends (Failure.OfTypes bundles) (fun _ => True) (importLines defaultImports) :=
    .ok trivial
  have hblocks : Ends (Failure.OfTypes bundles) (fun _ => True)
      (typeBlocks main p.feature schema.types.entries) := by
    refine ends_typeBlocks fun e he => ?_
    exact h e.1 e.2 (Table.get?_eq_some_iff.mpr he)
  exact hheader.bind fun _ _ => himports.bind fun _ _ => hblocks.bind fun _ _ => .ok trivial

end XdrCompiler
