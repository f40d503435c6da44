/-
# XdrCompiler.Proofs.Building -- what registrations and builds leave behind

A registration does one of three things, whatever the builder holds by then: it
stores a type, it lets a union wait, or it stores a constant (`Effect`).

A build compiles the waiting unions one after the other, and each of them stands
in the table that the next is compiled against. That makes no difference: a
union depends on the entries of the table that are no unions only, and a build
adds unions only. So there is one way in which a waiting union can compile, and
`Ahead` says that a builder which went through builds has compiled some of its
unions in this way already. A further build keeps this up, and at the end such a
builder and one which was never built before come to the same schema
(`Ahead.sameOutcome`).
-/
import Mathlib.Data.List.Nodup
import XdrCompiler.Proofs.Resolution
import XdrCompiler.Schema.Builder

namespace XdrCompiler

/-! ## Lists in which no name comes twice -/

theorem nodup_filterMap_cons_iff {α κ : Type} {name? : α → Option κ} {a : α} {l : List α} :
    ((a :: l).filterMap name?).Nodup ↔
      (∀ b ∈ l, ∀ name, name? b = some name → name? a ≠ some name) ∧
        (l.filterMap name?).Nodup := by
  cases ha : name? a with
  | none => simp [ha]
  | some n =>
    rw [List.filterMap_cons, ha, List.nodup_cons]
    refine and_congr_left fun _ => ?_
    constructor
    · rintro hn b hb name hname h
      obtain rfl := Option.some_inj.mp h
      exact hn (List.mem_filterMap.mpr ⟨b, hb, hname⟩)
    · intro hne hn
      obtain ⟨b, hb, hname⟩ := List.mem_filterMap.mp hn
      exact hne b hb n hname rfl

/-- What elements of a list show has distinct names if the elements have. -/
theorem nodup_map_filterMap {α β κ : Type} {name? : α → Option κ} {l : List α}
    (h : (l.filterMap name?).Nodup) {f : α → Option β} {key : β → κ}
    (hf : ∀ a b, f a = some b → name? a = some (key b)) : ((l.filterMap f).map key).Nodup := by
  refine List.pairwise_map.mpr (List.pairwise_filterMap.mpr ?_)
  refine (List.pairwise_filterMap.mp h).imp ?_
  intro a a' hne b hb b' hb'
  exact hne (key b) (hf a b hb) (key b') (hf a' b' hb')

/-! ## Effects of registrations -/

/-- The type name that a registration defines. -/
def Registration.typeName? : Registration → Option String
  | .typeAlias name _ => some name
  | .enum name _ => some name
  | .struct name _ => some name
  | .union name _ => some name
  | .constant _ _ => none
  | .failing _ => none

/-- The constant name that a registration defines. -/
def Registration.constantName? : Registration → Option String
  | .constant name _ => some name
  | _ => none

/-- What a registration does to a builder. -/
inductive Effect
  | store (name : String) (type : XdrType)
  | await (name : String) (definition : Option UnionDefinition)
  | constant (name : String) (value : ConstantValue)

/-- The effect of a registration, unless it fails. -/
def Registration.effect (beginnings : List String) : Registration → Except Failure Effect
  | .typeAlias name type => .ok (.store name type)
  | .enum name cases => .ok (.store name (.enum (EnumDecl.compile name cases)))
  | .struct name fields =>
    (StructDecl.compile beginnings name fields).map fun decl => .store name (.struct decl)
  | .union name definition => .ok (.await name definition)
  | .constant name value => .ok (.constant name value)
  | .failing failure => .error failure

namespace Effect

def typeName? : Effect → Option String
  | store name _ => some name
  | await name _ => some name
  | constant _ _ => none

def constantName? : Effect → Option String
  | constant name _ => some name
  | _ => none

theorem names_eq {beginnings : List String} {r : Registration} {e : Effect}
    (h : r.effect beginnings = .ok e) :
    e.typeName? = r.typeName? ∧ e.constantName? = r.constantName? := by
  cases r with
  | struct name fields =>
    obtain ⟨decl, -, rfl⟩ := map_eq_ok_iff.mp h
    exact ⟨rfl, rfl⟩
  | failing failure => cases h
  | _ =>
    cases h
    exact ⟨rfl, rfl⟩

end Effect

namespace Builder

/-- The builder after an effect. -/
def apply (b : Builder) : Effect → Builder
  | .store name type => { b with types := b.types.insert name type }
  | .await name definition => { b with pending := b.pending ++ [(name, definition)] }
  | .constant name value => { b with constants := b.constants.insert name value }

@[simp] theorem boxedBeginnings_apply (b : Builder) (e : Effect) :
    (b.apply e).boxedBeginnings = b.boxedBeginnings := by
  cases e <;> rfl

/-- What a registration does depends on the boxed beginnings only. -/
theorem register_eq (b : Builder) (r : Registration) :
    b.register r = (r.effect b.boxedBeginnings).map b.apply := by
  cases r with
  | struct name fields =>
    rw [register, Registration.effect]
    cases StructDecl.compile b.boxedBeginnings name fields <;> rfl
  | _ => rfl

/-- Nothing is registered under the type name yet. -/
structure Free (b : Builder) (name : String) : Prop where
  types : b.types.get? name = none
  pending : name ∉ b.pending.map Prod.fst

theorem Free.apply {b : Builder} {name : String} (h : b.Free name) {e : Effect}
    (hname : e.typeName? ≠ some name) : (b.apply e).Free name := by
  cases e with
  | store name' type =>
    have hne : name ≠ name' := fun hname' => hname (congrArg some hname'.symm)
    exact ⟨(Table.get?_insert_of_ne hne b.types type).trans h.types, h.pending⟩
  | await name' definition =>
    have hne : name ≠ name' := fun hname' => hname (congrArg some hname'.symm)
    refine ⟨h.types, ?_⟩
    simpa [Builder.apply, hne] using h.pending
  | constant name' value => exact ⟨h.types, h.pending⟩

end Builder

/-! ## Tables that differ in unions -/

/-- Under the name is nothing, or a union. -/
def Vacant (types : Table String XdrType) (name : String) : Prop :=
  ∀ t, types.get? name = some t → ∃ decl, t = .union decl

theorem Vacant.of_eq_none {types : Table String XdrType} {name : String}
    (h : types.get? name = none) : Vacant types name := by
  intro t ht
  rw [h] at ht
  cases ht

theorem basesIn_insert_of_eq_none {types : Table String XdrType} {name : String}
    (h : types.get? name = none) (type : XdrType) : BasesIn types (types.insert name type) := by
  intro n t _ hget
  have hn : n ≠ name := by
    rintro rfl
    exact absurd (h.symm.trans hget) (by simp)
  rw [Table.get?_insert_of_ne hn, hget]

/-- The tables hold the same entries, unions left out. -/
structure SameBases (types types' : Table String XdrType) : Prop where
  forth : BasesIn types types'
  back : BasesIn types' types

namespace SameBases

variable {types types' types'' : Table String XdrType} {name : String}

theorem refl (types : Table String XdrType) : SameBases types types :=
  ⟨fun _ _ _ h => h, fun _ _ _ h => h⟩

theorem trans (h : SameBases types types') (h' : SameBases types' types'') :
    SameBases types types'' :=
  ⟨fun n t ht hget => h'.forth n t ht (h.forth n t ht hget),
    fun n t ht hget => h.back n t ht (h'.back n t ht hget)⟩

theorem insert_union (hvacant : Vacant types name) (decl : UnionDecl) :
    SameBases types (types.insert name (.union decl)) := by
  constructor
  · intro n t ht hget
    have hne : n ≠ name := by
      rintro rfl
      obtain ⟨decl', rfl⟩ := hvacant t hget
      exact ht decl' rfl
    rw [Table.get?_insert_of_ne hne, hget]
  · intro n t ht hget
    by_cases hn : n = name
    · subst hn
      rw [Table.get?_insert_self] at hget
      exact absurd (Option.some_inj.mp hget).symm (ht decl)
    · rwa [Table.get?_insert_of_ne hn] at hget

theorem vacant (h : SameBases types types') (hvacant : Vacant types name) :
    Vacant types' name := by
  intro t hget
  by_contra hunion
  have ht : ∀ decl, t ≠ .union decl := fun decl hdecl => hunion ⟨decl, hdecl⟩
  exact hunion (hvacant t (h.back name t ht hget))

end SameBases

namespace Builder

variable {beginnings : List String} {types types' : Table String XdrType}
  {pending : List (String × Option UnionDefinition)} {q : String × Option UnionDefinition}
  {u : UnionDecl}

theorem compileUnion_mono {name : String} {definition : Option UnionDefinition}
    (hbases : BasesIn types types') (h : compileUnion beginnings types name definition = .ok u) :
    compileUnion beginnings types' name definition = .ok u := by
  cases definition with
  | none => cases h
  | some d =>
    obtain ⟨resolved, hresolved, h⟩ := bind_eq_ok_iff.mp h
    exact bind_eq_ok_iff.mpr ⟨resolved, resolveDiscriminant_mono hbases hresolved, h⟩

/-! ## Compiling the waiting unions -/

theorem compilePending_cons_error {failure : Failure}
    (h : compileUnion beginnings types q.1 q.2 = .error failure) :
    compilePending beginnings types (q :: pending) = (types, some failure) := by
  rw [compilePending, h]

theorem compilePending_cons_ok (h : compileUnion beginnings types q.1 q.2 = .ok u) :
    compilePending beginnings types (q :: pending) =
      compilePending beginnings (types.insert q.1 (.union u)) pending := by
  rw [compilePending, h]

/-- The names of the later unions stay vacant when a first one is compiled. -/
theorem vacant_of_cons (hvacant : ∀ q' ∈ q :: pending, Vacant types q'.1) (u : UnionDecl) :
    ∀ q' ∈ pending, Vacant (types.insert q.1 (.union u)) q'.1 := by
  intro q' hq'
  have hinsert := SameBases.insert_union (hvacant q List.mem_cons_self) u
  exact hinsert.vacant (hvacant q' (List.mem_cons_of_mem q hq'))

theorem sameBases_compilePending (hvacant : ∀ q ∈ pending, Vacant types q.1) :
    SameBases types (compilePending beginnings types pending).1 := by
  induction pending generalizing types with
  | nil => exact .refl types
  | cons q rest ih =>
    cases hq : compileUnion beginnings types q.1 q.2 with
    | error failure =>
      rw [compilePending_cons_error hq]
      exact .refl types
    | ok u =>
      rw [compilePending_cons_ok hq]
      have hinsert := SameBases.insert_union (hvacant q List.mem_cons_self) u
      exact hinsert.trans (ih (vacant_of_cons hvacant u))

/-- Compiling goes through exactly if each union compiles against the table at the start. -/
theorem compilePending_eq_none_iff (hvacant : ∀ q ∈ pending, Vacant types q.1) :
    (compilePending beginnings types pending).2 = none ↔
      ∀ q ∈ pending, ∃ u, compileUnion beginnings types q.1 q.2 = .ok u := by
  induction pending generalizing types with
  | nil => simp [compilePending]
  | cons q rest ih =>
    rw [List.forall_mem_cons]
    cases hq : compileUnion beginnings types q.1 q.2 with
    | error failure =>
      rw [compilePending_cons_error hq]
      simp
    | ok u =>
      have hinsert := SameBases.insert_union (hvacant q List.mem_cons_self) u
      rw [compilePending_cons_ok hq, ih (vacant_of_cons hvacant u)]
      constructor
      · intro h
        refine ⟨⟨u, rfl⟩, fun q' hq' => ?_⟩
        obtain ⟨u', hu'⟩ := h q' hq'
        exact ⟨u', compileUnion_mono hinsert.back hu'⟩
      · rintro ⟨-, h⟩ q' hq'
        obtain ⟨u', hu'⟩ := h q' hq'
        exact ⟨u', compileUnion_mono hinsert.forth hu'⟩

theorem get?_compilePending_of_notMem {n : String} (hn : n ∉ pending.map Prod.fst) :
    (compilePending beginnings types pending).1.get? n = types.get? n := by
  induction pending generalizing types with
  | nil => rfl
  | cons q rest ih =>
    rw [List.map_cons, List.mem_cons, not_or] at hn
    cases hq : compileUnion beginnings types q.1 q.2 with
    | error failure => rw [compilePending_cons_error hq]
    | ok u => rw [compilePending_cons_ok hq, ih hn.2, Table.get?_insert_of_ne hn.1]

theorem get?_compilePending_of_mem (hvacant : ∀ q ∈ pending, Vacant types q.1)
    (hnodup : (pending.map Prod.fst).Nodup)
    (hdone : (compilePending beginnings types pending).2 = none) (hmem : q ∈ pending) :
    ∃ u, compileUnion beginnings types q.1 q.2 = .ok u ∧
      (compilePending beginnings types pending).1.get? q.1 = some (.union u) := by
  induction pending generalizing types with
  | nil => exact absurd hmem List.not_mem_nil
  | cons first rest ih =>
    obtain ⟨⟨u, hu⟩, -⟩ := List.forall_mem_cons.mp ((compilePending_eq_none_iff hvacant).mp hdone)
    obtain ⟨hfirst, hnodup⟩ := List.nodup_cons.mp hnodup
    rw [compilePending_cons_ok hu] at hdone ⊢
    rcases List.mem_cons.mp hmem with rfl | hmem
    · refine ⟨u, hu, ?_⟩
      rw [get?_compilePending_of_notMem hfirst, Table.get?_insert_self]
    · have hinsert := SameBases.insert_union (hvacant first List.mem_cons_self) u
      obtain ⟨u', hu', hget⟩ := ih (vacant_of_cons hvacant u) hnodup hdone hmem
      exact ⟨u', compileUnion_mono hinsert.back hu', hget⟩

/-! ## One build -/

theorem build_of_eq_none {b : Builder}
    (h : (compilePending b.boxedBeginnings b.types b.pending).2 = none) :
    b.build =
      ({ b with types := (compilePending b.boxedBeginnings b.types b.pending).1, pending := [] },
        .ok ⟨(compilePending b.boxedBeginnings b.types b.pending).1, b.constants⟩) := by
  unfold build
  split
  · next types hcompiled => rw [hcompiled]
  · next types failure hcompiled =>
    rw [hcompiled] at h
    cases h

theorem build_of_eq_some {b : Builder} {failure : Failure}
    (h : (compilePending b.boxedBeginnings b.types b.pending).2 = some failure) :
    b.build =
      ({ b with types := (compilePending b.boxedBeginnings b.types b.pending).1 },
        .error failure) := by
  unfold build
  split
  · next types hcompiled =>
    rw [hcompiled] at h
    cases h
  · next types failure' hcompiled =>
    rw [hcompiled] at h ⊢
    cases h
    rfl

theorem build_eq_ok_iff {b : Builder} :
    (∃ schema, b.build.2 = .ok schema) ↔
      (compilePending b.boxedBeginnings b.types b.pending).2 = none := by
  cases h : (compilePending b.boxedBeginnings b.types b.pending).2 with
  | none => simp [build_of_eq_none h]
  | some failure => simp [build_of_eq_some h]

/-- A build that succeeds leaves its schema in the builder, and no union waiting. -/
theorem build_fst_of_ok {b : Builder} {schema : Schema} (h : b.build.2 = .ok schema) :
    b.build.1 = { b with types := schema.types, pending := [] } ∧
      schema.constants = b.constants := by
  have hcompiled := build_eq_ok_iff.mp ⟨schema, h⟩
  rw [build_of_eq_none hcompiled] at h ⊢
  cases h
  exact ⟨rfl, rfl⟩

/-! ## Builders before their first build -/

theorem nodup_names_concat {name : String} (hnodup : (pending.map Prod.fst).Nodup)
    (hname : name ∉ pending.map Prod.fst) (definition : Option UnionDefinition) :
    ((pending ++ [(name, definition)]).map Prod.fst).Nodup := by
  rw [List.map_append]
  exact List.nodup_append_comm.mp (List.nodup_cons.mpr ⟨hname, hnodup⟩)

/-- No two waiting unions share a name, and no other type has the name of one. -/
structure Tidy (b : Builder) : Prop where
  nodup : (b.pending.map Prod.fst).Nodup
  vacant : ∀ q ∈ b.pending, Vacant b.types q.1

namespace Tidy

variable {b : Builder}

theorem eq_of_fst_eq (h : b.Tidy) {q q' : String × Option UnionDefinition} (hq : q ∈ b.pending)
    (hq' : q' ∈ b.pending) (hname : q.1 = q'.1) : q = q' :=
  List.inj_on_of_nodup_map h.nodup hq hq' hname

theorem apply (h : b.Tidy) {e : Effect} (hfree : ∀ name, e.typeName? = some name → b.Free name) :
    (b.apply e).Tidy := by
  cases e with
  | store name type =>
    refine ⟨h.nodup, fun q hq t hget => h.vacant q hq t ?_⟩
    have hne : q.1 ≠ name := by
      rintro rfl
      exact (hfree _ rfl).pending (List.mem_map_of_mem hq)
    exact (Table.get?_insert_of_ne hne b.types type).symm.trans hget
  | await name definition =>
    constructor
    · exact nodup_names_concat h.nodup (hfree name rfl).pending definition
    · intro q hq
      rcases List.mem_append.mp hq with hq | hq
      · exact h.vacant q hq
      · rw [List.mem_singleton.mp hq]
        exact .of_eq_none (hfree name rfl).types
  | constant name value => exact ⟨h.nodup, h.vacant⟩

end Tidy

theorem tidy_new (beginnings : List String) : (new beginnings).Tidy :=
  ⟨List.nodup_nil, fun _ hq => absurd hq List.not_mem_nil⟩

theorem free_new (beginnings : List String) (name : String) : (new beginnings).Free name :=
  ⟨Table.get?_empty name, List.not_mem_nil⟩

end Builder

/-! ## Builders with builds behind them -/

/-- `m` holds what `p` holds, with some of the waiting unions of `p` compiled already. -/
structure Ahead (m p : Builder) : Prop where
  beginnings : m.boxedBeginnings = p.boxedBeginnings
  constants : ∀ name, m.constants.get? name = p.constants.get? name
  tidy : p.Tidy
  nodup : (m.pending.map Prod.fst).Nodup
  pending : m.pending ⊆ p.pending
  types : ∀ name, name ∉ p.pending.map Prod.fst → m.types.get? name = p.types.get? name
  vacant : ∀ q ∈ p.pending, Vacant m.types q.1
  /-- A union that does not wait any more is what it would compile to in `p`. -/
  done : ∀ q ∈ p.pending, q ∉ m.pending → ∃ u,
    Builder.compileUnion p.boxedBeginnings p.types q.1 q.2 = .ok u ∧
      m.types.get? q.1 = some (.union u)

theorem Builder.Tidy.ahead {b : Builder} (h : b.Tidy) : Ahead b b where
  beginnings := rfl
  constants _ := rfl
  tidy := h
  nodup := h.nodup
  pending := List.Subset.refl b.pending
  types _ _ := rfl
  vacant := h.vacant
  done _ hq hq' := absurd hq hq'

namespace Ahead

variable {m p : Builder} {q : String × Option UnionDefinition}

theorem sameBases (h : Ahead m p) : SameBases m.types p.types := by
  -- At the name of a waiting union neither table has an entry that counts.
  have hname : ∀ {types types' : Table String XdrType}, (∀ q ∈ p.pending, Vacant types q.1) →
      (∀ n, n ∉ p.pending.map Prod.fst → types.get? n = types'.get? n) →
      BasesIn types types' := by
    intro types types' hvacant hsame n t ht hget
    by_cases hn : n ∈ p.pending.map Prod.fst
    · obtain ⟨q, hq, rfl⟩ := List.mem_map.mp hn
      obtain ⟨decl, rfl⟩ := hvacant q hq t hget
      exact absurd rfl (ht decl)
    · rw [← hsame n hn, hget]
  exact ⟨hname h.vacant h.types, hname h.tidy.vacant fun n hn => (h.types n hn).symm⟩

theorem vacant_pending (h : Ahead m p) : ∀ q ∈ m.pending, Vacant m.types q.1 :=
  fun q hq => h.vacant q (h.pending hq)

theorem notMem_pending (h : Ahead m p) (hq : q ∈ p.pending) (hq' : q ∉ m.pending) :
    q.1 ∉ m.pending.map Prod.fst := by
  intro hmem
  obtain ⟨other, hother, hname⟩ := List.mem_map.mp hmem
  exact hq' (h.tidy.eq_of_fst_eq (h.pending hother) hq hname ▸ hother)

/-! ### A registration -/

theorem apply (h : Ahead m p) {e : Effect}
    (hfree : ∀ name, e.typeName? = some name → p.Free name) : Ahead (m.apply e) (p.apply e) := by
  have htidy := h.tidy.apply hfree
  cases e with
  | store name type =>
    have hfree := hfree name rfl
    have hne : ∀ q ∈ p.pending, q.1 ≠ name := by
      rintro q hq rfl
      exact hfree.pending (List.mem_map_of_mem hq)
    have hbases := basesIn_insert_of_eq_none hfree.types type
    refine { h with tidy := htidy, types := ?_, vacant := ?_, done := ?_ }
    · intro n hn
      exact Table.get?_insert_congr (h.types n hn) name type
    · intro q hq t hget
      exact h.vacant q hq t ((Table.get?_insert_of_ne (hne q hq) _ _).symm.trans hget)
    · intro q hq hq'
      obtain ⟨u, hu, hget⟩ := h.done q hq hq'
      exact ⟨u, Builder.compileUnion_mono hbases hu,
        (Table.get?_insert_of_ne (hne q hq) _ _).trans hget⟩
  | await name definition =>
    have hfree := hfree name rfl
    have hnames : name ∉ m.pending.map Prod.fst := by
      intro hmem
      exact hfree.pending (List.map_subset Prod.fst h.pending hmem)
    refine { h with tidy := htidy, nodup := ?_, pending := ?_, types := ?_, vacant := ?_,
                    done := ?_ }
    · exact Builder.nodup_names_concat h.nodup hnames definition
    · exact List.append_subset.mpr ⟨List.subset_append_of_subset_left _ h.pending,
        List.subset_append_right _ _⟩
    · intro n hn
      refine h.types n fun hmem => hn ?_
      exact List.map_subset Prod.fst (List.subset_append_left _ _) hmem
    · intro q hq
      rcases List.mem_append.mp hq with hq | hq
      · exact h.vacant q hq
      · rw [List.mem_singleton.mp hq]
        exact .of_eq_none ((h.types name hfree.pending).trans hfree.types)
    · intro q hq hq'
      obtain ⟨hm, hnew⟩ := not_or.mp (mt List.mem_append.mpr hq')
      exact h.done q ((List.mem_append.mp hq).resolve_right hnew) hm
  | constant name value =>
    refine { h with tidy := htidy, constants := ?_ }
    intro n
    exact Table.get?_insert_congr (h.constants n) name value

/-! ### A build -/

/-- Whether it succeeds or not, a build compiles waiting unions and changes nothing else. -/
theorem build (h : Ahead m p) : Ahead m.build.1 p := by
  have hsame : SameBases m.types
      (Builder.compilePending m.boxedBeginnings m.types m.pending).1 :=
    Builder.sameBases_compilePending h.vacant_pending
  have hframe : ∀ n, n ∉ m.pending.map Prod.fst →
      (Builder.compilePending m.boxedBeginnings m.types m.pending).1.get? n = m.types.get? n :=
    fun n hn => Builder.get?_compilePending_of_notMem hn
  have htypes : ∀ n, n ∉ p.pending.map Prod.fst →
      (Builder.compilePending m.boxedBeginnings m.types m.pending).1.get? n = p.types.get? n := by
    intro n hn
    rw [hframe n fun hmem => hn (List.map_subset Prod.fst h.pending hmem), h.types n hn]
  have hdone : ∀ q ∈ p.pending, q ∉ m.pending → ∃ u,
      Builder.compileUnion p.boxedBeginnings p.types q.1 q.2 = .ok u ∧
        (Builder.compilePending m.boxedBeginnings m.types m.pending).1.get? q.1 =
          some (.union u) := by
    intro q hq hq'
    rw [hframe q.1 (h.notMem_pending hq hq')]
    exact h.done q hq hq'
  cases hfailure : (Builder.compilePending m.boxedBeginnings m.types m.pending).2 with
  | some failure =>
    rw [Builder.build_of_eq_some hfailure]
    exact { h with types := htypes, vacant := fun q hq => hsame.vacant (h.vacant q hq),
                   done := hdone }
  | none =>
    rw [Builder.build_of_eq_none hfailure]
    refine { h with nodup := List.nodup_nil, pending := List.nil_subset _, types := htypes,
                    vacant := fun q hq => hsame.vacant (h.vacant q hq), done := fun q hq _ => ?_ }
    by_cases hq' : q ∈ m.pending
    · obtain ⟨u, hu, hget⟩ :=
        Builder.get?_compilePending_of_mem h.vacant_pending h.nodup hfailure hq'
      exact ⟨u, h.beginnings ▸ Builder.compileUnion_mono h.sameBases.forth hu, hget⟩
    · exact hdone q hq hq'

/-- The build succeeds exactly if all unions of `p` compile. -/
theorem build_eq_ok_iff (h : Ahead m p) :
    (∃ schema, m.build.2 = .ok schema) ↔
      ∀ q ∈ p.pending, ∃ u,
        Builder.compileUnion p.boxedBeginnings p.types q.1 q.2 = .ok u := by
  rw [Builder.build_eq_ok_iff, Builder.compilePending_eq_none_iff h.vacant_pending]
  constructor
  · intro hall q hq
    by_cases hq' : q ∈ m.pending
    · obtain ⟨u, hu⟩ := hall q hq'
      exact ⟨u, h.beginnings ▸ Builder.compileUnion_mono h.sameBases.forth hu⟩
    · obtain ⟨u, hu, -⟩ := h.done q hq hq'
      exact ⟨u, hu⟩
  · intro hall q hq
    obtain ⟨u, hu⟩ := hall q (h.pending hq)
    exact ⟨u, h.beginnings ▸ Builder.compileUnion_mono h.sameBases.back hu⟩

theorem get?_of_build {schema : Schema} (h : Ahead m p) (hbuild : m.build.2 = .ok schema)
    (hq : q ∈ p.pending) :
    ∃ u, Builder.compileUnion p.boxedBeginnings p.types q.1 q.2 = .ok u ∧
      schema.types.get? q.1 = some (.union u) := by
  have hdone := h.build.done q hq
  rw [(Builder.build_fst_of_ok hbuild).1] at hdone
  exact hdone List.not_mem_nil

theorem get?_of_build_of_notMem {schema : Schema} (h : Ahead m p)
    (hbuild : m.build.2 = .ok schema) {name : String} (hname : name ∉ p.pending.map Prod.fst) :
    schema.types.get? name = p.types.get? name := by
  have htypes := h.build.types name hname
  rwa [(Builder.build_fst_of_ok hbuild).1] at htypes

end Ahead

/-! ## Equal outcomes -/

/-- Both attempts fail, or both give schemas with the same type under each name and the same
value for each constant. The order of the entries is left open. -/
structure SameOutcome (x y : Except Failure Schema) : Prop where
  succeeds : (∃ schema, x = .ok schema) ↔ ∃ schema, y = .ok schema
  types : ∀ s s', x = .ok s → y = .ok s' → ∀ name, s.types.get? name = s'.types.get? name
  constants : ∀ s s', x = .ok s → y = .ok s' →
    ∀ name, s.constants.get? name = s'.constants.get? name

theorem SameOutcome.of_forall_ne {x y : Except Failure Schema} (hx : ∀ schema, x ≠ .ok schema)
    (hy : ∀ schema, y ≠ .ok schema) : SameOutcome x y where
  succeeds := ⟨fun ⟨s, hs⟩ => absurd hs (hx s), fun ⟨s, hs⟩ => absurd hs (hy s)⟩
  types s _ hs := absurd hs (hx s)
  constants s _ hs := absurd hs (hx s)

theorem Ahead.sameOutcome {m p : Builder} (h : Ahead m p) :
    SameOutcome m.build.2 p.build.2 := by
  refine ⟨h.build_eq_ok_iff.trans h.tidy.ahead.build_eq_ok_iff.symm, ?_, ?_⟩
  · intro s s' hs hs' name
    by_cases hname : name ∈ p.pending.map Prod.fst
    · obtain ⟨q, hq, rfl⟩ := List.mem_map.mp hname
      obtain ⟨u, hu, hget⟩ := h.get?_of_build hs hq
      obtain ⟨u', hu', hget'⟩ := h.tidy.ahead.get?_of_build hs' hq
      obtain rfl := Except.ok.inj (hu.symm.trans hu')
      rw [hget, hget']
    · rw [h.get?_of_build_of_notMem hs hname, h.tidy.ahead.get?_of_build_of_notMem hs' hname]
  · intro s s' hs hs' name
    rw [(Builder.build_fst_of_ok hs).2, (Builder.build_fst_of_ok hs').2, h.constants name]

end XdrCompiler
