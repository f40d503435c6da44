/-
# XdrCompiler.Proofs.BuiltTable -- what a finished table holds, and in which order

Names may be registered any number of times, as types, as unions and as
constants. A table gives a name the place of its first registration and the value
of its last one. Unions are stored after everything else, whenever they were
registered. So they stand behind the other types, unless their name was there
already, and a union replaces whatever else was registered under its name, even
later than the union (`builtFrom_registrations`).

A union is compiled against a table in which earlier unions have replaced some
entries. If that succeeds it makes no difference: the way from a discriminant
never ends at a union, so it passes through entries that are still the registered
ones (`exists_compiled`).
-/
import XdrCompiler.Graph.Reachable
import XdrCompiler.Proofs.RegistrationOrder
import XdrCompiler.Proofs.RepeatedBuilds

namespace XdrCompiler

/-! ## Pairs stored one after the other -/

/-- The value of the last pair with key `k`. -/
def Pairs.findLast? {κ α : Type} [DecidableEq κ] (k : κ) : List (κ × α) → Option α
  | [] => none
  | (k', v) :: rest => (findLast? k rest).or (if k' = k then some v else none)

namespace Pairs

variable {α β : Type} {k : String}

theorem findLast?_eq_none_iff {l : List (String × α)} :
    findLast? k l = none ↔ k ∉ l.map Prod.fst := by
  induction l with
  | nil => simp [findLast?]
  | cons p rest ih =>
    by_cases hp : p.1 = k
    · simp [findLast?, hp]
    · simp [findLast?, hp, Ne.symm hp, ih]

/-- Of two lists that go together name by name, the last pairs with a name go together. -/
theorem findLast?_of_forall₂ {R : String × α → String × β → Prop} {as : List (String × α)}
    {bs : List (String × β)} (h : List.Forall₂ R as bs) (hname : ∀ a b, R a b → b.1 = a.1)
    {v : α} (hlast : findLast? k as = some v) :
    ∃ w, findLast? k bs = some w ∧ R (k, v) (k, w) := by
  induction h with
  | nil => cases hlast
  | @cons a b as bs hab hrest ih =>
    obtain ⟨ka, va⟩ := a
    obtain ⟨kb, vb⟩ := b
    obtain rfl : kb = ka := hname _ _ hab
    rw [findLast?] at hlast ⊢
    cases hlater : findLast? k as with
    | some v' =>
      rw [hlater, Option.some_or] at hlast
      obtain ⟨w, hw, hR⟩ := ih (hlater.trans hlast)
      exact ⟨w, by rw [hw, Option.some_or], hR⟩
    | none =>
      have hlater' : findLast? k bs = none := by
        rw [findLast?_eq_none_iff, map_eq_map_of_forall₂ hrest hname, ← findLast?_eq_none_iff]
        exact hlater
      rw [hlater, Option.none_or, Option.ite_none_right_eq_some, Option.some_inj] at hlast
      obtain ⟨rfl, rfl⟩ := hlast
      exact ⟨vb, by rw [hlater', Option.none_or, if_pos rfl], hab⟩

end Pairs

namespace Table

variable {α : Type}

/-- New keys come behind the old ones, in the order of their first occurrence. -/
theorem keys_foldl_insert (t : Table String α) (pairs : List (String × α)) :
    (pairs.foldl (fun t p => t.insert p.1 p.2) t).keys =
      t.keys ++ (firstOccurrences (pairs.map Prod.fst)).filter (· ∉ t.keys) := by
  induction pairs generalizing t with
  | nil => simp [firstOccurrences]
  | cons p rest ih =>
    rw [List.foldl_cons, ih, keys_insert, List.map_cons, firstOccurrences]
    by_cases hp : p.1 ∈ t.keys
    · have hne : ∀ n ∈ firstOccurrences (rest.map Prod.fst),
          (decide (n ∉ t.keys) && decide (n ≠ p.1)) = decide (n ∉ t.keys) := by
        intro n _
        by_cases hn : n = p.1
        · simp [hn, hp]
        · simp [hn]
      rw [if_pos hp, List.filter_cons_of_neg (by simpa using hp), List.filter_filter,
        List.filter_congr hne]
    · simp [hp, List.filter_filter, not_or]

theorem keys_ofList (pairs : List (String × α)) :
    (ofList pairs).keys = firstOccurrences (pairs.map Prod.fst) := by
  have h := keys_foldl_insert empty pairs
  simpa [ofList, keys, empty] using h

/-- The last pair with a key counts, and without one the key keeps what it had. -/
theorem get?_foldl_insert (t : Table String α) (pairs : List (String × α)) (k : String) :
    (pairs.foldl (fun t p => t.insert p.1 p.2) t).get? k =
      (Pairs.findLast? k pairs).or (t.get? k) := by
  induction pairs generalizing t with
  | nil => rfl
  | cons p rest ih =>
    rw [List.foldl_cons, ih, Pairs.findLast?, Option.or_assoc]
    by_cases hp : p.1 = k
    · rw [if_pos hp, ← hp, get?_insert_self, Option.some_or]
    · rw [if_neg hp, get?_insert_of_ne (Ne.symm hp), Option.none_or]

theorem get?_ofList (pairs : List (String × α)) (k : String) :
    (ofList pairs).get? k = Pairs.findLast? k pairs := by
  rw [ofList, get?_foldl_insert, get?_empty, Option.or_none]

end Table

/-! ## What registrations leave -/

namespace Registration

variable (beginnings : List String) (registrations : List Registration)

/-- The types that are stored on registration, under their names and in order. -/
def stored : List (String × XdrType) :=
  (effects beginnings registrations).filterMap Effect.entry?

/-- The unions that wait for the build, under their names and in order. -/
def waiting : List (String × Option UnionDefinition) :=
  (effects beginnings registrations).filterMap Effect.waiting?

/-- The constants under their names and in order. -/
def bindings : List (String × ConstantValue) :=
  (effects beginnings registrations).filterMap Effect.binding?

end Registration

namespace Builder

variable {beginnings : List String} {registrations : List Registration}

/-- The builder after some registrations, those that fail left out. -/
def afterAll (beginnings : List String) (registrations : List Registration) : Builder :=
  (new beginnings).performAll (registrations.map .register)

theorem performAll_map_register (b : Builder) (registrations : List Registration) :
    b.performAll (registrations.map .register) =
      (Registration.effects b.boxedBeginnings registrations).foldl apply b := by
  induction registrations generalizing b with
  | nil => rfl
  | cons r rest ih =>
    rw [List.map_cons, performAll, List.foldl_cons, ← performAll, ih, Registration.effects,
      Registration.effects, List.filterMap_cons]
    cases he : r.effect b.boxedBeginnings with
    | error failure =>
      rw [perform_register_of_error he]
      rfl
    | ok e =>
      rw [perform_register_of_ok he, boxedBeginnings_apply]
      rfl

theorem afterAll_eq :
    afterAll beginnings registrations =
      { boxedBeginnings := beginnings
        types := .ofList (Registration.stored beginnings registrations)
        constants := .ofList (Registration.bindings beginnings registrations)
        pending := Registration.waiting beginnings registrations } := by
  rw [afterAll, performAll_map_register, foldl_apply]
  rfl

/-! ## What a build adds -/

variable {types : Table String XdrType} {pending : List (String × Option UnionDefinition)}

theorem basesIn_of_insert_union (types : Table String XdrType) (name : String) (u : UnionDecl) :
    BasesIn (types.insert name (.union u)) types := by
  intro n t ht hget
  by_cases hn : n = name
  · rw [hn, Table.get?_insert_self] at hget
    exact absurd (Option.some_inj.mp hget).symm (ht u)
  · rwa [Table.get?_insert_of_ne hn] at hget

/-- A build stores one union for each waiting one, in order, and each is what the waiting one
compiles to against the table from before the build. -/
theorem exists_compiled (h : (compilePending beginnings types pending).2 = none) :
    ∃ compiled : List (String × XdrType),
      List.Forall₂ (fun q p => p.1 = q.1 ∧ ∃ u, p.2 = .union u ∧
        compileUnion beginnings types q.1 q.2 = .ok u) pending compiled ∧
      (compilePending beginnings types pending).1 =
        compiled.foldl (fun t p => t.insert p.1 p.2) types := by
  induction pending generalizing types with
  | nil => exact ⟨[], .nil, rfl⟩
  | cons q rest ih =>
    cases hq : compileUnion beginnings types q.1 q.2 with
    | error failure =>
      rw [compilePending_cons_error hq] at h
      cases h
    | ok u =>
      rw [compilePending_cons_ok hq] at h ⊢
      obtain ⟨compiled, hcompiled, htable⟩ := ih h
      refine ⟨(q.1, .union u) :: compiled, .cons ⟨rfl, u, rfl, hq⟩ ?_, htable⟩
      refine hcompiled.imp ?_
      rintro q' p ⟨hname, u', hu', hcompile⟩
      exact ⟨hname, u', hu', compileUnion_mono (basesIn_of_insert_union types q.1 u) hcompile⟩

/-- Under the name of a union is, after the build, the last one that waited under it. -/
theorem get?_compilePending_of_findLast? {name : String} {definition : Option UnionDefinition}
    (h : (compilePending beginnings types pending).2 = none)
    (hlast : Pairs.findLast? name pending = some definition) :
    ∃ u, compileUnion beginnings types name definition = .ok u ∧
      (compilePending beginnings types pending).1.get? name = some (.union u) := by
  obtain ⟨compiled, hcompiled, htable⟩ := exists_compiled h
  obtain ⟨t, ht, -, u, rfl, hu⟩ :=
    Pairs.findLast?_of_forall₂ hcompiled (fun q p hp => hp.1) hlast
  refine ⟨u, hu, ?_⟩
  rw [htable, Table.get?_foldl_insert, ht, Option.some_or]

/-- After registrations, what a build gives is the table of the stored types with the waiting
unions compiled into it. -/
theorem of_build_afterAll {schema : Schema}
    (h : (afterAll beginnings registrations).build.2 = .ok schema) :
    (compilePending beginnings (.ofList (Registration.stored beginnings registrations))
        (Registration.waiting beginnings registrations)).2 = none ∧
      schema = ⟨(compilePending beginnings
          (.ofList (Registration.stored beginnings registrations))
          (Registration.waiting beginnings registrations)).1,
        .ofList (Registration.bindings beginnings registrations)⟩ := by
  have hdone := build_eq_ok_iff.mp ⟨schema, h⟩
  rw [build_of_eq_none hdone] at h
  obtain rfl := Except.ok.inj h
  rw [afterAll_eq] at hdone ⊢
  exact ⟨hdone, rfl⟩

/-- A build stores new names behind the old ones. -/
theorem keys_compilePending (h : (compilePending beginnings types pending).2 = none) :
    (compilePending beginnings types pending).1.keys =
      types.keys ++ (firstOccurrences (pending.map Prod.fst)).filter (· ∉ types.keys) := by
  obtain ⟨compiled, hcompiled, htable⟩ := exists_compiled h
  rw [htable, Table.keys_foldl_insert, map_eq_map_of_forall₂ hcompiled fun q p hp => hp.1]

end Builder

/-! ## The finished schema -/

/-- What a schema holds, and in which order, in terms of the registrations it is built from. -/
structure BuiltFrom (beginnings : List String) (registrations : List Registration)
    (schema : Schema) : Prop where
  /-- The types stored on registration come first, then the unions under new names. -/
  typeNames : schema.types.keys =
    firstOccurrences ((Registration.stored beginnings registrations).map Prod.fst) ++
      (firstOccurrences ((Registration.waiting beginnings registrations).map Prod.fst)).filter
        (· ∉ (Registration.stored beginnings registrations).map Prod.fst)
  nodup_typeNames : schema.types.keys.Nodup
  /-- Under the name of a union is the last union of that name. -/
  union : ∀ name definition,
    Pairs.findLast? name (Registration.waiting beginnings registrations) = some definition →
      ∃ u, Builder.compileUnion beginnings
          (.ofList (Registration.stored beginnings registrations)) name definition = .ok u ∧
        schema.types.get? name = some (.union u)
  /-- Under any other name is the last type stored there. -/
  stored : ∀ name, name ∉ (Registration.waiting beginnings registrations).map Prod.fst →
    schema.types.get? name =
      Pairs.findLast? name (Registration.stored beginnings registrations)
  constantNames : schema.constants.keys =
    firstOccurrences ((Registration.bindings beginnings registrations).map Prod.fst)
  constant : ∀ name, schema.constants.get? name =
    Pairs.findLast? name (Registration.bindings beginnings registrations)

/-- A schema that is built from registrations holds what was registered last under each name,
unions before other types, at the place where the name was registered first. -/
theorem builtFrom_registrations (beginnings : List String) (registrations : List Registration)
    {schema : Schema} (h : (Builder.afterAll beginnings registrations).build.2 = .ok schema) :
    BuiltFrom beginnings registrations schema := by
  have hdone := Builder.build_eq_ok_iff.mp ⟨schema, h⟩
  rw [Builder.build_of_eq_none hdone] at h
  obtain rfl := Except.ok.inj h
  rw [Builder.afterAll_eq] at hdone ⊢
  refine
    { typeNames := ?_
      nodup_typeNames := Table.nodup_keys _
      union := fun name definition => Builder.get?_compilePending_of_findLast? hdone
      stored := ?_
      constantNames := Table.keys_ofList _
      constant := Table.get?_ofList _ }
  · have hkeys := Builder.keys_compilePending hdone
    simpa only [Table.keys_ofList, mem_firstOccurrences] using hkeys
  · intro name hname
    exact (Builder.get?_compilePending_of_notMem hname).trans (Table.get?_ofList _ name)

/-- Names that come back: a type stored twice with a union of its name in between, a union
registered twice, and a constant. One registration fails. -/
def recurringNames : List Registration :=
  [.typeAlias "Hash" (.bytes (.literal 32)),
   .union "Choice" (some
     { switchOn := .reference "Kind"
       switchName := "kind"
       switches := [(.label "A", .empty)]
       arms := .empty
       defaultArm := none }),
   .constant "LIMIT" (.number 1),
   .struct "Broken" [("nothing", .void)],
   .enum "Kind" (Table.ofList [("A", 0), ("B", 1)]),
   .union "Hash" (some
     { switchOn := .int
       switchName := "version"
       switches := [(.number 0, .empty)]
       arms := .empty
       defaultArm := none }),
   .typeAlias "Hash" (.bytes (.literal 64)),
   .constant "DEPTH" (.number 8),
   .union "Choice" (some
     { switchOn := .reference "Kind"
       switchName := "kind"
       switches := [(.label "A", .empty), (.label "B", .named "limit")]
       arms := Table.ofList [("limit", .uint)]
       defaultArm := none }),
   .constant "LIMIT" (.number 2)]

theorem builtFrom_registrations_recurringNames :
    ∃ schema, (Builder.afterAll defaultBoxedBeginnings recurringNames).build.2 = .ok schema ∧
      BuiltFrom defaultBoxedBeginnings recurringNames schema ∧
      schema.types.keys = ["Hash", "Kind", "Choice"] ∧
      schema.constants.keys = ["LIMIT", "DEPTH"] ∧
      schema.constants.get? "LIMIT" = some (.number 2) := by
  obtain ⟨schema, hschema⟩ := exists_eq_ok_of_toBool
    (x := (Builder.afterAll defaultBoxedBeginnings recurringNames).build.2) (by decide +kernel)
  have hbuilt := builtFrom_registrations defaultBoxedBeginnings recurringNames hschema
  refine ⟨schema, hschema, hbuilt, ?_, ?_, ?_⟩
  · rw [hbuilt.typeNames]
    decide +kernel
  · rw [hbuilt.constantNames]
    decide +kernel
  · rw [hbuilt.constant]
    decide +kernel

end XdrCompiler
