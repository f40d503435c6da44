/-
# XdrCompiler.Proofs.FailedCalls -- what a failing call leaves behind

A builder is changed by its calls, and a call that fails may come after some of
its work is done. A registration does all of its work before it stores anything,
so one that fails leaves the builder as it was. A build stores each union as soon
as it is compiled. One that fails therefore leaves the table with the unions that
waited before the failing one, as if they were all that waited, while none of them
has stopped waiting (`failed_calls_effect`).

`Compiles` says what compiling unions one after the other comes to, and a build
that fails is exactly one that gets through some of the waiting unions and then
meets one that does not compile (`compilePending_eq_failed_iff`).
-/
import XdrCompiler.Proofs.BuiltTable

namespace XdrCompiler.Builder

variable {beginnings : List String} {types types' : Table String XdrType}
  {pending : List (String × Option UnionDefinition)}

/-! ## Unions compiled one after the other -/

/-- Compiling the unions in order turns the first table into the second. Each is compiled
against what the ones before it have left, and is stored under its name. -/
inductive Compiles (beginnings : List String) :
    Table String XdrType → List (String × Option UnionDefinition) → Table String XdrType → Prop
  | done (types : Table String XdrType) : Compiles beginnings types [] types
  | store {types types' : Table String XdrType} {q : String × Option UnionDefinition}
      {rest : List (String × Option UnionDefinition)} {u : UnionDecl} :
      compileUnion beginnings types q.1 q.2 = .ok u →
      Compiles beginnings (types.insert q.1 (.union u)) rest types' →
      Compiles beginnings types (q :: rest) types'

theorem compilePending_eq_done_iff :
    compilePending beginnings types pending = (types', none) ↔
      Compiles beginnings types pending types' := by
  induction pending generalizing types with
  | nil =>
    constructor
    · intro h
      cases h
      exact .done _
    · intro h
      cases h
      rfl
  | cons q rest ih =>
    constructor
    · intro h
      cases hq : compileUnion beginnings types q.1 q.2 with
      | error failure =>
        rw [compilePending_cons_error hq] at h
        cases h
      | ok u =>
        rw [compilePending_cons_ok hq] at h
        exact .store hq (ih.mp h)
    · intro h
      cases h with
      | store hq hrest => rw [compilePending_cons_ok hq, ih.mpr hrest]

/-- Compiling stops at the first union that fails, with the ones before it in the table. -/
theorem compilePending_eq_failed_iff {failure : Failure} :
    compilePending beginnings types pending = (types', some failure) ↔
      ∃ done failing rest, pending = done ++ failing :: rest ∧
        Compiles beginnings types done types' ∧
        compileUnion beginnings types' failing.1 failing.2 = .error failure := by
  induction pending generalizing types with
  | nil =>
    constructor
    · intro h
      cases h
    · rintro ⟨done, failing, rest, hpending, -⟩
      exact absurd hpending.symm (by simp)
  | cons q others ih =>
    constructor
    · intro h
      cases hq : compileUnion beginnings types q.1 q.2 with
      | error failure' =>
        rw [compilePending_cons_error hq] at h
        cases h
        exact ⟨[], q, others, rfl, .done _, hq⟩
      | ok u =>
        rw [compilePending_cons_ok hq] at h
        obtain ⟨done, failing, rest, rfl, hdone, hfailing⟩ := ih.mp h
        exact ⟨q :: done, failing, rest, rfl, .store hq hdone, hfailing⟩
    · rintro ⟨done, failing, rest, hpending, hdone, hfailing⟩
      cases hdone with
      | done =>
        obtain ⟨rfl, rfl⟩ := List.cons_eq_cons.mp hpending
        rw [compilePending_cons_error hfailing]
      | store hq hdone =>
        obtain ⟨rfl, rfl⟩ := List.cons_eq_cons.mp hpending
        rw [compilePending_cons_ok hq]
        exact ih.mpr ⟨_, failing, rest, rfl, hdone, hfailing⟩

/-! ## What compiled unions do to a table -/

/-- The second table is the first with the unions in it: a name that was there keeps its place,
a new one comes behind the others, and of several unions of one name the last one counts. -/
structure HoldsUnions (beginnings : List String) (types : Table String XdrType)
    (unions : List (String × Option UnionDefinition)) (types' : Table String XdrType) : Prop where
  names : types'.keys =
    types.keys ++ (firstOccurrences (unions.map Prod.fst)).filter (· ∉ types.keys)
  union : ∀ name definition, Pairs.findLast? name unions = some definition →
    ∃ u, compileUnion beginnings types name definition = .ok u ∧
      types'.get? name = some (.union u)
  others : ∀ name, name ∉ unions.map Prod.fst → types'.get? name = types.get? name

theorem Compiles.holdsUnions (h : Compiles beginnings types pending types') :
    HoldsUnions beginnings types pending types' := by
  have hrun := compilePending_eq_done_iff.mpr h
  have hdone : (compilePending beginnings types pending).2 = none := by rw [hrun]
  have htable : (compilePending beginnings types pending).1 = types' := by rw [hrun]
  rw [← htable]
  exact {
    names := keys_compilePending hdone
    union := fun name definition hlast => get?_compilePending_of_findLast? hdone hlast
    others := fun name hname => get?_compilePending_of_notMem hname }

/-! ## Failing calls -/

/-- A build of `b` fails with `failure` at the union `failing`, which waits behind the unions
`done`, and leaves `b'`. -/
structure StopsAt (b : Builder) (failure : Failure)
    (done : List (String × Option UnionDefinition)) (failing : String × Option UnionDefinition)
    (b' : Builder) : Prop where
  waiting : ∃ rest, b.pending = done ++ failing :: rest
  compiles : Compiles b.boxedBeginnings b.types done b'.types
  fails : compileUnion b.boxedBeginnings b'.types failing.1 failing.2 = .error failure
  types : HoldsUnions b.boxedBeginnings b.types done b'.types
  boxedBeginnings : b'.boxedBeginnings = b.boxedBeginnings
  constants : b'.constants = b.constants
  pending : b'.pending = b.pending

theorem build_eq_error_iff {b : Builder} {failure : Failure} :
    b.build.2 = .error failure ↔
      (compilePending b.boxedBeginnings b.types b.pending).2 = some failure := by
  cases h : (compilePending b.boxedBeginnings b.types b.pending).2 with
  | none => simp [build_of_eq_none h]
  | some failure' => simp [build_of_eq_some h]

theorem exists_stopsAt_iff {b : Builder} {failure : Failure} :
    b.build.2 = .error failure ↔ ∃ done failing, StopsAt b failure done failing b.build.1 := by
  rw [build_eq_error_iff]
  constructor
  · intro h
    have hbuild := build_of_eq_some h
    obtain ⟨done, failing, rest, hwaiting, hdone, hfailing⟩ :=
      compilePending_eq_failed_iff.mp (Prod.ext rfl h)
    refine ⟨done, failing, ?_⟩
    rw [hbuild]
    exact {
      waiting := ⟨rest, hwaiting⟩
      compiles := hdone
      fails := hfailing
      types := hdone.holdsUnions
      boxedBeginnings := rfl
      constants := rfl
      pending := rfl }
  · rintro ⟨done, failing, h⟩
    obtain ⟨rest, hwaiting⟩ := h.waiting
    rw [compilePending_eq_failed_iff.mpr ⟨done, failing, rest, hwaiting, h.compiles, h.fails⟩]

/-- Of the calls that reach the builder, only the registration of a struct can fail. -/
theorem register_eq_error_iff {b : Builder} {r : Registration} {failure : Failure} :
    b.register r = .error failure ↔
      (∃ name fields, r = .struct name fields ∧
        StructDecl.compile b.boxedBeginnings name fields = .error failure) ∨
      r = .failing failure := by
  cases r with
  | struct name fields =>
    rw [register]
    cases hdecl : StructDecl.compile b.boxedBeginnings name fields <;> simp [Except.map, hdecl]
  | failing failure' => simp [register]
  | _ => simp [register]

/-- A registration that fails leaves the builder as it was. A build fails exactly if it gets
through some of the waiting unions to one that does not compile; it leaves the table with the
former in it, and constants and waiting unions as they were. -/
theorem failed_calls_effect (b : Builder) :
    (∀ r failure, b.register r = .error failure →
      ((∃ name fields, r = .struct name fields ∧
          StructDecl.compile b.boxedBeginnings name fields = .error failure) ∨
        r = .failing failure) ∧
      b.perform (.register r) = b) ∧
    (∀ failure, b.build.2 = .error failure ↔
      ∃ done failing, StopsAt b failure done failing (b.perform .build)) := by
  refine ⟨?_, fun failure => exists_stopsAt_iff⟩
  intro r failure h
  refine ⟨register_eq_error_iff.mp h, ?_⟩
  rw [perform, h]

end XdrCompiler.Builder
