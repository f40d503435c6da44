/-
# XdrCompiler.Proofs.RegistrationOrder -- the order of registrations does not matter

As long as no name is registered twice, what a list of registrations defines
depends on what is in the list, and not on the order in which it comes
(`registration_order_irrelevant`). Registrations store their types and constants
as they are listed, so that a different order gives a table with the same
entries in a different order. Whether the list can be registered at all is
decided registration by registration. The unions that wait are the same ones,
and what is left is that they may be compiled in any order, which holds of every
builder whose waiting unions have names of their own.
-/
import XdrCompiler.Proofs.Building

namespace XdrCompiler

/-! ## The effects of a list of registrations -/

namespace Effect

/-- The type that an effect stores, with its name. -/
def entry? : Effect → Option (String × XdrType)
  | store name type => some (name, type)
  | _ => none

/-- The union that an effect lets wait, with its name. -/
def waiting? : Effect → Option (String × Option UnionDefinition)
  | await name definition => some (name, definition)
  | _ => none

/-- The constant that an effect stores, with its name. -/
def binding? : Effect → Option (String × ConstantValue)
  | constant name value => some (name, value)
  | _ => none

theorem typeName?_of_entry? {e : Effect} {entry : String × XdrType}
    (h : e.entry? = some entry) : e.typeName? = some entry.1 := by
  cases e <;> cases h
  rfl

theorem constantName?_of_binding? {e : Effect} {binding : String × ConstantValue}
    (h : e.binding? = some binding) : e.constantName? = some binding.1 := by
  cases e <;> cases h
  rfl

end Effect

/-- The effects of the registrations that do not fail. -/
def Registration.effects (beginnings : List String) (registrations : List Registration) :
    List Effect :=
  registrations.filterMap fun r => (r.effect beginnings).toOption

/-- What the effects show is what the registrations show, if none of them fails. -/
theorem Registration.filterMap_effects {α : Type} {beginnings : List String}
    {registrations : List Registration} {f : Effect → Option α} {g : Registration → Option α}
    (h : ∀ r ∈ registrations, ∃ e, r.effect beginnings = .ok e)
    (hfg : ∀ r e, r.effect beginnings = .ok e → f e = g r) :
    (effects beginnings registrations).filterMap f = registrations.filterMap g := by
  rw [effects, List.filterMap_filterMap]
  refine List.filterMap_congr fun r hr => ?_
  obtain ⟨e, he⟩ := h r hr
  rw [he, ← hfg r e he]
  rfl

namespace Builder

variable {b b' : Builder} {beginnings : List String} {registrations : List Registration}

/-- A list can be registered if each registration can, and then leaves all their effects. -/
theorem registerAll_eq_ok_iff :
    b.registerAll registrations = .ok b' ↔
      (∀ r ∈ registrations, ∃ e, r.effect b.boxedBeginnings = .ok e) ∧
        b' = (Registration.effects b.boxedBeginnings registrations).foldl apply b := by
  induction registrations generalizing b with
  | nil =>
    simp only [registerAll, Registration.effects, List.filterMap_nil, List.foldl_nil,
      Except.ok.injEq]
    exact ⟨fun h => ⟨fun r hr => absurd hr List.not_mem_nil, h.symm⟩, fun h => h.2.symm⟩
  | cons r rest ih =>
    rw [registerAll, register_eq, List.forall_mem_cons]
    cases he : r.effect b.boxedBeginnings with
    | error failure => simp [Except.map, Except.bind]
    | ok e =>
      have hfirst : Registration.effects b.boxedBeginnings (r :: rest) =
          e :: Registration.effects b.boxedBeginnings rest := by
        rw [Registration.effects, List.filterMap_cons, he]
        rfl
      rw [hfirst, List.foldl_cons]
      simpa [Except.map, Except.bind] using ih (b := b.apply e)

/-- Each part of a builder takes up the effects that are about it. -/
theorem foldl_apply (b : Builder) (effects : List Effect) :
    effects.foldl apply b =
      { boxedBeginnings := b.boxedBeginnings
        types := (effects.filterMap Effect.entry?).foldl (fun t p => t.insert p.1 p.2) b.types
        constants :=
          (effects.filterMap Effect.binding?).foldl (fun t p => t.insert p.1 p.2) b.constants
        pending := b.pending ++ effects.filterMap Effect.waiting? } := by
  induction effects generalizing b with
  | nil => simp
  | cons e rest ih =>
    rw [List.foldl_cons, ih]
    cases e with
    | store name type => rfl
    | await name definition =>
      simp only [apply, List.append_assoc, List.singleton_append]
      rfl
    | constant name value => rfl

section New

variable {effects : List Effect}

theorem entries_types_foldl_apply (h : (effects.filterMap Effect.typeName?).Nodup) :
    (effects.foldl apply (new beginnings)).types.entries = effects.filterMap Effect.entry? := by
  rw [foldl_apply]
  exact Table.entries_ofList (nodup_map_filterMap h fun e entry => Effect.typeName?_of_entry?)

theorem entries_constants_foldl_apply (h : (effects.filterMap Effect.constantName?).Nodup) :
    (effects.foldl apply (new beginnings)).constants.entries =
      effects.filterMap Effect.binding? := by
  rw [foldl_apply]
  exact Table.entries_ofList
    (nodup_map_filterMap h fun e binding => Effect.constantName?_of_binding?)

theorem pending_foldl_apply :
    (effects.foldl apply (new beginnings)).pending = effects.filterMap Effect.waiting? := by
  rw [foldl_apply]
  exact List.nil_append _

end New

theorem Tidy.foldl_apply (h : b.Tidy) {effects : List Effect}
    (hnodup : (effects.filterMap Effect.typeName?).Nodup)
    (hfree : ∀ e ∈ effects, ∀ name, e.typeName? = some name → b.Free name) :
    (effects.foldl Builder.apply b).Tidy := by
  induction effects generalizing b with
  | nil => exact h
  | cons e rest ih =>
    obtain ⟨hne, hnodup⟩ := nodup_filterMap_cons_iff.mp hnodup
    obtain ⟨hfirst, hrest⟩ := List.forall_mem_cons.mp hfree
    refine ih (h.apply hfirst) hnodup ?_
    intro e' he' name hname
    exact (hrest e' he' name hname).apply (hne e' he' name hname)

end Builder

theorem Schema.ofRegistrations_of_forall {beginnings : List String}
    {registrations : List Registration}
    (h : ∀ r ∈ registrations, ∃ e, r.effect beginnings = .ok e) :
    Schema.ofRegistrations beginnings registrations =
      ((Registration.effects beginnings registrations).foldl Builder.apply
        (Builder.new beginnings)).build.2 := by
  rw [Schema.ofRegistrations, Builder.registerAll_eq_ok_iff.mpr ⟨h, rfl⟩]
  rfl

theorem Schema.forall_of_ofRegistrations {beginnings : List String}
    {registrations : List Registration} {schema : Schema}
    (h : Schema.ofRegistrations beginnings registrations = .ok schema) :
    ∀ r ∈ registrations, ∃ e, r.effect beginnings = .ok e := by
  obtain ⟨b, hb, -⟩ := bind_eq_ok_iff.mp h
  exact (Builder.registerAll_eq_ok_iff.mp hb).1

/-! ## Permutations -/

/-- Permuted effects leave builders in which nothing is different but the order. -/
theorem ahead_of_perm {beginnings : List String} {effects effects' : List Effect}
    (h : effects.Perm effects') (htypes : (effects.filterMap Effect.typeName?).Nodup)
    (hconstants : (effects.filterMap Effect.constantName?).Nodup) :
    Ahead (effects.foldl Builder.apply (Builder.new beginnings))
      (effects'.foldl Builder.apply (Builder.new beginnings)) := by
  have htypes' := (h.filterMap Effect.typeName?).nodup_iff.mp htypes
  have hconstants' := (h.filterMap Effect.constantName?).nodup_iff.mp hconstants
  have htidy := (Builder.tidy_new beginnings).foldl_apply htypes fun _ _ name _ =>
    Builder.free_new beginnings name
  have htidy' := (Builder.tidy_new beginnings).foldl_apply htypes' fun _ _ name _ =>
    Builder.free_new beginnings name
  have hsame : ∀ name,
      (effects.foldl Builder.apply (Builder.new beginnings)).types.get? name =
        (effects'.foldl Builder.apply (Builder.new beginnings)).types.get? name := by
    refine Table.get?_eq_of_perm ?_
    rw [Builder.entries_types_foldl_apply htypes, Builder.entries_types_foldl_apply htypes']
    exact h.filterMap Effect.entry?
  have hpending : (effects.foldl Builder.apply (Builder.new beginnings)).pending.Perm
      (effects'.foldl Builder.apply (Builder.new beginnings)).pending := by
    rw [Builder.pending_foldl_apply, Builder.pending_foldl_apply]
    exact h.filterMap Effect.waiting?
  refine
    { beginnings := by rw [Builder.foldl_apply, Builder.foldl_apply]
      constants := Table.get?_eq_of_perm ?_
      tidy := htidy'
      nodup := htidy.nodup
      pending := hpending.subset
      types := fun name _ => hsame name
      vacant := fun q hq => htidy.vacant q (hpending.mem_iff.mpr hq)
      done := fun q hq hq' => absurd (hpending.mem_iff.mpr hq) hq' }
  rw [Builder.entries_constants_foldl_apply hconstants,
    Builder.entries_constants_foldl_apply hconstants']
  exact h.filterMap Effect.binding?

/-- Any order of registrations under distinct names defines the same schema. -/
theorem registration_order_irrelevant (beginnings : List String)
    {registrations registrations' : List Registration} (h : registrations.Perm registrations')
    (htypes : (registrations.filterMap Registration.typeName?).Nodup)
    (hconstants : (registrations.filterMap Registration.constantName?).Nodup) :
    SameOutcome (Schema.ofRegistrations beginnings registrations)
      (Schema.ofRegistrations beginnings registrations') := by
  have hadmits : (∀ r ∈ registrations, ∃ e, r.effect beginnings = .ok e) ↔
      ∀ r ∈ registrations', ∃ e, r.effect beginnings = .ok e :=
    ⟨fun hall r hr => hall r (h.mem_iff.mpr hr), fun hall r hr => hall r (h.mem_iff.mp hr)⟩
  by_cases hall : ∀ r ∈ registrations, ∃ e, r.effect beginnings = .ok e
  · rw [Schema.ofRegistrations_of_forall hall,
      Schema.ofRegistrations_of_forall (hadmits.mp hall)]
    refine (ahead_of_perm (h.filterMap _) ?_ ?_).sameOutcome
    · rwa [← Registration.filterMap_effects hall fun r e he => (Effect.names_eq he).1] at htypes
    · rwa [← Registration.filterMap_effects hall fun r e he => (Effect.names_eq he).2] at hconstants
  · refine .of_forall_ne (fun schema hschema => ?_) fun schema hschema => ?_
    · exact hall (Schema.forall_of_ofRegistrations hschema)
    · exact hall (hadmits.mpr (Schema.forall_of_ofRegistrations hschema))

/-- A union before the alias of the enum that it switches on, and one that needs no other
type. -/
def paletteRegistrations : List Registration :=
  [.union "Paint" (some
     { switchOn := .reference "Hue"
       switchName := "hue"
       switches := [(.label "RED", .named "shade"), (.label "GREEN", .empty)]
       arms := Table.ofList [("shade", .reference "Shade")]
       defaultArm := none }),
   .typeAlias "Hue" (.reference "Color"),
   .constant "DEPTH" (.number 8),
   .union "Shade" (some
     { switchOn := .int
       switchName := "level"
       switches := [(.number (-1), .empty)]
       arms := .empty
       defaultArm := some .void }),
   .struct "Pixel" [("paint", .reference "Paint"), ("bits", .bytes (.constant "DEPTH"))],
   .enum "Color" (Table.ofList [("RED", 0), ("GREEN", 1)])]

theorem registration_order_irrelevant_palette :
    (∃ schema, Schema.ofRegistrations defaultBoxedBeginnings paletteRegistrations = .ok schema) ∧
      SameOutcome (Schema.ofRegistrations defaultBoxedBeginnings paletteRegistrations)
        (Schema.ofRegistrations defaultBoxedBeginnings paletteRegistrations.reverse) := by
  refine ⟨exists_eq_ok_of_toBool (by decide +kernel), ?_⟩
  have hperm := (List.reverse_perm paletteRegistrations).symm
  exact registration_order_irrelevant defaultBoxedBeginnings hperm (by decide) (by decide)

end XdrCompiler
