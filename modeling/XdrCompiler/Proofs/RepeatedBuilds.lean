/-
# XdrCompiler.Proofs.RepeatedBuilds -- building in between does no harm

A builder can be asked for its schema more than once, and at any time: between
registrations, and before everything that a union switches on is there. Such a
build may succeed, and then the unions so far do not wait any more. It may also
fail at some union, and then the unions before it are in the table and still
wait. Neither makes a difference to the schema in the end, as long as no type
name is registered twice (`extra_builds_harmless`): after each call, the builder
is ahead of one that was spared the builds, and by nothing but unions compiled
the only way they can be.
-/
import XdrCompiler.Proofs.Building

namespace XdrCompiler

/-! ## Calls -/

/-- One use of a builder. -/
inductive Call
  | register (registration : Registration)
  | build

/-- The registrations among some calls. -/
def Call.registrations (calls : List Call) : List Registration :=
  calls.filterMap fun
    | register r => some r
    | build => none

namespace Builder

/-- The builder after a call. It stays as it is if a registration fails. -/
def perform (b : Builder) : Call → Builder
  | .register r =>
    match b.register r with
    | .ok b' => b'
    | .error _ => b
  | .build => b.build.1

def performAll (b : Builder) (calls : List Call) : Builder := calls.foldl perform b

theorem perform_register_of_ok {b : Builder} {r : Registration} {e : Effect}
    (h : r.effect b.boxedBeginnings = .ok e) : b.perform (.register r) = b.apply e := by
  rw [perform, register_eq, h]
  rfl

theorem perform_register_of_error {b : Builder} {r : Registration} {failure : Failure}
    (h : r.effect b.boxedBeginnings = .error failure) : b.perform (.register r) = b := by
  rw [perform, register_eq, h]
  rfl

theorem Free.perform_register {b : Builder} {name : String} (h : b.Free name) {r : Registration}
    (hname : r.typeName? ≠ some name) : (b.perform (.register r)).Free name := by
  cases he : r.effect b.boxedBeginnings with
  | error failure => rwa [perform_register_of_error he]
  | ok e =>
    rw [perform_register_of_ok he]
    exact h.apply (by rwa [(Effect.names_eq he).1])

end Builder

/-! ## Runs with and without builds -/

namespace Ahead

variable {m p : Builder}

theorem perform_register (h : Ahead m p) {r : Registration}
    (hfree : ∀ name, r.typeName? = some name → p.Free name) :
    Ahead (m.perform (.register r)) (p.perform (.register r)) := by
  cases he : r.effect p.boxedBeginnings with
  | error failure =>
    rwa [Builder.perform_register_of_error he,
      Builder.perform_register_of_error (h.beginnings ▸ he)]
  | ok e =>
    rw [Builder.perform_register_of_ok he, Builder.perform_register_of_ok (h.beginnings ▸ he)]
    refine h.apply fun name hname => hfree name ?_
    rwa [← (Effect.names_eq he).1]

/-- One builder carries out all calls, and the other one the registrations only. -/
theorem performAll (h : Ahead m p) {calls : List Call}
    (hnodup : ((Call.registrations calls).filterMap Registration.typeName?).Nodup)
    (hfree : ∀ r ∈ Call.registrations calls, ∀ name, r.typeName? = some name → p.Free name) :
    Ahead (m.performAll calls)
      (p.performAll ((Call.registrations calls).map .register)) := by
  induction calls generalizing m p with
  | nil => exact h
  | cons call rest ih =>
    cases call with
    | build => exact ih h.build hnodup hfree
    | register r =>
      have hregistrations : Call.registrations (.register r :: rest) =
          r :: Call.registrations rest := rfl
      rw [hregistrations] at hnodup hfree ⊢
      obtain ⟨hne, hnodup⟩ := nodup_filterMap_cons_iff.mp hnodup
      obtain ⟨hfirst, hrest⟩ := List.forall_mem_cons.mp hfree
      -- The name of `r` is free now, and those of the later registrations stay free.
      refine ih (h.perform_register hfirst) hnodup ?_
      intro r' hr' name hname
      exact (hrest r' hr' name hname).perform_register (hne r' hr' name hname)

end Ahead

/-- Builds between registrations under distinct names change nothing about the last build. -/
theorem extra_builds_harmless (beginnings : List String) {calls : List Call}
    (hnames : ((Call.registrations calls).filterMap Registration.typeName?).Nodup) :
    SameOutcome ((Builder.new beginnings).performAll calls).build.2
      ((Builder.new beginnings).performAll
        ((Call.registrations calls).map .register)).build.2 := by
  have hstart := (Builder.tidy_new beginnings).ahead
  have hrun := hstart.performAll hnames fun _ _ name _ => Builder.free_new beginnings name
  exact hrun.sameOutcome

/-- The first build fails at the second union, the second one succeeds, and a union comes
after it. -/
def paintCalls : List Call :=
  [.register (.union "Shade" (some
     { switchOn := .int
       switchName := "level"
       switches := [(.number (-1), .empty)]
       arms := .empty
       defaultArm := some .void })),
   .register (.union "Paint" (some
     { switchOn := .reference "Hue"
       switchName := "hue"
       switches := [(.label "RED", .named "shade"), (.label "GREEN", .empty)]
       arms := Table.ofList [("shade", .reference "Shade")]
       defaultArm := none })),
   .build,
   .register (.enum "Color" (Table.ofList [("RED", 0), ("GREEN", 1)])),
   .register (.typeAlias "Hue" (.reference "Color")),
   .build,
   .register (.constant "DEPTH" (.number 8)),
   .register (.union "Coat" (some
     { switchOn := .bool
       switchName := "glossy"
       switches := [(.truth true, .named "paint")]
       arms := Table.ofList [("paint", .reference "Paint")]
       defaultArm := none }))]

theorem extra_builds_harmless_paint :
    ((Builder.new defaultBoxedBeginnings).performAll (paintCalls.take 2)).build.2.toBool = false ∧
      ((Builder.new defaultBoxedBeginnings).performAll (paintCalls.take 5)).build.2.toBool =
        true ∧
      ((Builder.new defaultBoxedBeginnings).performAll paintCalls).build.2.toBool = true ∧
      SameOutcome ((Builder.new defaultBoxedBeginnings).performAll paintCalls).build.2
        ((Builder.new defaultBoxedBeginnings).performAll
          ((Call.registrations paintCalls).map .register)).build.2 := by
  refine ⟨by decide +kernel, by decide +kernel, by decide +kernel, ?_⟩
  exact extra_builds_harmless defaultBoxedBeginnings (by decide)

end XdrCompiler
