/-
# XdrCompiler.Proofs.UnionChecks -- when a union is refused, and why

A union is checked in a fixed order: its discriminant, its default arm, its
switches from the first to the last, and the name of its default variant. Each
switch has three checks of its own. The first check that fails decides the error,
so that the faults of later switches do not matter, whatever they are.

The main statement, `union_refused_exactly`, says both halves of it. A union is
accepted exactly if nothing is wrong with it (`Acceptable`), and it is refused with
an error exactly if that is the error of the first fault (`FirstFault`). Arms that
no switch selects have no part in either.
-/
import XdrCompiler.Proofs.Compiled

namespace XdrCompiler

/-! ## One switch -/

namespace XdrType

variable {t : XdrType}

theorem defined?_eq_none_iff : t.defined? = none ↔ t = .raw .missing := by
  unfold defined?
  split <;> simp_all

theorem defined?_eq_some_iff {payload : XdrType} :
    t.defined? = some payload ↔ t = payload ∧ payload ≠ .raw .missing := by
  constructor
  · intro h
    obtain rfl := eq_of_defined?_eq_some h
    refine ⟨rfl, ?_⟩
    rintro rfl
    cases h
  · rintro ⟨rfl, hne⟩
    obtain ⟨payload, hpayload⟩ := Option.ne_none_iff_exists'.mp (defined?_eq_none_iff.not.mpr hne)
    rw [hpayload, eq_of_defined?_eq_some hpayload]

end XdrType

namespace UnionDefinition

/-- The arm selects a payload, and there is none. An arm that is there without a definition
counts as none. -/
def Lacks (d : UnionDefinition) : Arm → Prop
  | .empty => False
  | .named key => d.arms.get? key = none ∨ d.arms.get? key = some (.raw .missing)
  | .foreign => True

/-- The arm selects nothing, or a payload that is there and has a Rust type. -/
def ArmSound (d : UnionDefinition) : Arm → Prop
  | .empty => True
  | .named key => ∃ payload, d.arms.get? key = some payload ∧ payload ≠ .raw .missing ∧
      payload.Renders
  | .foreign => False

theorem payload?_eq_none_iff {d : UnionDefinition} {key : String} :
    d.payload? key = none ↔ d.Lacks (.named key) := by
  show _ ↔ _ ∨ _
  unfold payload?
  cases d.arms.get? key with
  | none => simp
  | some entry => simp [XdrType.defined?_eq_none_iff]

theorem payload?_eq_some_iff {d : UnionDefinition} {key : String} {payload : XdrType} :
    d.payload? key = some payload ↔ d.arms.get? key = some payload ∧ payload ≠ .raw .missing := by
  unfold payload?
  cases d.arms.get? key with
  | none => simp
  | some entry => simp [XdrType.defined?_eq_some_iff]

end UnionDefinition

/-- What is wrong with a switch behind switches whose variants have the names `taken`: the first
of its three checks that fails. -/
inductive SwitchFault (unionName : String) (d : UnionDefinition) (taken : List String) :
    SwitchValue × Arm → Failure → Prop
  | repeated {value : SwitchValue} {arm : Arm} : value.ident ∈ taken →
      SwitchFault unionName d taken (value, arm) (.schema (.repeatedCase unionName value.ident))
  | missing {value : SwitchValue} {arm : Arm} : value.ident ∉ taken → d.Lacks arm →
      SwitchFault unionName d taken (value, arm) (.schema (.missingArm unionName value.ident))
  | payload {value : SwitchValue} {key : String} {payload : XdrType} {failure : Failure} :
      value.ident ∉ taken → d.arms.get? key = some payload → payload ≠ .raw .missing →
      payload.toRust = .error failure →
      SwitchFault unionName d taken (value, .named key) failure

section Switches

variable {beginnings taken : List String} {unionName : String} {d : UnionDefinition}
  {value : SwitchValue} {arm : Arm} {failure : Failure}

theorem Variant.exists_compile_iff (beginnings : List String) (unionName : String)
    (value : SwitchValue) :
    (∃ c, Variant.compile beginnings unionName d value arm = .ok c) ↔ d.ArmSound arm := by
  unfold Variant.compile
  cases arm with
  | empty => exact ⟨fun _ => trivial, fun _ => ⟨_, rfl⟩⟩
  | foreign =>
    constructor
    · rintro ⟨c, hc⟩
      cases hc
    · exact False.elim
  | named key =>
    show _ ↔ ∃ payload, _
    simp only [← and_assoc, ← UnionDefinition.payload?_eq_some_iff]
    cases d.payload? key with
    | none => simp
    | some payload =>
      simp only [map_eq_ok_iff, Option.some_inj, exists_eq_left',
        ← payload.exists_toMember_iff unionName]
      constructor
      · rintro ⟨c, type, htype, -⟩
        exact ⟨type, htype⟩
      · rintro ⟨type, htype⟩
        exact ⟨_, type, htype, rfl⟩

/-- A switch with a name of its own is refused for its arm. -/
theorem Variant.compile_eq_error_iff (hvalue : value.ident ∉ taken) :
    Variant.compile beginnings unionName d value arm = .error failure ↔
      SwitchFault unionName d taken (value, arm) failure := by
  unfold Variant.compile
  constructor
  · intro h
    cases arm with
    | empty => cases h
    | foreign =>
      cases h
      exact .missing hvalue trivial
    | named key =>
      cases hpayload : d.payload? key with
      | none =>
        simp only [hpayload] at h
        cases h
        exact .missing hvalue (UnionDefinition.payload?_eq_none_iff.mp hpayload)
      | some payload =>
        simp only [hpayload, map_eq_error_iff] at h
        obtain ⟨hget, hdefined⟩ := UnionDefinition.payload?_eq_some_iff.mp hpayload
        exact .payload hvalue hget hdefined (XdrType.toMember_eq_error_iff.mp h)
  · intro h
    cases h with
    | repeated htaken => exact absurd htaken hvalue
    | missing _ hlacks =>
      cases arm with
      | empty => exact hlacks.elim
      | foreign => rfl
      | named key => simp only [UnionDefinition.payload?_eq_none_iff.mpr hlacks]
    | payload _ hget hdefined hfails =>
      simp only [UnionDefinition.payload?_eq_some_iff.mpr ⟨hget, hdefined⟩]
      exact map_eq_error_iff.mpr (XdrType.toMember_eq_error_iff.mpr hfails)

/-- The faults of a switch depend on the names before it and not on their order. -/
theorem SwitchFault.congr {taken' : List String} {s : SwitchValue × Arm}
    (h : ∀ ident, ident ∈ taken ↔ ident ∈ taken') (hs : SwitchFault unionName d taken s failure) :
    SwitchFault unionName d taken' s failure := by
  cases hs with
  | repeated htaken => exact .repeated ((h _).mp htaken)
  | missing hvalue hlacks => exact .missing ((h _).not.mp hvalue) hlacks
  | payload hvalue hget hdefined hfails =>
    exact .payload ((h _).not.mp hvalue) hget hdefined hfails

/-! ## All switches -/

/-- Nothing is wrong with the switches, which come behind ones with the names `taken`. -/
structure SwitchesPass (d : UnionDefinition) (taken : List String)
    (switches : List (SwitchValue × Arm)) : Prop where
  nodup : (switches.map fun s => s.1.ident).Nodup
  free : ∀ s ∈ switches, s.1.ident ∉ taken
  arms : ∀ s ∈ switches, d.ArmSound s.2

theorem SwitchesPass.nil (d : UnionDefinition) (taken : List String) : SwitchesPass d taken [] where
  nodup := List.nodup_nil
  free _ hs := absurd hs List.not_mem_nil
  arms _ hs := absurd hs List.not_mem_nil

theorem switchesPass_cons_iff {rest : List (SwitchValue × Arm)} :
    SwitchesPass d taken ((value, arm) :: rest) ↔
      value.ident ∉ taken ∧ d.ArmSound arm ∧ SwitchesPass d (value.ident :: taken) rest := by
  constructor
  · rintro ⟨hnodup, hfree, harms⟩
    obtain ⟨hvalue, hnodup⟩ := List.nodup_cons.mp hnodup
    obtain ⟨hfirst, hfree⟩ := List.forall_mem_cons.mp hfree
    obtain ⟨harm, harms⟩ := List.forall_mem_cons.mp harms
    refine ⟨hfirst, harm, hnodup, ?_, harms⟩
    intro s hs hmem
    rcases List.mem_cons.mp hmem with hsame | hmem
    · exact hvalue (List.mem_map.mpr ⟨s, hs, hsame⟩)
    · exact hfree s hs hmem
  · rintro ⟨hfirst, harm, hnodup, hfree, harms⟩
    refine ⟨List.nodup_cons.mpr ⟨?_, hnodup⟩, List.forall_mem_cons.mpr ⟨hfirst, ?_⟩,
      List.forall_mem_cons.mpr ⟨harm, harms⟩⟩
    · intro hmem
      obtain ⟨s, hs, hsame⟩ := List.mem_map.mp hmem
      exact hfree s hs (hsame ▸ List.mem_cons_self)
    · exact fun s hs hmem => hfree s hs (List.mem_cons_of_mem _ hmem)

/-- One switch with a name of its own, and then the others. -/
theorem Variant.compileAll_cons (hvalue : value.ident ∉ taken)
    (rest : List (SwitchValue × Arm)) :
    Variant.compileAll beginnings unionName d taken ((value, arm) :: rest) =
      (Variant.compile beginnings unionName d value arm).bind fun first =>
        (Variant.compileAll beginnings unionName d (value.ident :: taken) rest).map
          (first :: ·) := by
  rw [Variant.compileAll, if_neg hvalue]
  rfl

theorem Variant.exists_compileAll_iff (beginnings : List String) (unionName : String)
    {switches : List (SwitchValue × Arm)} :
    (∃ compiled, Variant.compileAll beginnings unionName d taken switches = .ok compiled) ↔
      SwitchesPass d taken switches := by
  induction switches generalizing taken with
  | nil => exact ⟨fun _ => .nil d taken, fun _ => ⟨[], rfl⟩⟩
  | cons first rest ih =>
    obtain ⟨value, arm⟩ := first
    rw [switchesPass_cons_iff]
    by_cases hvalue : value.ident ∈ taken
    · rw [Variant.compileAll, if_pos hvalue]
      simp [hvalue]
    · rw [Variant.compileAll_cons hvalue, ← ih,
        ← Variant.exists_compile_iff beginnings unionName value]
      constructor
      · rintro ⟨compiled, h⟩
        obtain ⟨c, hc, h⟩ := bind_eq_ok_iff.mp h
        obtain ⟨others, hothers, -⟩ := map_eq_ok_iff.mp h
        exact ⟨hvalue, ⟨c, hc⟩, others, hothers⟩
      · rintro ⟨-, ⟨c, hc⟩, others, hothers⟩
        exact ⟨_, bind_eq_ok_iff.mpr ⟨c, hc, map_eq_ok_iff.mpr ⟨others, hothers, rfl⟩⟩⟩

/-- The switches are refused for the first one with a fault. -/
theorem Variant.compileAll_eq_error_iff {switches : List (SwitchValue × Arm)} :
    Variant.compileAll beginnings unionName d taken switches = .error failure ↔
      ∃ before s after, switches = before ++ s :: after ∧ SwitchesPass d taken before ∧
        SwitchFault unionName d ((before.map fun s => s.1.ident) ++ taken) s failure := by
  -- What the switches before have taken is at the front in one list and at the end in the other.
  have hmoved : ∀ (first : String) (idents taken : List String) (ident : String),
      ident ∈ idents ++ first :: taken ↔ ident ∈ first :: idents ++ taken := by
    intro first idents taken ident
    simp [or_left_comm]
  induction switches generalizing taken with
  | nil => simp [Variant.compileAll]
  | cons first rest ih =>
    obtain ⟨value, arm⟩ := first
    constructor
    · intro h
      by_cases hvalue : value.ident ∈ taken
      · rw [Variant.compileAll, if_pos hvalue] at h
        cases h
        exact ⟨[], (value, arm), rest, rfl, .nil d taken, .repeated hvalue⟩
      · rw [Variant.compileAll_cons hvalue] at h
        rcases bind_eq_error_iff.mp h with hfirst | ⟨c, hc, h⟩
        · exact ⟨[], (value, arm), rest, rfl, .nil d taken,
            (Variant.compile_eq_error_iff hvalue).mp hfirst⟩
        · obtain ⟨before, s, after, rfl, hbefore, hs⟩ := ih.mp (map_eq_error_iff.mp h)
          refine ⟨(value, arm) :: before, s, after, rfl, ?_, hs.congr (hmoved _ _ _)⟩
          exact switchesPass_cons_iff.mpr ⟨hvalue, (Variant.exists_compile_iff _ _ _).mp ⟨c, hc⟩,
            hbefore⟩
    · rintro ⟨before, s, after, hswitches, hbefore, hs⟩
      cases before with
      | nil =>
        obtain ⟨rfl, rfl⟩ := List.cons_eq_cons.mp hswitches
        by_cases hvalue : value.ident ∈ taken
        · rw [Variant.compileAll, if_pos hvalue]
          cases hs with
          | repeated _ => rfl
          | missing hfree _ => exact absurd hvalue hfree
          | payload hfree _ _ _ => exact absurd hvalue hfree
        · rw [Variant.compileAll_cons hvalue]
          exact bind_eq_error_iff.mpr (Or.inl ((Variant.compile_eq_error_iff hvalue).mpr hs))
      | cons first' before =>
        obtain ⟨rfl, rfl⟩ := List.cons_eq_cons.mp hswitches
        obtain ⟨hvalue, harm, hbefore⟩ := switchesPass_cons_iff.mp hbefore
        obtain ⟨c, hc⟩ := (Variant.exists_compile_iff beginnings unionName value).mpr harm
        rw [Variant.compileAll_cons hvalue]
        refine bind_eq_error_iff.mpr (Or.inr ⟨c, hc, map_eq_error_iff.mpr (ih.mpr ?_)⟩)
        exact ⟨before, s, after, rfl, hbefore, hs.congr fun ident => (hmoved _ _ _ ident).symm⟩

end Switches

/-! ## The whole union -/

/-- A default variant is there when the definition asks for it, or when the switches cannot be
all values of the discriminant. -/
def UnionDefinition.WantsDefault (d : UnionDefinition) (resolved : XdrType) : Prop :=
  d.defaultArm ≠ none ∨ resolved.isExhaustedBy d.switches.length = false

/-- There is no default arm, or it carries nothing. -/
def UnionDefinition.DefaultSound (d : UnionDefinition) : Prop :=
  d.defaultArm = none ∨ d.defaultArm = some .void

/-- Nothing is wrong with the union. -/
structure Acceptable (d : UnionDefinition) (resolved : XdrType) : Prop where
  discriminant : d.switchOn.Renders
  defaultArm : d.DefaultSound
  idents : (d.switches.map fun s => s.1.ident).Nodup
  arms : ∀ s ∈ d.switches, d.ArmSound s.2
  default : d.WantsDefault resolved → ∀ s ∈ d.switches, s.1.ident ≠ "Default"

/-- The error of the first check that fails, with all checks before it passed. -/
inductive FirstFault (name : String) (d : UnionDefinition) (resolved : XdrType) : Failure → Prop
  | discriminant {failure : Failure} : d.switchOn.toRust = .error failure →
      FirstFault name d resolved failure
  | defaultArm : d.switchOn.Renders → ¬d.DefaultSound →
      FirstFault name d resolved (.schema (.defaultWithPayload name))
  | switch {before after : List (SwitchValue × Arm)} {s : SwitchValue × Arm} {failure : Failure} :
      d.switchOn.Renders → d.DefaultSound → d.switches = before ++ s :: after →
      SwitchesPass d [] before → SwitchFault name d (before.map fun s => s.1.ident) s failure →
      FirstFault name d resolved failure
  | default : d.switchOn.Renders → d.DefaultSound → SwitchesPass d [] d.switches →
      d.WantsDefault resolved → (∃ s ∈ d.switches, s.1.ident = "Default") →
      FirstFault name d resolved (.schema (.defaultTaken name))

section Union

variable {beginnings : List String} {name : String} {d : UnionDefinition} {resolved : XdrType}
  {failure : Failure}

theorem UnionDefinition.defaultHasPayload_eq_false_iff :
    d.defaultHasPayload = false ↔ d.DefaultSound := by
  unfold UnionDefinition.defaultHasPayload UnionDefinition.DefaultSound
  cases d.defaultArm with
  | none => simp
  | some t => simp

theorem UnionDefinition.needsDefault_iff :
    d.needsDefault resolved = true ↔ d.WantsDefault resolved := by
  simp [UnionDefinition.needsDefault, UnionDefinition.WantsDefault, Option.isSome_iff_ne_none]

/-- A switch has the name that the default variant needs exactly if a compiled variant has. -/
theorem Variant.exists_ident_iff {switches : List (SwitchValue × Arm)} {taken : List String}
    {compiled : List (Variant × NameSet)} {ident : String}
    (h : Variant.compileAll beginnings name d taken switches = .ok compiled) :
    (∃ v ∈ compiled.map Prod.fst, v.ident = ident) ↔ ∃ s ∈ switches, s.1.ident = ident := by
  obtain ⟨hall, -, -⟩ := Variant.compileAll_eq_ok_iff.mp h
  have hidents : compiled.map (fun c => c.1.ident) = switches.map fun s => s.1.ident :=
    map_eq_map_of_forall₂ hall fun s c hc => (Variant.of_compile hc).1
  rw [← List.mem_map (f := Variant.ident), List.map_map,
    ← List.mem_map (f := fun s : SwitchValue × Arm => s.1.ident), ← hidents]
  rfl

theorem UnionDecl.exists_compile_iff :
    (∃ u, UnionDecl.compile beginnings name d resolved = .ok u) ↔ Acceptable d resolved := by
  simp only [UnionDecl.compile_eq_ok_iff]
  constructor
  · rintro ⟨u, discriminant, compiled, hdiscriminant, hpayload, hcompiled, hdefault, -⟩
    have hpass := (Variant.exists_compileAll_iff _ _).mp ⟨compiled, hcompiled⟩
    refine ⟨⟨discriminant, hdiscriminant⟩,
      UnionDefinition.defaultHasPayload_eq_false_iff.mp hpayload, hpass.nodup, hpass.arms, ?_⟩
    intro hwants s hs hsame
    obtain ⟨v, hv, hident⟩ := (Variant.exists_ident_iff hcompiled).mpr ⟨s, hs, hsame⟩
    exact hdefault (UnionDefinition.needsDefault_iff.mpr hwants) v hv hident
  · rintro ⟨⟨discriminant, hdiscriminant⟩, hdefaultArm, hidents, harms, hdefault⟩
    have hpass : SwitchesPass d [] d.switches := ⟨hidents, fun _ _ => List.not_mem_nil, harms⟩
    obtain ⟨compiled, hcompiled⟩ := (Variant.exists_compileAll_iff beginnings name).mpr hpass
    refine ⟨_, discriminant, compiled, hdiscriminant,
      UnionDefinition.defaultHasPayload_eq_false_iff.mpr hdefaultArm, hcompiled, ?_, rfl⟩
    intro hneeds v hv hident
    obtain ⟨s, hs, hsame⟩ := (Variant.exists_ident_iff hcompiled).mp ⟨v, hv, hident⟩
    exact hdefault (UnionDefinition.needsDefault_iff.mp hneeds) s hs hsame

/-- Behind the switches, the name of the default variant is the only thing that can be wrong. -/
theorem UnionDecl.defaultTaken_iff {compiled : List (Variant × NameSet)}
    (h : Variant.compileAll beginnings name d [] d.switches = .ok compiled) :
    (d.needsDefault resolved && (compiled.map Prod.fst).any (·.ident == "Default")) = true ↔
      d.WantsDefault resolved ∧ ∃ s ∈ d.switches, s.1.ident = "Default" := by
  rw [Bool.and_eq_true, UnionDefinition.needsDefault_iff, List.any_eq_true,
    ← Variant.exists_ident_iff h]
  simp only [beq_iff_eq]

theorem UnionDecl.firstFault_of_compile
    (h : UnionDecl.compile beginnings name d resolved = .error failure) :
    FirstFault name d resolved failure := by
  rw [UnionDecl.compile_eq] at h
  rcases bind_eq_error_iff.mp h with hdiscriminant | ⟨discriminant, hdiscriminant, h⟩
  · exact .discriminant hdiscriminant
  have hrenders : d.switchOn.Renders := ⟨discriminant, hdiscriminant⟩
  by_cases hpayload : d.defaultHasPayload = true
  · rw [if_pos hpayload] at h
    cases h
    refine .defaultArm hrenders ?_
    rw [← UnionDefinition.defaultHasPayload_eq_false_iff, hpayload]
    simp
  · rw [if_neg hpayload] at h
    have hsound : d.DefaultSound :=
      UnionDefinition.defaultHasPayload_eq_false_iff.mp (by simpa using hpayload)
    rcases bind_eq_error_iff.mp h with hswitches | ⟨compiled, hcompiled, h⟩
    · obtain ⟨before, s, after, hsplit, hbefore, hs⟩ := Variant.compileAll_eq_error_iff.mp hswitches
      rw [List.append_nil] at hs
      exact .switch hrenders hsound hsplit hbefore hs
    · have hpass := (Variant.exists_compileAll_iff _ _).mp ⟨compiled, hcompiled⟩
      split at h
      · next htaken =>
        cases h
        obtain ⟨hwants, hdefault⟩ := (UnionDecl.defaultTaken_iff hcompiled).mp htaken
        exact .default hrenders hsound hpass hwants hdefault
      · cases h

theorem FirstFault.compile (h : FirstFault name d resolved failure) (beginnings : List String) :
    UnionDecl.compile beginnings name d resolved = .error failure := by
  rw [UnionDecl.compile_eq]
  cases h with
  | discriminant hdiscriminant => exact bind_eq_error_iff.mpr (Or.inl hdiscriminant)
  | defaultArm hrenders hpayload =>
    obtain ⟨discriminant, hdiscriminant⟩ := hrenders
    rw [← UnionDefinition.defaultHasPayload_eq_false_iff, Bool.not_eq_false] at hpayload
    refine bind_eq_error_iff.mpr (Or.inr ⟨discriminant, hdiscriminant, ?_⟩)
    rw [if_pos hpayload]
  | switch hrenders hsound hsplit hbefore hs =>
    obtain ⟨discriminant, hdiscriminant⟩ := hrenders
    have hpayload := UnionDefinition.defaultHasPayload_eq_false_iff.mpr hsound
    refine bind_eq_error_iff.mpr (Or.inr ⟨discriminant, hdiscriminant, ?_⟩)
    rw [if_neg (by simp [hpayload])]
    refine bind_eq_error_iff.mpr (Or.inl (Variant.compileAll_eq_error_iff.mpr ?_))
    exact ⟨_, _, _, hsplit, hbefore, by rwa [List.append_nil]⟩
  | default hrenders hsound hpass hwants hdefault =>
    obtain ⟨discriminant, hdiscriminant⟩ := hrenders
    have hpayload := UnionDefinition.defaultHasPayload_eq_false_iff.mpr hsound
    obtain ⟨compiled, hcompiled⟩ := (Variant.exists_compileAll_iff beginnings name).mpr hpass
    refine bind_eq_error_iff.mpr (Or.inr ⟨discriminant, hdiscriminant, ?_⟩)
    rw [if_neg (by simp [hpayload])]
    refine bind_eq_error_iff.mpr (Or.inr ⟨compiled, hcompiled, ?_⟩)
    rw [if_pos ((UnionDecl.defaultTaken_iff hcompiled).mpr ⟨hwants, hdefault⟩)]

/-! ## Arms that no switch selects -/

/-- The definition with other arms. -/
def UnionDefinition.withArms (d : UnionDefinition) (arms : Table String XdrType) :
    UnionDefinition :=
  { d with arms := arms }

theorem Variant.compileAll_withArms {arms : Table String XdrType}
    (harms : ∀ key, d.Selects key → arms.get? key = d.arms.get? key) {taken : List String}
    {switches : List (SwitchValue × Arm)} (hswitches : ∀ s ∈ switches, s ∈ d.switches) :
    Variant.compileAll beginnings name (d.withArms arms) taken switches =
      Variant.compileAll beginnings name d taken switches := by
  induction switches generalizing taken with
  | nil => rfl
  | cons first rest ih =>
    obtain ⟨value, arm⟩ := first
    obtain ⟨hfirst, hrest⟩ := List.forall_mem_cons.mp hswitches
    have hcompile : Variant.compile beginnings name (d.withArms arms) value arm =
        Variant.compile beginnings name d value arm := by
      cases arm with
      | empty => rfl
      | foreign => rfl
      | named key =>
        have hpayload : (d.withArms arms).payload? key = d.payload? key := by
          show (arms.get? key).bind _ = (d.arms.get? key).bind _
          rw [harms key ⟨value, hfirst⟩]
        rw [Variant.compile, Variant.compile, hpayload]
    by_cases hvalue : value.ident ∈ taken
    · rw [Variant.compileAll, Variant.compileAll, if_pos hvalue, if_pos hvalue]
    · rw [Variant.compileAll_cons hvalue, Variant.compileAll_cons hvalue, hcompile, ih hrest]

/-- Whether and why a union is refused does not depend on the arms that no switch selects. -/
theorem UnionDecl.compile_withArms_eq_error_iff {arms : Table String XdrType}
    (harms : ∀ key, d.Selects key → arms.get? key = d.arms.get? key) :
    UnionDecl.compile beginnings name (d.withArms arms) resolved = .error failure ↔
      UnionDecl.compile beginnings name d resolved = .error failure := by
  have hcompiled : Variant.compileAll beginnings name (d.withArms arms) []
      (d.withArms arms).switches = Variant.compileAll beginnings name d [] d.switches :=
    Variant.compileAll_withArms harms fun _ hs => hs
  rw [UnionDecl.compile_eq, UnionDecl.compile_eq, hcompiled, bind_eq_error_iff, bind_eq_error_iff]
  refine or_congr_right (exists_congr fun discriminant => and_congr_right fun _ => ?_)
  show ite (d.defaultHasPayload = true) _ _ = _ ↔ _
  split
  · rfl
  · rw [bind_eq_error_iff, bind_eq_error_iff]
    refine or_congr_right (exists_congr fun compiled => and_congr_right fun _ => ?_)
    show ite ((d.needsDefault resolved && _) = true) _ _ = _ ↔ _
    split
    · rfl
    · simp

end Union

/-! ## Acceptance and refusal -/

/-- When a union is accepted, and what it is refused for otherwise. -/
structure RefusedExactly (beginnings : List String) (name : String) (d : UnionDefinition)
    (resolved : XdrType) : Prop where
  accepted : (∃ u, UnionDecl.compile beginnings name d resolved = .ok u) ↔ Acceptable d resolved
  refused : ∀ failure, UnionDecl.compile beginnings name d resolved = .error failure ↔
    FirstFault name d resolved failure
  codes : ∀ ident, (SchemaError.defaultWithPayload name).code = .invalidDefaultArm ∧
    (SchemaError.repeatedCase name ident).code = .duplicateCase ∧
    (SchemaError.missingArm name ident).code = .missingArm ∧
    (SchemaError.defaultTaken name).code = .duplicateCase
  unselected : ∀ arms : Table String XdrType,
    (∀ key, d.Selects key → arms.get? key = d.arms.get? key) →
    ∀ failure, UnionDecl.compile beginnings name (d.withArms arms) resolved = .error failure ↔
      UnionDecl.compile beginnings name d resolved = .error failure

/-- Every union is accepted, or refused for its first fault. -/
theorem union_refused_exactly (beginnings : List String) (name : String) (d : UnionDefinition)
    (resolved : XdrType) : RefusedExactly beginnings name d resolved where
  accepted := UnionDecl.exists_compile_iff
  refused _ := ⟨UnionDecl.firstFault_of_compile, fun h => h.compile beginnings⟩
  codes _ := ⟨rfl, rfl, rfl, rfl⟩
  unselected _ harms _ := UnionDecl.compile_withArms_eq_error_iff harms

/-- The second switch has no arm and the third one repeats the first: the second decides. -/
example :
    (UnionDecl.compile [] "Paint"
      { switchOn := .int
        switchName := "kind"
        switches := [(.label "v0", .empty), (.number 1, .named "shade"), (.number 0, .empty)]
        arms := Table.ofList [("hue", .void)]
        defaultArm := none }
      .int).map UnionDecl.name = .error (.schema (.missingArm "Paint" "V1")) := by
  decide +kernel

end XdrCompiler
