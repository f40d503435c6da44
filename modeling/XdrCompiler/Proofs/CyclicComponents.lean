/-
# XdrCompiler.Proofs.CyclicComponents -- the groups are the cyclic components

The groups that a schema is warned about are the strongly connected components
of the by-value graph that have a cycle. The argument has two halves. The search
from a name finds exactly what the name contains over one or more steps
(`mem_containedBy`), because its stack and its findings are a `Frontier`. Given
that, collecting groups name by name needs two facts about the names that are in
a group already: with a name they have its whole component (`Saturated`), so a
component is neither split nor collected twice; and a name that is passed over is
in none of the later groups, so the groups come in the order of their first members.
-/
import Mathlib.Data.List.Basic
import XdrCompiler.Graph.Cycles
import XdrCompiler.Proofs.Search

namespace XdrCompiler

open Relation (TransGen ReflTransGen)

/-! ## Containment over many steps -/

theorem Contains.left_mem {types : Table String XdrType} {a b : String}
    (h : Contains types a b) : a ∈ types.keys := by
  obtain ⟨-, t, ht, -⟩ := h
  by_contra hkey
  rw [Table.get?_eq_none_iff.mpr hkey] at ht
  exact absurd ht (by simp)

theorem left_mem_of_transGen_contains {types : Table String XdrType} {a b : String}
    (h : TransGen (Contains types) a b) : a ∈ types.keys := by
  obtain ⟨c, hac, -⟩ := TransGen.head'_iff.mp h
  exact hac.left_mem

theorem contains_iff {types : Table String XdrType} {a b : String} {next : List String}
    (h : (containedIn types).get? a = some next) : Contains types a b ↔ b ∈ next := by
  rw [← exists_mem_containedIn, h]
  constructor
  · rintro ⟨next', hnext, hb⟩
    rwa [Option.some_inj.mp hnext]
  · exact fun hb => ⟨next, rfl, hb⟩

/-- The search from a stack of names ends with the stack empty. -/
theorem containedFrom_frontier {types : Table String XdrType} {fresh : Table String (List String)}
    {seeds stack met : List String} (hfrontier : Frontier (Contains types) seeds stack met)
    (hrest : Remains (containedIn types) met fresh) (hkeys : ∀ n ∈ stack, n ∈ types.keys) :
    Frontier (Contains types) seeds [] (containedFrom fresh stack met) := by
  fun_induction containedFrom fresh stack met with
  | case1 => exact hfrontier
  | case2 fresh met name rest hget ih =>
    -- Every name on the stack is in the table, so a name without edges left was met before.
    have hmet : name ∈ met := by
      rcases hrest.get?_eq_none hget with hmet | hnone
      · exact hmet
      · rw [Table.get?_eq_none_iff, keys_containedIn] at hnone
        exact absurd (hkeys name List.mem_cons_self) hnone
    exact ih (hfrontier.skip hmet) hrest fun n hn => hkeys n (List.mem_cons_of_mem name hn)
  | case3 fresh met name rest next hget ih =>
    obtain ⟨-, hnext⟩ := hrest.get?_eq_some hget
    refine ih (hfrontier.expand ?_) (hrest.erase name) ?_
    · intro b
      rw [contains_iff hnext, List.mem_append, or_assoc]
    · intro n hn
      rcases List.mem_append.mp hn with hn | hn
      · exact ((contains_iff hnext).mpr hn).1
      · exact hkeys n (List.mem_cons_of_mem name hn)

/-- The names that `name` contains by value, over one or more steps. -/
def containedBy (types : Table String XdrType) (name : String) : List String :=
  ((containedNames types).get? name).getD []

theorem mem_containedBy {types : Table String XdrType} {a b : String} :
    b ∈ containedBy types a ↔ TransGen (Contains types) a b := by
  rw [containedBy, containedNames, Table.get?_map]
  cases hnext : (containedIn types).get? a with
  | none =>
    have hkey : a ∉ types.keys := by
      rwa [Table.get?_eq_none_iff, keys_containedIn] at hnext
    simp only [Option.map_none, Option.getD_none, List.not_mem_nil, false_iff]
    exact fun h => hkey (left_mem_of_transGen_contains h)
  | some next =>
    -- The search starts from the names one step away, so it finds one step or more.
    have hfrontier : Frontier (Contains types) next [] (containedFrom (containedIn types) next []) :=
      containedFrom_frontier (Frontier.start fun _ => Iff.rfl) (Remains.start _)
        fun n hn => ((contains_iff hnext).mpr hn).1
    rw [Option.map_some, Option.getD_some, hfrontier.mem_done_iff, TransGen.head'_iff]
    simp only [LedTo, contains_iff hnext]

/-! ## Collecting groups -/

section Groups

variable {reach : String → List String} {assigned names : List String}

/-- The names that contain each other with `name`. -/
def groupOf (reach : String → List String) (name : String) : List String :=
  (NameSet.ofList ((reach name).filter fun other => name ∈ reach other)).toList

theorem mem_groupOf {name a : String} :
    a ∈ groupOf reach name ↔ a ∈ reach name ∧ name ∈ reach a := by
  rw [groupOf, ← NameSet.mem_def, NameSet.mem_ofList, List.mem_filter, decide_eq_true_iff]

/-- With a name, `assigned` has every name that contains it and is contained in it. -/
def Saturated (reach : String → List String) (assigned : List String) : Prop :=
  ∀ a ∈ assigned, ∀ b, b ∈ reach a → a ∈ reach b → b ∈ assigned

theorem groupCycles_skip {name : String} (h : name ∈ assigned ∨ name ∉ reach name) :
    groupCycles reach assigned (name :: names) = groupCycles reach assigned names := by
  rw [groupCycles, if_pos h]

theorem groupCycles_take {name : String} (h : ¬(name ∈ assigned ∨ name ∉ reach name)) :
    groupCycles reach assigned (name :: names) =
      groupOf reach name :: groupCycles reach (groupOf reach name ++ assigned) names := by
  rw [groupCycles, if_neg h]
  rfl

/-- Every group is that of a name on a cycle that was not assigned before. -/
theorem exists_of_mem_groupCycles {g : List String} (hg : g ∈ groupCycles reach assigned names) :
    ∃ name, name ∈ reach name ∧ name ∉ assigned ∧ g = groupOf reach name := by
  induction names generalizing assigned with
  | nil => exact absurd hg List.not_mem_nil
  | cons name rest ih =>
    by_cases h : name ∈ assigned ∨ name ∉ reach name
    · rw [groupCycles_skip h] at hg
      exact ih hg
    · rw [groupCycles_take h] at hg
      rcases List.mem_cons.mp hg with rfl | hg
      · obtain ⟨hfree, hcycle⟩ := not_or.mp h
        exact ⟨name, not_not.mp hcycle, hfree, rfl⟩
      · obtain ⟨m, hm, hfree, rfl⟩ := ih hg
        exact ⟨m, hm, fun hmem => hfree (List.mem_append_right _ hmem), rfl⟩

/-- A name on a cycle is assigned already or gets into a group. -/
theorem exists_group_of_mem {name : String} (hname : name ∈ names) (hcycle : name ∈ reach name) :
    name ∈ assigned ∨ ∃ g ∈ groupCycles reach assigned names, name ∈ g := by
  induction names generalizing assigned with
  | nil => exact absurd hname List.not_mem_nil
  | cons m rest ih =>
    by_cases h : m ∈ assigned ∨ m ∉ reach m
    · rw [groupCycles_skip h]
      rcases List.mem_cons.mp hname with rfl | hname
      · exact Or.inl (h.resolve_right (not_not.mpr hcycle))
      · exact ih hname
    · rw [groupCycles_take h]
      by_cases hgroup : name ∈ groupOf reach m
      · exact Or.inr ⟨_, List.mem_cons_self, hgroup⟩
      · rcases List.mem_cons.mp hname with rfl | hname
        · exact absurd (mem_groupOf.mpr ⟨hcycle, hcycle⟩) hgroup
        · -- What the rest finds is assigned or in a later group, and it is not in this one.
          have hrest : name ∈ groupOf reach m ++ assigned ∨ _ := ih hname
          rcases hrest with hassigned | ⟨g, hg, hn⟩
          · exact Or.inl ((List.mem_append.mp hassigned).resolve_left hgroup)
          · exact Or.inr ⟨g, List.mem_cons_of_mem _ hg, hn⟩

/-- No group has a name that was assigned before. -/
theorem not_mem_assigned_of_mem_group (hsat : Saturated reach assigned) {g : List String}
    (hg : g ∈ groupCycles reach assigned names) {a : String} (ha : a ∈ g) : a ∉ assigned := by
  obtain ⟨name, -, hfree, rfl⟩ := exists_of_mem_groupCycles hg
  obtain ⟨hna, han⟩ := mem_groupOf.mp ha
  exact fun hassigned => hfree (hsat a hassigned name han hna)

variable (htrans : ∀ a b c, b ∈ reach a → c ∈ reach b → c ∈ reach a)
include htrans

theorem Saturated.append_groupOf (h : Saturated reach assigned) (name : String) :
    Saturated reach (groupOf reach name ++ assigned) := by
  intro a ha b hab hba
  rcases List.mem_append.mp ha with ha | ha
  · obtain ⟨hna, han⟩ := mem_groupOf.mp ha
    exact List.mem_append_left _ (mem_groupOf.mpr ⟨htrans name a b hna hab, htrans b a name hba han⟩)
  · exact List.mem_append_right _ (h a ha b hab hba)

theorem self_mem_reach_of_mem_group {g : List String}
    (hg : g ∈ groupCycles reach assigned names) {a : String} (ha : a ∈ g) : a ∈ reach a := by
  obtain ⟨name, -, -, rfl⟩ := exists_of_mem_groupCycles hg
  obtain ⟨hna, han⟩ := mem_groupOf.mp ha
  exact htrans a name a han hna

theorem pairwise_disjoint_groupCycles (hsat : Saturated reach assigned) :
    (groupCycles reach assigned names).Pairwise List.Disjoint := by
  induction names generalizing assigned with
  | nil => exact List.Pairwise.nil
  | cons name rest ih =>
    by_cases h : name ∈ assigned ∨ name ∉ reach name
    · rw [groupCycles_skip h]
      exact ih hsat
    · have hsat' := hsat.append_groupOf htrans name
      rw [groupCycles_take h, List.pairwise_cons]
      refine ⟨?_, ih hsat'⟩
      intro g hg a ha hag
      exact not_mem_assigned_of_mem_group hsat' hg hag (List.mem_append_left _ ha)

/-- The groups come in the order of the first of the names that is in them. -/
theorem pairwise_findIdx_groupCycles (hsat : Saturated reach assigned) :
    (groupCycles reach assigned names).Pairwise fun g h =>
      names.findIdx (· ∈ g) < names.findIdx (· ∈ h) := by
  induction names generalizing assigned with
  | nil => exact List.Pairwise.nil
  | cons name rest ih =>
    -- A name that is in no group does not change their order.
    have lift : ∀ groups : List (List String), (∀ g ∈ groups, name ∉ g) →
        (groups.Pairwise fun g h => rest.findIdx (· ∈ g) < rest.findIdx (· ∈ h)) →
        groups.Pairwise fun g h =>
          (name :: rest).findIdx (· ∈ g) < (name :: rest).findIdx (· ∈ h) := by
      intro groups hnot hpair
      refine hpair.imp_of_mem ?_
      intro g h hg hh hlt
      simpa [List.findIdx_cons, hnot g hg, hnot h hh] using hlt
    by_cases h : name ∈ assigned ∨ name ∉ reach name
    · rw [groupCycles_skip h]
      refine lift _ ?_ (ih hsat)
      intro g hg hname
      rcases h with hassigned | hcycle
      · exact not_mem_assigned_of_mem_group hsat hg hname hassigned
      · exact hcycle (self_mem_reach_of_mem_group htrans hg hname)
    · -- The name is the first of all in its own group, and no later group has it.
      have hsat' := hsat.append_groupOf htrans name
      have hself : name ∈ groupOf reach name :=
        mem_groupOf.mpr ⟨not_not.mp (not_or.mp h).2, not_not.mp (not_or.mp h).2⟩
      have hlater : ∀ g ∈ groupCycles reach (groupOf reach name ++ assigned) rest, name ∉ g :=
        fun g hg hname => not_mem_assigned_of_mem_group hsat' hg hname
          (List.mem_append_left _ hself)
      rw [groupCycles_take h, List.pairwise_cons]
      refine ⟨?_, lift _ hlater (ih hsat')⟩
      intro g hg
      simp [List.findIdx_cons, hself, hlater g hg]

end Groups

/-! ## The groups of a table -/

theorem unboxedCycles_eq (types : Table String XdrType) :
    unboxedCycles types = groupCycles (containedBy types) [] types.keys := rfl

theorem containedBy_trans (types : Table String XdrType) (a b c : String)
    (hab : b ∈ containedBy types a) (hbc : c ∈ containedBy types b) : c ∈ containedBy types a := by
  rw [mem_containedBy] at hab hbc ⊢
  exact hab.trans hbc

theorem saturated_nil (reach : String → List String) : Saturated reach [] :=
  fun _ ha => absurd ha List.not_mem_nil

/-- Every group is the component of one of its members. -/
theorem exists_of_mem_unboxedCycles {types : Table String XdrType} {g : List String}
    (hg : g ∈ unboxedCycles types) :
    ∃ name, name ∈ g ∧ g.Pairwise (· < ·) ∧
      ∀ a, a ∈ g ↔ TransGen (Contains types) name a ∧ TransGen (Contains types) a name := by
  rw [unboxedCycles_eq] at hg
  obtain ⟨name, hcycle, -, rfl⟩ := exists_of_mem_groupCycles hg
  refine ⟨name, mem_groupOf.mpr ⟨hcycle, hcycle⟩, NameSet.ascending _, ?_⟩
  intro a
  rw [mem_groupOf, mem_containedBy, mem_containedBy]

theorem exists_group_of_cycle {types : Table String XdrType} {a : String}
    (h : TransGen (Contains types) a a) : ∃ g ∈ unboxedCycles types, a ∈ g := by
  have hkey : a ∈ types.keys := left_mem_of_transGen_contains h
  have hcycle : a ∈ containedBy types a := mem_containedBy.mpr h
  rw [unboxedCycles_eq]
  exact (exists_group_of_mem hkey hcycle).resolve_left List.not_mem_nil

theorem mem_common_group_iff {types : Table String XdrType} {a b : String} :
    (∃ g ∈ unboxedCycles types, a ∈ g ∧ b ∈ g) ↔
      TransGen (Contains types) a b ∧ TransGen (Contains types) b a := by
  constructor
  · rintro ⟨g, hg, ha, hb⟩
    obtain ⟨name, -, -, hmem⟩ := exists_of_mem_unboxedCycles hg
    obtain ⟨hna, han⟩ := (hmem a).mp ha
    obtain ⟨hnb, hbn⟩ := (hmem b).mp hb
    exact ⟨han.trans hnb, hbn.trans hna⟩
  · rintro ⟨hab, hba⟩
    obtain ⟨g, hg, ha⟩ := exists_group_of_cycle (hab.trans hba)
    obtain ⟨name, -, -, hmem⟩ := exists_of_mem_unboxedCycles hg
    obtain ⟨hna, han⟩ := (hmem a).mp ha
    exact ⟨g, hg, ha, (hmem b).mpr ⟨hna.trans hab, hba.trans han⟩⟩

theorem mem_some_group_iff {types : Table String XdrType} {a : String} :
    (∃ g ∈ unboxedCycles types, a ∈ g) ↔ TransGen (Contains types) a a := by
  constructor
  · rintro ⟨g, hg, ha⟩
    exact (mem_common_group_iff.mp ⟨g, hg, ha, ha⟩).1
  · exact exists_group_of_cycle

theorem unboxedCycles_eq_nil_iff {types : Table String XdrType} :
    unboxedCycles types = [] ↔ ∀ a, ¬ TransGen (Contains types) a a := by
  constructor
  · intro hnil a ha
    obtain ⟨g, hg, -⟩ := exists_group_of_cycle ha
    rw [hnil] at hg
    exact absurd hg List.not_mem_nil
  · intro hacyclic
    rw [List.eq_nil_iff_forall_not_mem]
    intro g hg
    obtain ⟨name, hname, -, -⟩ := exists_of_mem_unboxedCycles hg
    exact hacyclic name (mem_some_group_iff.mp ⟨g, hg, hname⟩)

/-- The groups are the strongly connected components with a cycle of the by-value graph:
disjoint, each in ascending order, and listed by the place in the table of their first
members. There are none exactly when no type contains itself. -/
theorem unboxedCycles_cyclicComponents (types : Table String XdrType) :
    (∀ a b, (∃ g ∈ unboxedCycles types, a ∈ g ∧ b ∈ g) ↔
      TransGen (Contains types) a b ∧ TransGen (Contains types) b a) ∧
    (∀ a, (∃ g ∈ unboxedCycles types, a ∈ g) ↔ TransGen (Contains types) a a) ∧
    (unboxedCycles types).Pairwise List.Disjoint ∧
    (∀ g ∈ unboxedCycles types, g ≠ [] ∧ g.Pairwise (· < ·) ∧ ∀ a ∈ g, a ∈ types.keys) ∧
    ((unboxedCycles types).Pairwise fun g h =>
      types.keys.findIdx (· ∈ g) < types.keys.findIdx (· ∈ h)) ∧
    (unboxedCycles types = [] ↔ ∀ a, ¬ TransGen (Contains types) a a) := by
  refine ⟨fun a b => mem_common_group_iff, fun a => mem_some_group_iff, ?_, ?_, ?_,
    unboxedCycles_eq_nil_iff⟩
  · exact pairwise_disjoint_groupCycles (containedBy_trans types) (saturated_nil _)
  · intro g hg
    obtain ⟨name, hname, hsorted, -⟩ := exists_of_mem_unboxedCycles hg
    refine ⟨List.ne_nil_of_mem hname, hsorted, ?_⟩
    intro a ha
    exact left_mem_of_transGen_contains (mem_some_group_iff.mp ⟨g, hg, ha⟩)
  · exact pairwise_findIdx_groupCycles (containedBy_trans types) (saturated_nil _)

end XdrCompiler
