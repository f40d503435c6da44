/-
# XdrCompiler.Proofs.LeastClosure -- the main types are the least closure of the roots

The search for the main types keeps three things apart: the names that wait on
the stack, the names that it looked at, and the entries that are left. Its state
is described by `Searching`. One step keeps that description (`Searching.step`),
hence so does a whole run (`reachFrom_ok`, `reachFrom_error`), on cyclic tables as
on others. When the run ends, the names looked at are exactly those that the
roots lead to; that no name is on the stack twice, nor again after it was looked
at, makes the number of steps the size of that set.
-/
import Mathlib.Data.Set.Card
import XdrCompiler.Graph.Reachable
import XdrCompiler.Proofs.Search

namespace XdrCompiler

/-! ## Entries -/

theorem Table.defined?_of_get? {types : Table String XdrType} {name : String} {entry : XdrType}
    (h : types.get? name = some entry) : types.defined? name = entry.defined? := by
  rw [Table.defined?, h, Option.bind_some]

theorem needs_iff {types : Table String XdrType} {a b : String} {entry : XdrType}
    (h : types.get? a = some entry) : Needs types a b ↔ b ∈ entry.dependencies := by
  constructor
  · rintro ⟨t, ht, hb⟩
    rw [h] at ht
    rwa [Option.some_inj.mp ht]
  · exact fun hb => ⟨entry, h, hb⟩

/-! ## Putting names on the stack -/

theorem mem_pushFresh {known stack names : List String} {a : String} :
    a ∈ pushFresh known stack names ↔ a ∈ stack ∨ a ∈ names ∧ a ∉ known := by
  induction names generalizing stack with
  | nil => simp [pushFresh]
  | cons n rest ih =>
    rw [pushFresh]
    by_cases h : n ∈ known ∨ n ∈ stack
    · rw [if_pos h, ih]
      rcases h with h | h
      · have hn : a ∉ known → a ≠ n := fun ha han => ha (han ▸ h)
        grind
      · grind
    · rw [if_neg h, ih]
      grind

/-- No name gets on the stack twice, and none that is known. -/
theorem nodup_pushFresh {known stack names : List String} (h : (stack ++ known).Nodup) :
    (pushFresh known stack names ++ known).Nodup := by
  induction names generalizing stack with
  | nil => exact h
  | cons n rest ih =>
    rw [pushFresh]
    by_cases hn : n ∈ known ∨ n ∈ stack
    · rw [if_pos hn]
      exact ih h
    · rw [if_neg hn]
      apply ih
      rw [List.cons_append, List.nodup_cons, List.mem_append]
      exact ⟨fun hmem => hn hmem.symm, h⟩

/-! ## One step -/

/-- The state of a search for what the roots need. -/
structure Searching (types : Table String XdrType) (roots : List String)
    (fresh : Table String XdrType) (stack reached : List String) : Prop where
  frontier : Frontier (Needs types) roots stack reached
  remains : Remains types reached fresh
  /-- Each name is waiting at most once, and none waits that was looked at. -/
  nodup : (stack ++ reached).Nodup
  defined : ∀ n ∈ reached, types.defined? n ≠ none

namespace Searching

variable {types fresh : Table String XdrType} {roots rest reached : List String} {name : String}

theorem start (types : Table String XdrType) (roots : List String) :
    Searching types roots types (firstOccurrences roots).reverse [] where
  frontier := Frontier.start (by simp)
  remains := Remains.start types
  nodup := by
    rw [List.append_nil, List.nodup_reverse]
    exact nodup_firstOccurrences roots
  defined := fun n hn => absurd hn List.not_mem_nil

theorem not_mem_reached (h : Searching types roots fresh (name :: rest) reached) :
    name ∉ reached := by
  have hnodup := h.nodup
  rw [List.cons_append, List.nodup_cons] at hnodup
  exact fun hname => hnodup.1 (List.mem_append_right rest hname)

theorem ledTo (h : Searching types roots fresh (name :: rest) reached) :
    LedTo (Needs types) roots name :=
  h.frontier.sound name (Or.inl List.mem_cons_self)

/-- Looking up a waiting name in what is left is looking it up in the table. -/
theorem get?_fresh (h : Searching types roots fresh (name :: rest) reached) :
    fresh.get? name = types.get? name := by
  rw [h.remains name, if_neg h.not_mem_reached]

theorem step {type : XdrType} (h : Searching types roots fresh (name :: rest) reached)
    (hget : fresh.get? name = some type) (hdef : type.defined? ≠ none) :
    Searching types roots (fresh.erase name)
      (pushFresh (name :: reached) rest type.dependencies.toList) (name :: reached) := by
  have htype : types.get? name = some type := h.get?_fresh ▸ hget
  refine ⟨h.frontier.expand ?_, h.remains.erase name, ?_, ?_⟩
  · intro b
    rw [mem_pushFresh, needs_iff htype, NameSet.mem_def]
    by_cases hb : b ∈ name :: reached
    · simp [hb]
    · simp [hb, or_comm]
  · -- The name only moves from the stack to the names that were looked at.
    apply nodup_pushFresh
    exact (List.perm_middle.nodup_iff).mpr h.nodup
  · intro n hn
    rcases List.mem_cons.mp hn with rfl | hn
    · rw [Table.defined?_of_get? htype]
      exact hdef
    · exact h.defined n hn

end Searching

/-! ## Runs -/

/-- A run that ends well leaves nothing waiting. -/
theorem reachFrom_ok {types fresh : Table String XdrType} {roots stack reached found : List String}
    (h : Searching types roots fresh stack reached)
    (hrun : reachFrom fresh stack reached = .ok found) :
    ∃ left, Searching types roots left [] found := by
  fun_induction reachFrom fresh stack reached with
  | case1 fresh reached =>
    cases hrun
    exact ⟨fresh, h⟩
  | case2 => cases hrun
  | case3 => cases hrun
  | case4 fresh reached name rest entry hget type hdef ih =>
    cases XdrType.eq_of_defined?_eq_some hdef
    exact ih (h.step hget (by simp [hdef])) hrun

/-- A run ends badly only on a name that the roots lead to and that is not defined. -/
theorem reachFrom_error {types fresh : Table String XdrType} {roots stack reached : List String}
    {failure : Failure} (h : Searching types roots fresh stack reached)
    (hrun : reachFrom fresh stack reached = .error failure) :
    ∃ n, failure = .schema (.undefinedType n) ∧ LedTo (Needs types) roots n ∧
      types.defined? n = none := by
  fun_induction reachFrom fresh stack reached with
  | case1 => cases hrun
  | case2 fresh reached name rest hget =>
    -- There is no entry under the name.
    cases hrun
    refine ⟨name, rfl, h.ledTo, ?_⟩
    rw [Table.defined?, ← h.get?_fresh, hget, Option.bind_none]
  | case3 fresh reached name rest entry hget hdef =>
    -- There is one, but it is the missing value.
    cases hrun
    refine ⟨name, rfl, h.ledTo, ?_⟩
    rw [Table.defined?_of_get? (h.get?_fresh ▸ hget), hdef]
  | case4 fresh reached name rest entry hget type hdef ih =>
    cases XdrType.eq_of_defined?_eq_some hdef
    exact ih (h.step hget (by simp [hdef])) hrun

/-! ## Counting -/

theorem NameSet.nodup_toList (s : NameSet) : s.toList.Nodup := by
  refine List.Pairwise.imp ?_ s.ascending
  rintro a b hlt rfl
  exact String.lt_irrefl a hlt

theorem NameSet.size_ofList {names : List String} (h : names.Nodup) :
    (NameSet.ofList names).size = names.length := by
  apply List.Perm.length_eq
  rw [List.perm_ext_iff_of_nodup (NameSet.nodup_toList _) h]
  intro a
  rw [← NameSet.mem_def, NameSet.mem_ofList]

theorem length_firstOccurrences (names : List String) :
    (firstOccurrences names).length = names.toFinset.card := by
  have hset : names.toFinset = (firstOccurrences names).toFinset := by
    ext a
    simp
  rw [hset, List.toFinset_card_of_nodup (nodup_firstOccurrences names)]

/-! ## The least closure -/

/-- A search that succeeds went through the names that the roots lead to, one at a time. -/
theorem reachable_ok {types : Table String XdrType} {roots : List String} {reach : Reach}
    (h : reachable types roots = .ok reach) :
    ∃ left found, Searching types roots left [] found ∧ reach.reached = NameSet.ofList found ∧
      reach.rootCount = (firstOccurrences roots).length ∧ reach.steps = found.length := by
  unfold reachable at h
  cases hrun : reachFrom types (firstOccurrences roots).reverse [] with
  | error failure =>
    rw [hrun] at h
    cases h
  | ok found =>
    rw [hrun] at h
    cases h
    obtain ⟨left, hleft⟩ := reachFrom_ok (Searching.start types roots) hrun
    exact ⟨left, found, hleft, rfl, rfl, rfl⟩

theorem mem_reached_iff {types : Table String XdrType} {roots : List String} {reach : Reach}
    (h : reachable types roots = .ok reach) (n : String) :
    n ∈ reach.reached ↔ LedTo (Needs types) roots n := by
  obtain ⟨left, found, hfound, hset, -, -⟩ := reachable_ok h
  rw [hset, NameSet.mem_ofList]
  exact hfound.frontier.mem_done_iff

theorem defined_of_mem_reached {types : Table String XdrType} {roots : List String}
    {reach : Reach} (h : reachable types roots = .ok reach) {n : String} (hn : n ∈ reach.reached) :
    types.defined? n ≠ none := by
  obtain ⟨left, found, hfound, hset, -, -⟩ := reachable_ok h
  rw [hset, NameSet.mem_ofList] at hn
  exact hfound.defined n hn

theorem reachable_counts {types : Table String XdrType} {roots : List String} {reach : Reach}
    (h : reachable types roots = .ok reach) :
    reach.rootCount = roots.toFinset.card ∧ reach.steps = reach.reached.size ∧
      reach.reached.size = {n | LedTo (Needs types) roots n}.ncard := by
  obtain ⟨left, found, hfound, hset, hroots, hsteps⟩ := reachable_ok h
  have hnodup : found.Nodup := hfound.nodup
  have hsize : reach.reached.size = found.length := by rw [hset, NameSet.size_ofList hnodup]
  -- The names found are the set itself, as a list without repetition.
  have hled : {n | LedTo (Needs types) roots n} = (found.toFinset : Set String) := by
    ext n
    rw [Set.mem_ofPred_eq, ← hfound.frontier.mem_done_iff, Finset.mem_coe, List.mem_toFinset]
  refine ⟨by rw [hroots, length_firstOccurrences], by rw [hsteps, hsize], ?_⟩
  rw [hsize, hled, Set.ncard_coe_finset, List.toFinset_card_of_nodup hnodup]

theorem reachable_error {types : Table String XdrType} {roots : List String} {failure : Failure}
    (h : reachable types roots = .error failure) :
    ∃ n, failure = .schema (.undefinedType n) ∧ LedTo (Needs types) roots n ∧
      types.defined? n = none := by
  unfold reachable at h
  cases hrun : reachFrom types (firstOccurrences roots).reverse [] with
  | error failure' =>
    rw [hrun] at h
    cases h
    exact reachFrom_error (Searching.start types roots) hrun
  | ok found =>
    rw [hrun] at h
    cases h

/-- The search for the main types computes the least set that has the roots and is closed
under need. It succeeds exactly when everything in that set is defined, it takes every
name once, and otherwise it reports a member of the set that is not defined. -/
theorem reachable_leastClosure (types : Table String XdrType) (roots : List String) :
    ((∃ reach, reachable types roots = .ok reach) ↔
      ∀ n, LedTo (Needs types) roots n → types.defined? n ≠ none) ∧
    (∀ reach, reachable types roots = .ok reach →
      (∀ n, n ∈ reach.reached ↔ LedTo (Needs types) roots n) ∧
      reach.rootCount = roots.toFinset.card ∧
      reach.steps = reach.reached.size ∧
      reach.reached.size = {n | LedTo (Needs types) roots n}.ncard) ∧
    (∀ failure, reachable types roots = .error failure →
      ∃ error n, failure = .schema error ∧ error.code = .unresolvedReference ∧
        error = .undefinedType n ∧ LedTo (Needs types) roots n ∧ types.defined? n = none) := by
  refine ⟨⟨?_, ?_⟩, ?_, ?_⟩
  · rintro ⟨reach, hreach⟩ n hn
    exact defined_of_mem_reached hreach ((mem_reached_iff hreach n).mpr hn)
  · intro hdefined
    cases hreach : reachable types roots with
    | ok reach => exact ⟨reach, rfl⟩
    | error failure =>
      obtain ⟨n, -, hn, hnone⟩ := reachable_error hreach
      exact absurd hnone (hdefined n hn)
  · intro reach hreach
    exact ⟨mem_reached_iff hreach, reachable_counts hreach⟩
  · intro failure hfailure
    obtain ⟨n, rfl, hn, hnone⟩ := reachable_error hfailure
    exact ⟨.undefinedType n, n, rfl, rfl, rfl, hn, hnone⟩

end XdrCompiler
