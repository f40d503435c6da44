/-
# XdrCompiler.NameSet -- finite sets of names

A `NameSet` is the strictly ascending list of its members, in the order of
their code points. Two sets with the same members are therefore equal, and the
list is at once the order in which a report shows them and the order in which
a search visits them.
-/

namespace XdrCompiler

/-! ## Ascending lists -/

namespace Ascending

/-- Puts `x` into an ascending list, once. -/
def put (x : String) : List String → List String
  | [] => [x]
  | y :: rest => if x < y then x :: y :: rest else if x = y then y :: rest else y :: put x rest

theorem mem_put {x a : String} {l : List String} : a ∈ put x l ↔ a = x ∨ a ∈ l := by
  induction l with
  | nil => simp [put]
  | cons y rest ih =>
    by_cases hlt : x < y
    · simp [put, hlt]
    · by_cases heq : x = y
      · subst heq
        simp [put]
      · simp only [put, hlt, heq, if_false, List.mem_cons, ih]
        constructor
        · rintro (h | h | h)
          · exact Or.inr (Or.inl h)
          · exact Or.inl h
          · exact Or.inr (Or.inr h)
        · rintro (h | h | h)
          · exact Or.inr (Or.inl h)
          · exact Or.inl h
          · exact Or.inr (Or.inr h)

theorem pairwise_put (x : String) {l : List String} (h : l.Pairwise (· < ·)) :
    (put x l).Pairwise (· < ·) := by
  induction l with
  | nil => simp [put]
  | cons y rest ih =>
    obtain ⟨hy, hrest⟩ := List.pairwise_cons.mp h
    by_cases hlt : x < y
    · simp only [put, hlt, if_true]
      refine List.pairwise_cons.mpr ⟨?_, h⟩
      intro a ha
      rcases List.mem_cons.mp ha with rfl | ha
      · exact hlt
      · exact String.lt_trans hlt (hy a ha)
    · by_cases heq : x = y
      · subst heq
        simpa [put] using h
      · have hyx : y < x :=
          Classical.byContradiction fun hn =>
            heq (String.le_antisymm (String.not_lt.mp hn) (String.not_lt.mp hlt))
        simp only [put, hlt, heq, if_false]
        refine List.pairwise_cons.mpr ⟨?_, ih hrest⟩
        intro a ha
        rcases mem_put.mp ha with rfl | ha
        · exact hyx
        · exact hy a ha

end Ascending

/-! ## Sets -/

/-- A finite set of names, listed in ascending order without repetition. -/
structure NameSet where
  toList : List String
  ascending : toList.Pairwise (· < ·)

namespace NameSet

theorem ext {s t : NameSet} (h : s.toList = t.toList) : s = t := by
  cases s
  cases t
  simp only at h
  subst h
  rfl

instance : DecidableEq NameSet := fun s t =>
  if h : s.toList = t.toList then isTrue (ext h)
  else isFalse fun hst => h (hst ▸ rfl)

instance : Membership String NameSet := ⟨fun s a => a ∈ s.toList⟩

theorem mem_def {s : NameSet} {a : String} : a ∈ s ↔ a ∈ s.toList := Iff.rfl

instance (a : String) (s : NameSet) : Decidable (a ∈ s) :=
  inferInstanceAs (Decidable (a ∈ s.toList))

/-- The set without members. -/
def empty : NameSet := ⟨[], List.Pairwise.nil⟩

instance : Inhabited NameSet := ⟨empty⟩

/-- The set with the one member `a`. -/
def singleton (a : String) : NameSet := ⟨[a], by simp⟩

def insert (s : NameSet) (a : String) : NameSet :=
  ⟨Ascending.put a s.toList, Ascending.pairwise_put a s.ascending⟩

def union (s t : NameSet) : NameSet := t.toList.foldl insert s

/-- The members of a list, whatever its order and repetitions. -/
def ofList (names : List String) : NameSet := names.foldl insert empty

/-- The members of any of the sets. -/
def unionAll (sets : List NameSet) : NameSet := sets.foldl union empty

def size (s : NameSet) : Nat := s.toList.length

@[simp] theorem not_mem_empty (a : String) : ¬ a ∈ empty := List.not_mem_nil

@[simp] theorem mem_singleton {a b : String} : a ∈ singleton b ↔ a = b := List.mem_singleton

@[simp] theorem mem_insert {s : NameSet} {a b : String} : a ∈ s.insert b ↔ a = b ∨ a ∈ s :=
  Ascending.mem_put

theorem mem_foldl_insert {names : List String} {s : NameSet} {a : String} :
    a ∈ names.foldl insert s ↔ a ∈ s ∨ a ∈ names := by
  induction names generalizing s with
  | nil => simp
  | cons n rest ih =>
    simp only [List.foldl_cons, ih, mem_insert, List.mem_cons]
    constructor
    · rintro ((h | h) | h)
      · exact Or.inr (Or.inl h)
      · exact Or.inl h
      · exact Or.inr (Or.inr h)
    · rintro (h | h | h)
      · exact Or.inl (Or.inr h)
      · exact Or.inl (Or.inl h)
      · exact Or.inr h

@[simp] theorem mem_union {s t : NameSet} {a : String} : a ∈ s.union t ↔ a ∈ s ∨ a ∈ t :=
  mem_foldl_insert

@[simp] theorem mem_ofList {names : List String} {a : String} : a ∈ ofList names ↔ a ∈ names := by
  simp [ofList, mem_foldl_insert]

theorem mem_foldl_union {sets : List NameSet} {s : NameSet} {a : String} :
    a ∈ sets.foldl union s ↔ a ∈ s ∨ ∃ t ∈ sets, a ∈ t := by
  induction sets generalizing s with
  | nil => simp
  | cons t rest ih => simp [ih, or_assoc]

@[simp] theorem mem_unionAll {sets : List NameSet} {a : String} :
    a ∈ unionAll sets ↔ ∃ t ∈ sets, a ∈ t := by
  simp [unionAll, mem_foldl_union]

end NameSet

end XdrCompiler
