/-
# XdrCompiler.Table -- insertion-ordered tables

A `Table` maps keys to values and remembers the order in which its keys first
arrived. Storing under a known key replaces the value and leaves the key where
it stands; a new key goes to the end. That no key occurs twice is part of the
type, so that a table is determined by its keys in order and by what it holds
under each of them.
-/

namespace XdrCompiler

/-! ## Pairs in order -/

namespace Pairs

variable {κ α : Type} [DecidableEq κ]

/-- The value of the first pair with key `k`. -/
def find? (k : κ) : List (κ × α) → Option α
  | [] => none
  | (k', v) :: rest => if k' = k then some v else find? k rest

/-- Replaces the value under `k` in place, or appends the pair. -/
def put (k : κ) (v : α) : List (κ × α) → List (κ × α)
  | [] => [(k, v)]
  | (k', v') :: rest => if k' = k then (k', v) :: rest else (k', v') :: put k v rest

/-- Drops the first pair with key `k`. -/
def drop (k : κ) : List (κ × α) → List (κ × α)
  | [] => []
  | (k', v') :: rest => if k' = k then rest else (k', v') :: drop k rest

theorem find?_eq_none_iff {k : κ} {l : List (κ × α)} :
    find? k l = none ↔ k ∉ l.map Prod.fst := by
  induction l with
  | nil => simp [find?]
  | cons p rest ih =>
    by_cases h : p.1 = k
    · simp [find?, h]
    · simp [find?, h, ih, Ne.symm h]

theorem find?_eq_some_iff {k : κ} {v : α} {l : List (κ × α)} (hl : (l.map Prod.fst).Nodup) :
    find? k l = some v ↔ (k, v) ∈ l := by
  induction l with
  | nil => simp [find?]
  | cons p rest ih =>
    obtain ⟨hp, hrest⟩ := List.nodup_cons.mp hl
    by_cases h : p.1 = k
    · have hk : (k, v) ∉ rest := by
        intro hmem
        apply hp
        rw [h]
        exact List.mem_map_of_mem (f := Prod.fst) hmem
      rw [find?, if_pos h, List.mem_cons, or_iff_left hk, Option.some_inj]
      constructor
      · rintro rfl
        rw [← h]
      · intro hpair
        rw [← hpair]
    · have hne : (k, v) ≠ p := fun hpair => h (hpair ▸ rfl)
      rw [find?, if_neg h, ih hrest, List.mem_cons, or_iff_right hne]

theorem keys_put (k : κ) (v : α) (l : List (κ × α)) :
    (put k v l).map Prod.fst =
      if k ∈ l.map Prod.fst then l.map Prod.fst else l.map Prod.fst ++ [k] := by
  induction l with
  | nil => simp [put]
  | cons p rest ih =>
    by_cases h : p.1 = k
    · simp [put, h]
    · by_cases hk : k ∈ rest.map Prod.fst
      · simp [put, h, ih, hk]
      · simp [put, h, ih, hk, Ne.symm h]

theorem nodup_put (k : κ) (v : α) {l : List (κ × α)} (h : (l.map Prod.fst).Nodup) :
    ((put k v l).map Prod.fst).Nodup := by
  rw [keys_put]
  by_cases hk : k ∈ l.map Prod.fst
  · rw [if_pos hk]
    exact h
  · rw [if_neg hk, List.nodup_append]
    refine ⟨h, by simp, ?_⟩
    intro a ha b hb
    rw [List.mem_singleton] at hb
    intro hab
    exact hk (hb ▸ hab ▸ ha)

theorem put_of_notMem {k : κ} {l : List (κ × α)} (h : k ∉ l.map Prod.fst) (v : α) :
    put k v l = l ++ [(k, v)] := by
  induction l with
  | nil => rfl
  | cons p rest ih =>
    rw [List.map_cons, List.mem_cons, not_or] at h
    rw [put, if_neg (Ne.symm h.1), ih h.2, List.cons_append]

theorem find?_put_self (k : κ) (v : α) (l : List (κ × α)) : find? k (put k v l) = some v := by
  induction l with
  | nil => simp [put, find?]
  | cons p rest ih =>
    by_cases h : p.1 = k
    · simp [put, find?, h]
    · simp [put, find?, h, ih]

theorem find?_put_of_ne {k k' : κ} (hne : k' ≠ k) (v : α) (l : List (κ × α)) :
    find? k' (put k v l) = find? k' l := by
  induction l with
  | nil => simp [put, find?, Ne.symm hne]
  | cons p rest ih =>
    by_cases h : p.1 = k
    · have hp : p.1 ≠ k' := fun h' => hne (h' ▸ h)
      simp [put, find?, h, Ne.symm hne]
    · simp [put, find?, h, ih]

theorem find?_map {β : Type} (f : κ → α → β) (k : κ) (l : List (κ × α)) :
    find? k (l.map fun p => (p.1, f p.1 p.2)) = (find? k l).map (f k) := by
  induction l with
  | nil => rfl
  | cons p rest ih =>
    by_cases h : p.1 = k
    · simp [find?, h]
    · simp [find?, h, ih]

theorem drop_sublist (k : κ) (l : List (κ × α)) : (drop k l).Sublist l := by
  induction l with
  | nil => exact List.Sublist.refl []
  | cons p rest ih =>
    by_cases h : p.1 = k
    · simp only [drop, h, if_true]
      exact List.sublist_cons_self _ _
    · simp only [drop, h, if_false]
      exact ih.cons_cons p

theorem length_drop_lt {k : κ} {l : List (κ × α)} {v : α} (h : find? k l = some v) :
    (drop k l).length < l.length := by
  induction l with
  | nil => simp [find?] at h
  | cons p rest ih =>
    by_cases hp : p.1 = k
    · simp [drop, hp]
    · simp only [find?, hp, if_false] at h
      simp only [drop, hp, if_false, List.length_cons]
      exact Nat.succ_lt_succ (ih h)

theorem find?_drop_of_ne {k k' : κ} (hne : k' ≠ k) (l : List (κ × α)) :
    find? k' (drop k l) = find? k' l := by
  induction l with
  | nil => rfl
  | cons p rest ih =>
    by_cases h : p.1 = k
    · simp [drop, find?, h, Ne.symm hne]
    · simp [drop, find?, h, ih]

theorem find?_drop_self {k : κ} {l : List (κ × α)} (hl : (l.map Prod.fst).Nodup) :
    find? k (drop k l) = none := by
  induction l with
  | nil => rfl
  | cons p rest ih =>
    obtain ⟨hp, hrest⟩ := List.nodup_cons.mp hl
    by_cases h : p.1 = k
    · rw [drop, if_pos h, find?_eq_none_iff, ← h]
      exact hp
    · rw [drop, if_neg h, find?, if_neg h]
      exact ih hrest

end Pairs

/-! ## Tables -/

/-- A finite map whose keys keep the order of their first insertion. -/
structure Table (κ α : Type) where
  entries : List (κ × α)
  nodup : (entries.map Prod.fst).Nodup

namespace Table

variable {κ α : Type}

theorem ext {s t : Table κ α} (h : s.entries = t.entries) : s = t := by
  cases s
  cases t
  simp only at h
  subst h
  rfl

instance [DecidableEq κ] [DecidableEq α] : DecidableEq (Table κ α) := fun s t =>
  if h : s.entries = t.entries then isTrue (ext h)
  else isFalse fun hst => h (hst ▸ rfl)

/-- The table with no entries. -/
def empty : Table κ α := ⟨[], List.nodup_nil⟩

instance : Inhabited (Table κ α) := ⟨empty⟩

/-- The keys in order of first insertion. -/
def keys (t : Table κ α) : List κ := t.entries.map Prod.fst

/-- The values in the order of their keys. -/
def values (t : Table κ α) : List α := t.entries.map Prod.snd

def size (t : Table κ α) : Nat := t.entries.length

theorem nodup_keys (t : Table κ α) : t.keys.Nodup := t.nodup

/-- Replaces each value by one that depends on it and on its key. -/
def map {β : Type} (f : κ → α → β) (t : Table κ α) : Table κ β where
  entries := t.entries.map fun p => (p.1, f p.1 p.2)
  nodup := by
    rw [List.map_map]
    exact t.nodup

@[simp] theorem keys_map {β : Type} (f : κ → α → β) (t : Table κ α) : (t.map f).keys = t.keys := by
  simp [keys, map, Function.comp_def]

variable [DecidableEq κ]

/-- The value stored under `k`. -/
def get? (t : Table κ α) (k : κ) : Option α := Pairs.find? k t.entries

/-- Stores `v` under `k`, in the place of an older value or else at the end. -/
def insert (t : Table κ α) (k : κ) (v : α) : Table κ α :=
  ⟨Pairs.put k v t.entries, Pairs.nodup_put k v t.nodup⟩

/-- Removes the entry of `k`. -/
def erase (t : Table κ α) (k : κ) : Table κ α :=
  ⟨Pairs.drop k t.entries, t.nodup.sublist ((Pairs.drop_sublist k t.entries).map Prod.fst)⟩

/-- Stores the pairs one after the other: the first occurrence of a key fixes
its place and the last one its value. -/
def ofList (pairs : List (κ × α)) : Table κ α :=
  pairs.foldl (fun t p => t.insert p.1 p.2) empty

theorem get?_eq_none_iff {t : Table κ α} {k : κ} : t.get? k = none ↔ k ∉ t.keys :=
  Pairs.find?_eq_none_iff

theorem get?_eq_some_iff {t : Table κ α} {k : κ} {v : α} :
    t.get? k = some v ↔ (k, v) ∈ t.entries :=
  Pairs.find?_eq_some_iff t.nodup

theorem mem_values_of_get? {t : Table κ α} {k : κ} {v : α} (h : t.get? k = some v) :
    v ∈ t.values :=
  List.mem_map_of_mem (f := Prod.snd) (get?_eq_some_iff.mp h)

theorem keys_insert (t : Table κ α) (k : κ) (v : α) :
    (t.insert k v).keys = if k ∈ t.keys then t.keys else t.keys ++ [k] :=
  Pairs.keys_put k v t.entries

@[simp] theorem get?_empty (k : κ) : (empty : Table κ α).get? k = none := rfl

@[simp] theorem get?_insert_self (t : Table κ α) (k : κ) (v : α) :
    (t.insert k v).get? k = some v :=
  Pairs.find?_put_self k v t.entries

theorem get?_insert_of_ne {k k' : κ} (hne : k' ≠ k) (t : Table κ α) (v : α) :
    (t.insert k v).get? k' = t.get? k' :=
  Pairs.find?_put_of_ne hne v t.entries

/-- Tables that agree under a key still do after storing the same pair in both. -/
theorem get?_insert_congr {s t : Table κ α} {k' : κ} (h : s.get? k' = t.get? k') (k : κ) (v : α) :
    (s.insert k v).get? k' = (t.insert k v).get? k' := by
  by_cases hk : k' = k
  · rw [hk, get?_insert_self, get?_insert_self]
  · rw [get?_insert_of_ne hk, get?_insert_of_ne hk, h]

@[simp] theorem get?_map {β : Type} (f : κ → α → β) (t : Table κ α) (k : κ) :
    (t.map f).get? k = (t.get? k).map (f k) :=
  Pairs.find?_map f k t.entries

theorem get?_erase_of_ne {k k' : κ} (hne : k' ≠ k) (t : Table κ α) :
    (t.erase k).get? k' = t.get? k' :=
  Pairs.find?_drop_of_ne hne t.entries

@[simp] theorem get?_erase_self (t : Table κ α) (k : κ) : (t.erase k).get? k = none :=
  Pairs.find?_drop_self t.nodup

/-- Keys that come once are stored in the order of the list. -/
theorem entries_foldl_insert {pairs : List (κ × α)} {t : Table κ α}
    (h : ((t.entries ++ pairs).map Prod.fst).Nodup) :
    (pairs.foldl (fun t p => t.insert p.1 p.2) t).entries = t.entries ++ pairs := by
  induction pairs generalizing t with
  | nil => rw [List.foldl_nil, List.append_nil]
  | cons p rest ih =>
    have hp : p.1 ∉ t.entries.map Prod.fst := by
      rw [List.map_append, List.nodup_append] at h
      intro hmem
      exact h.2.2 p.1 hmem p.1 List.mem_cons_self rfl
    have hinsert : (t.insert p.1 p.2).entries = t.entries ++ [p] := Pairs.put_of_notMem hp p.2
    have hentries : t.entries ++ p :: rest = (t.insert p.1 p.2).entries ++ rest := by
      rw [hinsert, List.append_assoc, List.singleton_append]
    rw [List.foldl_cons, ih (hentries ▸ h), hentries]

theorem entries_ofList {pairs : List (κ × α)} (h : (pairs.map Prod.fst).Nodup) :
    (ofList pairs).entries = pairs :=
  entries_foldl_insert h

/-- A key has the same value in tables that differ in order only. -/
theorem get?_eq_of_perm {s t : Table κ α} (h : s.entries.Perm t.entries) (k : κ) :
    s.get? k = t.get? k := by
  apply Option.ext
  intro v
  rw [get?_eq_some_iff, get?_eq_some_iff, h.mem_iff]

theorem size_erase_lt {t : Table κ α} {k : κ} {v : α} (h : t.get? k = some v) :
    (t.erase k).size < t.size :=
  Pairs.length_drop_lt h

end Table

end XdrCompiler
