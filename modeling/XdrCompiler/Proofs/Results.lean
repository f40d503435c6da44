/-
# XdrCompiler.Proofs.Results -- what the success of several steps says

Most of the compiler is a sequence of steps that may fail, often one step for
each element of a list. When the whole succeeds, each step did; when it was one
for each element, the results are in the order of the elements, which is what
`List.Forall₂` says.
-/
import Mathlib.Data.List.Forall2

namespace XdrCompiler

/-! ## Sequences of steps -/

section Except

variable {ε α β : Type} {x : Except ε α}

theorem bind_eq_ok_iff {f : α → Except ε β} {b : β} :
    x.bind f = .ok b ↔ ∃ a, x = .ok a ∧ f a = .ok b := by
  cases x with
  | error e => simp [Except.bind]
  | ok a => simp [Except.bind]

theorem map_eq_ok_iff {f : α → β} {b : β} : x.map f = .ok b ↔ ∃ a, x = .ok a ∧ f a = b := by
  cases x with
  | error e => simp [Except.map]
  | ok a => simp [Except.map]

theorem bind_eq_error_iff {f : α → Except ε β} {e : ε} :
    x.bind f = .error e ↔ x = .error e ∨ ∃ a, x = .ok a ∧ f a = .error e := by
  cases x with
  | error e' => simp [Except.bind]
  | ok a => simp [Except.bind]

theorem map_eq_error_iff {f : α → β} {e : ε} : x.map f = .error e ↔ x = .error e := by
  cases x with
  | error e' => simp [Except.map]
  | ok a => simp [Except.map]

/-- Of two steps whose results are put together, the first to fail decides the error. -/
theorem both_eq_error_iff {γ : Type} {y : Except ε β} {f : α → β → γ} {e : ε} :
    (x.bind fun a => y.bind fun b => .ok (f a b)) = .error e ↔
      x = .error e ∨ (∃ a, x = .ok a) ∧ y = .error e := by
  simp [bind_eq_error_iff]

theorem exists_eq_ok_of_toBool (h : x.toBool = true) : ∃ a, x = .ok a := by
  cases x with
  | error e => cases h
  | ok a => exact ⟨a, rfl⟩

end Except

/-! ## Steps for the elements of a list -/

/-- Where a list is faulty if its first element fails, or passes and the others are faulty, the
first element that fails is found behind elements that pass. -/
theorem exists_first_fault_iff {α : Type} (faulty : List α → Prop) {passes fails : α → Prop}
    (hnil : ¬faulty []) (hcons : ∀ a rest, faulty (a :: rest) ↔ fails a ∨ passes a ∧ faulty rest)
    {l : List α} :
    faulty l ↔
      ∃ before a after, l = before ++ a :: after ∧ (∀ b ∈ before, passes b) ∧ fails a := by
  induction l with
  | nil => simp [hnil]
  | cons first rest ih =>
    rw [hcons, ih]
    constructor
    · rintro (hfails | ⟨hpasses, before, a, after, rfl, hbefore, hfails⟩)
      · exact ⟨[], first, rest, rfl, by simp, hfails⟩
      · exact ⟨first :: before, a, after, rfl, List.forall_mem_cons.mpr ⟨hpasses, hbefore⟩, hfails⟩
    · rintro ⟨before, a, after, hl, hbefore, hfails⟩
      cases before with
      | nil =>
        obtain ⟨rfl, rfl⟩ := List.cons_eq_cons.mp hl
        exact Or.inl hfails
      | cons b before =>
        obtain ⟨rfl, rfl⟩ := List.cons_eq_cons.mp hl
        obtain ⟨hpasses, hbefore⟩ := List.forall_mem_cons.mp hbefore
        exact Or.inr ⟨hpasses, before, a, after, rfl, hbefore, hfails⟩

section Forall₂

variable {α β : Type} {R : α → β → Prop} {as : List α} {bs : List β}

/-- Every result comes from an element. -/
theorem exists_source_of_mem (h : List.Forall₂ R as bs) {b : β} (hb : b ∈ bs) :
    ∃ a ∈ as, R a b := by
  induction h with
  | nil => exact absurd hb List.not_mem_nil
  | @cons a b' as bs hab _ ih =>
    rcases List.mem_cons.mp hb with rfl | hb
    · exact ⟨a, List.mem_cons_self, hab⟩
    · obtain ⟨a', ha', hR⟩ := ih hb
      exact ⟨a', List.mem_cons_of_mem a ha', hR⟩

/-- Every element has a result. -/
theorem exists_result_of_mem (h : List.Forall₂ R as bs) {a : α} (ha : a ∈ as) :
    ∃ b ∈ bs, R a b :=
  exists_source_of_mem h.flip ha

/-- The result of an element is at its place. -/
theorem exists_result_of_getElem? (h : List.Forall₂ R as bs) {i : Nat} {a : α}
    (ha : as[i]? = some a) : ∃ b, bs[i]? = some b ∧ R a b := by
  obtain ⟨hi, rfl⟩ := List.getElem?_eq_some_iff.mp ha
  have hi' : i < bs.length := h.length_eq ▸ hi
  exact ⟨bs[i], List.getElem?_eq_getElem hi', h.get hi hi'⟩

/-- What the results show of their elements comes in the order of the elements. -/
theorem map_eq_map_of_forall₂ {γ : Type} {f : α → γ} {g : β → γ} (h : List.Forall₂ R as bs)
    (hfg : ∀ a b, R a b → g b = f a) : bs.map g = as.map f := by
  induction h with
  | nil => rfl
  | cons hab _ ih => rw [List.map_cons, List.map_cons, hfg _ _ hab, ih]

end Forall₂

end XdrCompiler
