/-
# XdrCompiler.Proofs.Search -- searches over a finite table

Both searches of the compiler work through a stack of names and put the names
that they are done with aside. They differ in when they drop a repeated name and
in what they do about an undefined one, and agree on everything else. What they
agree on is `Frontier`: nothing gets on the stack that the seeds do not lead to,
and whatever a name leads to is on the stack or done as soon as the name is done.
When the stack is empty, the names done are exactly those that the seeds lead to.

Instead of asking whether a name is done already, both searches look it up in
the part of the table that is left. `Remains` says that this is the same question.
-/
import Mathlib.Logic.Relation
import XdrCompiler.Table

namespace XdrCompiler

open Relation (ReflTransGen)

/-! ## What the seeds lead to -/

section Frontier

variable {α : Type} {R : α → α → Prop} {seeds stack rest done : List α} {a : α}

/-- `a` is reached from one of the seeds over any number of steps. -/
def LedTo (R : α → α → Prop) (seeds : List α) (a : α) : Prop :=
  ∃ s ∈ seeds, ReflTransGen R s a

theorem LedTo.of_mem (h : a ∈ seeds) : LedTo R seeds a := ⟨a, h, ReflTransGen.refl⟩

theorem LedTo.step {b : α} (h : LedTo R seeds a) (hab : R a b) : LedTo R seeds b := by
  obtain ⟨s, hs, hsa⟩ := h
  exact ⟨s, hs, hsa.tail hab⟩

/-- The state of a search that started with `seeds`: what is on the stack and what
is done. -/
structure Frontier (R : α → α → Prop) (seeds stack done : List α) : Prop where
  /-- Nothing but what the seeds lead to. -/
  sound : ∀ a, a ∈ stack ∨ a ∈ done → LedTo R seeds a
  seeded : ∀ s ∈ seeds, s ∈ stack ∨ s ∈ done
  /-- One step from a name that is done does not lead out of the state. -/
  closed : ∀ a ∈ done, ∀ b, R a b → b ∈ stack ∨ b ∈ done

namespace Frontier

theorem start (h : ∀ a, a ∈ stack ↔ a ∈ seeds) : Frontier R seeds stack [] where
  sound := by
    rintro a (ha | ha)
    · exact LedTo.of_mem ((h a).mp ha)
    · exact absurd ha List.not_mem_nil
  seeded := fun s hs => Or.inl ((h s).mpr hs)
  closed := fun a ha => absurd ha List.not_mem_nil

/-- A name that is done is taken off the stack. -/
theorem skip (h : Frontier R seeds (a :: rest) done) (ha : a ∈ done) :
    Frontier R seeds rest done := by
  have keep : ∀ b, b ∈ a :: rest ∨ b ∈ done → b ∈ rest ∨ b ∈ done := by
    rintro b (hb | hb)
    · rcases List.mem_cons.mp hb with rfl | hb
      · exact Or.inr ha
      · exact Or.inl hb
    · exact Or.inr hb
  refine ⟨?_, fun s hs => keep s (h.seeded s hs), fun b hb c hbc => keep c (h.closed b hb c hbc)⟩
  rintro b (hb | hb)
  · exact h.sound b (Or.inl (List.mem_cons_of_mem a hb))
  · exact h.sound b (Or.inr hb)

/-- The first name of the stack is done, and what it leads to is put on the stack.
Whether names that are known already are put there again does not matter. -/
theorem expand (h : Frontier R seeds (a :: rest) done)
    (hstack : ∀ b, b ∈ stack ∨ b ∈ a :: done ↔ R a b ∨ b ∈ rest ∨ b ∈ a :: done) :
    Frontier R seeds stack (a :: done) := by
  have hgrow : ∀ b, b ∈ a :: rest ∨ b ∈ done → b ∈ stack ∨ b ∈ a :: done := by
    intro b hb
    rw [hstack b]
    rcases hb with hb | hb
    · rcases List.mem_cons.mp hb with rfl | hb
      · exact Or.inr (Or.inr List.mem_cons_self)
      · exact Or.inr (Or.inl hb)
    · exact Or.inr (Or.inr (List.mem_cons_of_mem a hb))
  have hled : LedTo R seeds a := h.sound a (Or.inl List.mem_cons_self)
  refine ⟨?_, fun s hs => hgrow s (h.seeded s hs), ?_⟩
  · intro b hb
    rcases (hstack b).mp hb with hab | hb | hb
    · exact hled.step hab
    · exact h.sound b (Or.inl (List.mem_cons_of_mem a hb))
    · rcases List.mem_cons.mp hb with rfl | hb
      · exact hled
      · exact h.sound b (Or.inr hb)
  · intro b hb c hbc
    rcases List.mem_cons.mp hb with rfl | hb
    · exact (hstack c).mpr (Or.inl hbc)
    · exact hgrow c (h.closed b hb c hbc)

/-- With nothing left on the stack, the names done are those that the seeds lead to. -/
theorem mem_done_iff (h : Frontier R seeds [] done) : a ∈ done ↔ LedTo R seeds a := by
  have hdone : ∀ b, b ∈ ([] : List α) ∨ b ∈ done → b ∈ done := by
    rintro b (hb | hb)
    · exact absurd hb List.not_mem_nil
    · exact hb
  constructor
  · intro ha
    exact h.sound a (Or.inr ha)
  · rintro ⟨s, hs, hsa⟩
    induction hsa with
    | refl => exact hdone s (h.seeded s hs)
    | tail _ hbc ih => exact hdone _ (h.closed _ ih _ hbc)

end Frontier

end Frontier

/-! ## What is left of the table -/

section Remains

variable {κ α : Type} [DecidableEq κ] {whole rest : Table κ α} {done : List κ} {k : κ} {v : α}

/-- `rest` has the entries of `whole` whose keys are not done. -/
def Remains (whole : Table κ α) (done : List κ) (rest : Table κ α) : Prop :=
  ∀ k, rest.get? k = if k ∈ done then none else whole.get? k

theorem Remains.start (whole : Table κ α) : Remains whole [] whole := by
  intro k
  rw [if_neg List.not_mem_nil]

theorem Remains.erase (h : Remains whole done rest) (k : κ) :
    Remains whole (k :: done) (rest.erase k) := by
  intro k'
  by_cases hk : k' = k
  · subst hk
    rw [Table.get?_erase_self, if_pos List.mem_cons_self]
  · rw [Table.get?_erase_of_ne hk, h k']
    simp only [List.mem_cons, hk, false_or]

/-- An entry that is left is an entry of the whole, under a key that is not done. -/
theorem Remains.get?_eq_some (h : Remains whole done rest) (hk : rest.get? k = some v) :
    k ∉ done ∧ whole.get? k = some v := by
  rw [h k] at hk
  by_cases hdone : k ∈ done
  · rw [if_pos hdone] at hk
    exact absurd hk (by simp)
  · rw [if_neg hdone] at hk
    exact ⟨hdone, hk⟩

/-- A key without an entry left is done, or it never had one. -/
theorem Remains.get?_eq_none (h : Remains whole done rest) (hk : rest.get? k = none) :
    k ∈ done ∨ whole.get? k = none := by
  rw [h k] at hk
  by_cases hdone : k ∈ done
  · exact Or.inl hdone
  · rw [if_neg hdone] at hk
    exact Or.inr hk

end Remains

end XdrCompiler
