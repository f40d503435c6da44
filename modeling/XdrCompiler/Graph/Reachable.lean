/-
# XdrCompiler.Graph.Reachable -- the types that the roots need

The main types of a schema are the roots and everything that they need, over
any number of steps. They are collected with a stack of names that are known to
be needed and not yet looked at. A name is put on the stack only if it is
neither there nor looked at already, so each is taken off exactly once; the
table of entries not yet looked at shrinks with each step.

A needed name without a definition ends the search.
-/
import XdrCompiler.Schema.Discriminant

namespace XdrCompiler

/-- `b` is one of the names that the entry of `a` needs. -/
def Needs (types : Table String XdrType) (a b : String) : Prop :=
  ∃ t, types.get? a = some t ∧ b ∈ t.dependencies

/-- The result of a search: the names found and the steps that it took. -/
structure Reach where
  reached : NameSet
  rootCount : Nat
  steps : Nat

/-- The first occurrences in a list of names, in order. -/
def firstOccurrences : List String → List String
  | [] => []
  | name :: rest => name :: (firstOccurrences rest).filter (· ≠ name)

@[simp] theorem mem_firstOccurrences {names : List String} {a : String} :
    a ∈ firstOccurrences names ↔ a ∈ names := by
  induction names with
  | nil => simp [firstOccurrences]
  | cons n rest ih =>
    by_cases h : a = n
    · simp [firstOccurrences, h]
    · simp [firstOccurrences, h, ih]

theorem nodup_firstOccurrences (names : List String) : (firstOccurrences names).Nodup := by
  induction names with
  | nil => exact List.nodup_nil
  | cons n rest ih =>
    rw [firstOccurrences, List.nodup_cons]
    exact ⟨by simp, ih.filter _⟩

/-- Puts names on a stack, one after the other, unless they are known. -/
def pushFresh (known : List String) (stack : List String) : List String → List String
  | [] => stack
  | name :: rest =>
    if name ∈ known ∨ name ∈ stack then pushFresh known stack rest
    else pushFresh known (name :: stack) rest

/-- Works through the stack. `fresh` has the entries not looked at yet, `reached`
the names that were. -/
def reachFrom (fresh : Table String XdrType) (stack reached : List String) :
    Except Failure (List String) :=
  match stack with
  | [] => .ok reached
  | name :: rest =>
    match _h : fresh.get? name with
    | none => .error (.schema (.undefinedType name))
    | some entry =>
      match entry.defined? with
      | none => .error (.schema (.undefinedType name))
      | some type =>
        -- The last dependency pushed is the next name taken.
        reachFrom (fresh.erase name)
          (pushFresh (name :: reached) rest type.dependencies.toList) (name :: reached)
termination_by fresh.size
decreasing_by exact Table.size_erase_lt _h

/-- The names that the given roots need, the roots included. -/
def reachable (types : Table String XdrType) (roots : List String) : Except Failure Reach :=
  (reachFrom types (firstOccurrences roots).reverse []).map fun reached =>
    { reached := NameSet.ofList reached
      rootCount := (firstOccurrences roots).length
      steps := reached.length }

end XdrCompiler
