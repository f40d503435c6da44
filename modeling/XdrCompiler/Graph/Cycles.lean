/-
# XdrCompiler.Graph.Cycles -- types that contain themselves

A type contains another by value when its Rust form stores it directly. Types
that contain each other by value have no size. They are found by computing, for
each name, all names that it contains over one or more steps: a name is on a
cycle when it contains itself, and its group are the names that it contains and
that contain it.
-/
import XdrCompiler.Schema.Type
import XdrCompiler.Table

namespace XdrCompiler

/-- `b` is in the table, and the entry of `a` holds it by value. -/
def Contains (types : Table String XdrType) (a b : String) : Prop :=
  b ∈ types.keys ∧ ∃ t, types.get? a = some t ∧ b ∈ t.heldDependencies

/-- The by-value edges of a table: under each name, the names of the table that
its entry holds by value. -/
def containedIn (types : Table String XdrType) : Table String (List String) :=
  types.map fun _ t => t.heldDependencies.toList.filter (· ∈ types.keys)

@[simp] theorem keys_containedIn (types : Table String XdrType) :
    (containedIn types).keys = types.keys :=
  Table.keys_map _ types

theorem exists_mem_containedIn {types : Table String XdrType} {a b : String} :
    (∃ next, (containedIn types).get? a = some next ∧ b ∈ next) ↔ Contains types a b := by
  unfold containedIn Contains
  cases h : types.get? a with
  | none => simp [h]
  | some t => simp [h, NameSet.mem_def, and_comm]

/-- Follows edges from a stack of names. `fresh` has the edges of the names that
were not met yet. -/
def containedFrom (fresh : Table String (List String)) (stack met : List String) : List String :=
  match stack with
  | [] => met
  | name :: rest =>
    match _h : fresh.get? name with
    | none => containedFrom fresh rest met
    | some next => containedFrom (fresh.erase name) (next ++ rest) (name :: met)
termination_by (fresh.size, stack.length)
decreasing_by
  · exact Prod.Lex.right _ (by simp)
  · exact Prod.Lex.left _ _ (Table.size_erase_lt _h)

/-- The names that each name contains by value, over one or more steps. -/
def containedNames (types : Table String XdrType) : Table String (List String) :=
  let edges := containedIn types
  edges.map fun _ next => containedFrom edges next []

/-- Collects the groups of the given names, passing over those that are in a
group already. -/
def groupCycles (reach : String → List String) (assigned : List String) :
    List String → List (List String)
  | [] => []
  | name :: rest =>
    if name ∈ assigned ∨ name ∉ reach name then groupCycles reach assigned rest
    else
      let group := (NameSet.ofList ((reach name).filter fun other => name ∈ reach other)).toList
      group :: groupCycles reach (group ++ assigned) rest

/-- The groups of types that contain each other by value, each in ascending order,
by the place of their first member in the table. -/
def unboxedCycles (types : Table String XdrType) : List (List String) :=
  let reach := containedNames types
  groupCycles (fun name => (reach.get? name).getD []) [] types.keys

end XdrCompiler
