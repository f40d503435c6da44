/-
# XdrCompiler.Report.TypesTable -- the list of types

One row for each type whose name contains the filter, without regard to case:
its name, its kind, the number of names that it needs, and whether it is
generated unconditionally or behind the feature gate. An empty filter is no
filter.
-/
import XdrCompiler.Schema.Builder
import XdrCompiler.Text.Lines
import XdrCompiler.Text.LowerCase

namespace XdrCompiler

open Text (joinLines padLeft padRight)

/-- A row of the list. -/
structure TypeRow where
  name : String
  label : XdrType.Label
  needs : Nat
  isMain : Bool
  deriving DecidableEq, Repr

/-- Whether `needle` occurs in `text`. -/
def occursIn (needle : List Char) : List Char → Bool
  | [] => needle.isEmpty
  | c :: rest => needle.isPrefixOf (c :: rest) || occursIn needle rest

/-- Whether a name passes the filter. -/
def passesFilter (filter : Option String) (name : String) : Bool :=
  match filter with
  | none => true
  | some text =>
    -- Both sides are put into lower case as whole texts.
    text == "" || occursIn (Text.lower text).toList (Text.lower name).toList

/-- The rows of the types that pass the filter, in the order of the type table. -/
def typeRows (schema : Schema) (main : NameSet) (filter : Option String) : List TypeRow :=
  (schema.types.entries.filter fun e => passesFilter filter e.1).map fun e =>
    ⟨e.1, e.2.label, e.2.dependencies.size, decide (e.1 ∈ main)⟩

/-- The width of the first column. -/
def nameWidth (rows : List TypeRow) : Nat :=
  rows.foldl (fun width row => max width row.name.toList.length) 4

def TypeRow.line (width : Nat) (row : TypeRow) : String :=
  "  " ++ padRight width row.name ++ "  " ++ padRight 8 row.label.text ++ "  " ++
    padLeft 4 (toString row.needs) ++ "  " ++ if row.isMain then "root" else "gated"

/-- The list of types. `shownFilter` is how the filter is named if nothing passes
it. -/
def typesTable (schema : Schema) (main : NameSet) (filter : Option String)
    (shownFilter : String) : String :=
  let rows := typeRows schema main filter
  let title :=
    "Types in schema (" ++ toString rows.length ++ " of " ++ toString schema.types.size ++ "):"
  let body :=
    match rows with
    | [] => ["  (no types match '" ++ shownFilter ++ "')"]
    | rows =>
      let width := nameWidth rows
      ("  " ++ padRight width "Name" ++ "  " ++ padRight 8 "Kind" ++ "  " ++ padLeft 4 "Deps" ++
        "  Emit") :: rows.map (·.line width)
  joinLines (title :: "" :: body) ++ "\n"

end XdrCompiler
