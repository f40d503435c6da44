/-
# XdrCompiler.Report.Counts -- how many types of each kind

Each kind of entry is counted three times: in all, among the main types, and
behind the feature gate.
-/
import XdrCompiler.Schema.Builder

namespace XdrCompiler

/-- The number of types of one kind, and how they divide. -/
structure KindCount where
  total : Int
  root : Int
  gated : Int
  deriving DecidableEq, Repr

structure Counts where
  typedefs : KindCount
  enums : KindCount
  structs : KindCount
  unions : KindCount
  constants : Int
  deriving DecidableEq, Repr

/-- The names of the entries with a given label, in order. -/
def namesLabelled (label : XdrType.Label) (types : Table String XdrType) : List String :=
  (types.entries.filter fun e => e.2.label == label).map Prod.fst

/-- Counts names and those of them that are main types. -/
def KindCount.ofNames (main : NameSet) (names : List String) : KindCount :=
  let root := (names.filter (· ∈ main)).length
  { total := names.length, root := root, gated := names.length - root }

/-- The counts of a schema. -/
def Counts.ofSchema (schema : Schema) (main : NameSet) : Counts :=
  let count label := KindCount.ofNames main (namesLabelled label schema.types)
  { typedefs := count .typeAlias
    enums := count .enum
    structs := count .struct
    unions := count .union
    constants := schema.constants.size }

end XdrCompiler
