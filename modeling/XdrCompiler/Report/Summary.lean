/-
# XdrCompiler.Report.Summary -- the report after a run

What was generated from which schema, the counts of each kind, the groups of
types that will not compile, and the size of the written file. How a kind
divides is said only if some of it is gated. Numbers of lines and bytes have
commas between their groups of three digits.
-/
import XdrCompiler.Report.Counts
import XdrCompiler.Text.Lines

namespace XdrCompiler

open Text (grouped joinLines padLeft padRight)

structure Summary where
  schemaLabel : String
  /-- The absolute path of the written file. -/
  path : String
  feature : String
  counts : Counts
  unboxedCycles : List (List String)
  fileName : String
  lineCount : Int
  byteCount : Int

/-- The row of one kind. -/
def KindCount.line (label : String) (count : KindCount) : String :=
  let row := "    " ++ padRight 11 label ++ padLeft 6 (toString count.total)
  if 0 < count.gated then
    row ++ "  (" ++ toString count.root ++ " root + " ++ toString count.gated ++ " gated)"
  else row

/-- The section on types that contain themselves, or nothing. -/
def cycleSection (cycles : List (List String)) : List String :=
  if cycles.isEmpty then []
  else
    ["", "  Unboxed recursive types (will not compile):"] ++
      cycles.map fun group => "    " ++ ", ".intercalate group

/-- The text of the report. -/
def Summary.text (s : Summary) : String :=
  joinLines <|
    ["XDR types generated:",
     "",
     "  Schema:     " ++ s.schemaLabel,
     "  Output:     " ++ s.path,
     "  Feature:    " ++ s.feature,
     "",
     "  Types generated:",
     s.counts.typedefs.line "Typedefs:",
     s.counts.enums.line "Enums:",
     s.counts.structs.line "Structs:",
     s.counts.unions.line "Unions:",
     "    " ++ padRight 11 "Constants:" ++ padLeft 6 (toString s.counts.constants)] ++
    cycleSection s.unboxedCycles ++
    ["",
     "  Written: " ++ s.fileName ++ " (" ++ grouped s.lineCount ++ " lines, " ++
       grouped s.byteCount ++ " bytes)",
     ""]

end XdrCompiler
