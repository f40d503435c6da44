/-
# XdrCompiler.Source.File -- the generated source file

The file has a header, the imports, the constants if there are any, and one
block for each type, in the order of the type table and whether or not it is
needed. A type that is no main type stands behind a feature gate, which goes on
its definition and on its codec alike. The text ends in exactly one newline.
-/
import XdrCompiler.Schema.Builder
import XdrCompiler.Source.Declaration

namespace XdrCompiler

open Text (joinLines lines)

/-! ## Header -/

/-- What the file says about its own making. -/
structure Provenance where
  /-- The date of the run. -/
  generatedOn : String
  /-- The file name of the schema. -/
  schemaName : String
  /-- The cargo feature that gates the types not needed by the roots. -/
  feature : String

def defaultFeature : String := "all-types"

/-- The provenance for a run on a given day, which must have a date. -/
def Provenance.make (generatedOn schemaName feature : String) : Except Failure Provenance :=
  if generatedOn = "" then .error (.internal .emptyDate)
  else .ok ⟨generatedOn, schemaName, feature⟩

/-- The comment at the top of the file. -/
def headerLines (p : Provenance) : Except Failure (List String) :=
  if p.generatedOn = "" then .error (.internal .emptyDate)
  else .ok
    ["//! Autogenerated XDR types",
     "//!",
     "// This code has been automatically generated on " ++ p.generatedOn,
     "// from schema `" ++ p.schemaName ++ "` by xdrgen",
     "// Do not edit this file manually!"]

/-! ## Imports -/

/-- One `use` statement: a path and the names taken from it. -/
structure Import where
  path : String
  names : List String

/-- What every generated file uses. -/
def defaultImports : List Import :=
  [⟨"sp_std", ["prelude::*", "boxed::Box"]⟩,
   ⟨"core::convert", ["AsRef"]⟩,
   ⟨"super::xdr_codec", ["XdrCodec"]⟩,
   ⟨"super::streams", ["ReadStream", "DecodeError", "WriteStream"]⟩,
   ⟨"super::compound_types",
    ["LimitedVarOpaque", "LimitedString", "LimitedVarArray", "UnlimitedVarOpaque",
     "UnlimitedString", "UnlimitedVarArray"]⟩]

/-- The lines of one import, which must take a name. -/
def Import.lines (i : Import) : Except Failure (List String) :=
  match i.names with
  | [] => .error (.internal (.emptyImport i.path))
  | [name] => .ok ["#[allow(unused_imports)]", "use " ++ i.path ++ "::" ++ name ++ ";"]
  | names =>
    .ok ["#[allow(unused_imports)]",
         "use " ++ i.path ++ "::\x7b" ++ ", ".intercalate names ++ "\x7d;"]

/-- The lines of all imports, up to the first that takes nothing. -/
def importLines : List Import → Except Failure (List String)
  | [] => .ok []
  | i :: rest => do
    let first ← i.lines
    let others ← importLines rest
    return first ++ others

/-! ## Constants -/

/-- The characters of a string literal between its quotes. -/
def escapeLiteral : List Char → List Char
  | [] => []
  | c :: rest =>
    if c = '\\' ∨ c = '"' then '\\' :: c :: escapeLiteral rest else c :: escapeLiteral rest

/-- The Rust type of a constant. -/
def ConstantValue.typeText : ConstantValue → String
  | .text _ => "&str"
  | .number n => if -2147483648 ≤ n ∧ n ≤ 2147483647 then "i32" else "i64"

/-- The literal for a constant. -/
def ConstantValue.literal : ConstantValue → String
  | .text s => String.ofList ('"' :: escapeLiteral s.toList ++ ['"'])
  | .number n => toString n

/-- The declaration of one constant. -/
def constantBlock (name : String) (value : ConstantValue) : List String :=
  ["/// Autogenerated definition for constant " ++ name,
   "#[allow(dead_code)]",
   "pub const " ++ Naming.constantCase name ++ ": " ++ value.typeText ++ " = " ++ value.literal ++
     ";"]

def constantLines (constants : Table String ConstantValue) : List String :=
  constants.entries.flatMap fun c => constantBlock c.1 c.2

/-! ## Types -/

/-- The attribute that leaves an item out unless the feature is on. -/
def gateLines (gated : Bool) (feature : String) : List String :=
  if gated then ["#[cfg(feature = \"" ++ feature ++ "\")]"] else []

/-- What the Rust text of an entry consists of: an alias, or the derived traits,
the definition and the codec of a declaration. -/
inductive ItemText
  | synonym (target : String)
  | declaration (derives definition implementation : String)

/-- The text of an entry of the type table. -/
def XdrType.itemText : XdrType → Except Failure ItemText
  | .enum e =>
    .ok (.declaration "Debug, Copy, Clone, Eq, PartialEq" e.definition e.implementation)
  | .struct s => .ok (.declaration "Debug, Clone, Eq, PartialEq" s.definition s.implementation)
  | .union u => .ok (.declaration "Debug, Clone, Eq, PartialEq" u.definition u.implementation)
  | t => t.declaredText.map .synonym

/-- The lines that follow the attributes of an entry. -/
def itemLines (name : String) (gate : List String) : ItemText → List String
  | .synonym target => ["pub type " ++ name ++ " = " ++ target ++ ";"]
  | .declaration derives definition implementation =>
    ["#[derive(" ++ derives ++ ")]"] ++
    lines definition ++
    [""] ++
    gate ++
    ["impl XdrCodec for " ++ name ++ " \x7b"] ++
    lines implementation ++
    ["\x7d"]

/-- The block of one entry; it ends with a blank line. -/
def typeLines (name : String) (type : XdrType) (gated : Bool) (feature : String) :
    Except Failure (List String) :=
  type.itemText.map fun item =>
    ["/// Autogenerated definition for type " ++ name, "#[allow(dead_code)]"] ++
    gateLines gated feature ++
    itemLines name (gateLines gated feature) item ++
    [""]

/-- The blocks of the entries in order, up to the first that has no Rust text. -/
def typeBlocks (main : NameSet) (feature : String) :
    List (String × XdrType) → Except Failure (List String)
  | [] => .ok []
  | (name, type) :: rest => do
    let first ← typeLines name type (decide (name ∉ main)) feature
    let others ← typeBlocks main feature rest
    return first ++ others

/-! ## The file -/

/-- The constants with a blank line after them, or nothing. -/
def constantSection (constants : Table String ConstantValue) : List String :=
  if constants.entries.isEmpty then [] else constantLines constants ++ [""]

/-- The text of the generated file. -/
def assemble (p : Provenance) (schema : Schema) (main : NameSet) : Except Failure String := do
  let header ← headerLines p
  let imports ← importLines defaultImports
  let blocks ← typeBlocks main p.feature schema.types.entries
  let parts := header ++ [""] ++ imports ++ [""] ++ constantSection schema.constants ++ blocks
  return Text.dropFinalNewlines (joinLines parts) ++ "\n"

end XdrCompiler
