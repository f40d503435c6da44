/-
# XdrCompiler.Document.Types -- reading types

A type is an object with a kind; a bare text, number or null is a value that is
no type. Enum and struct objects stand for compiled declarations, so reading a
type can fail as compiling one does.
-/
import XdrCompiler.Document.Value
import XdrCompiler.Schema.Builder

namespace XdrCompiler.Document

/-- The failure of a document that lacks what its kind needs. -/
def incomplete : Failure := .defect .noEntry

/-- The text under a key. -/
def textAt (d : Document) (key : String) : Except Failure String :=
  match (d.field? key).bind fun v => v.1.text? with
  | some s => .ok s
  | none => .error incomplete

/-- A length: a number, or a reference to a constant. -/
def toLength (d : Document) : Except Failure Length :=
  match d with
  | .number n => .ok (.literal n)
  | d => (d.textAt "name").map .constant

/-- The length under a key. -/
def lengthAt (d : Document) (key : String) : Except Failure Length :=
  match d.field? key with
  | some v => v.1.toLength
  | none => .error incomplete

/-- The bound under the key `max_length`, which may be absent. -/
def boundOf (d : Document) : Except Failure (Option Length) :=
  match d.field? "max_length" with
  | none => .ok none
  | some ⟨.null, _⟩ => .ok none
  | some v => v.1.toLength.map fun n => Length.bound (some n)

/-- A table from the pairs of a list. -/
def toCases (d : Document) : Table String Int :=
  Table.ofList (d.pairs.filterMap fun p =>
    match p.1.text?, p.2.1.number? with
    | some key, some value => some (key, value)
    | _, _ => none)

/-- The kinds of type without parts. -/
def simpleType? : String → Option XdrType
  | "int" => some .int
  | "uint" => some .uint
  | "hyper" => some .hyper
  | "uhyper" => some .uhyper
  | "bool" => some .bool
  | "void" => some .void
  | "unlimitedVarOpaque" => some (.varBytes none)
  | "unlimitedString" => some (.string none)
  | _ => none

/-- Reads a type. -/
def toType (d : Document) : Except Failure XdrType :=
  match d.field? "kind" with
  | none =>
    match d with
    | .text s => .ok (.raw (.text s))
    | .number n => .ok (.raw (.number n))
    | _ => .ok (.raw .missing)
  | some kind =>
    match kind.1.text? with
    | none => .error incomplete
    | some "reference" => (d.textAt "name").map .reference
    | some "opaque" => (d.lengthAt "length").map .bytes
    | some "limitedVarOpaque" => (d.lengthAt "max_length").map fun n => .varBytes (some n)
    | some "limitedString" => (d.lengthAt "max_length").map fun n => .string (some n)
    | some "var_opaque" => d.boundOf.map .varBytes
    | some "string" => d.boundOf.map .string
    | some "enum" => do
      let name ← d.textAt "name"
      match d.field? "cases" with
      | none => throw incomplete
      | some cases => return .enum (EnumDecl.compile name cases.1.toCases)
    | some "struct" => do
      let name ← d.textAt "name"
      match d.field? "fields" with
      | none => throw incomplete
      | some fields =>
        let members ← fields.1.pairs.mapM fun p => do
          let type ← p.2.1.toType
          return (p.1.text?.getD "", type)
        let decl ← StructDecl.compile defaultBoxedBeginnings name members
        return .struct decl
    | some kind =>
      match simpleType? kind with
      | some type => .ok type
      | none => do
        match d.field? "inner" with
        | none => throw incomplete
        | some inner =>
          let element ← inner.1.toType
          match kind with
          | "option" => return .option element
          | "array" => return .array element (← d.lengthAt "length")
          | "limitedVarArray" => return .varArray element (some (← d.lengthAt "max_length"))
          | "unlimitedVarArray" => return .varArray element none
          | "var_array" => return .varArray element (← d.boundOf)
          | _ => throw incomplete
termination_by sizeOf d
decreasing_by
  · exact Nat.lt_trans p.2.2 fields.2
  · exact inner.2

/-- A list of keyed types. -/
def toFields (d : Document) : Except Failure (List (String × XdrType)) :=
  d.pairs.mapM fun p => do
    let type ← p.2.1.toType
    return (p.1.text?.getD "", type)

end XdrCompiler.Document
