/-
# XdrCompiler.Document.Registration -- reading registrations

A schema document lists the registrations of a schema, each as an object. An
object that cannot be read is a registration that fails, in its turn.
-/
import XdrCompiler.Document.Union

namespace XdrCompiler.Document

/-- The value of a constant. -/
def toConstant : Document → Except Failure ConstantValue
  | .number n => .ok (.number n)
  | .text s => .ok (.text s)
  | _ => .error incomplete

/-- The part under a key that has to be there. -/
def partAt (d : Document) (key : String) : Except Failure Document :=
  match d.field? key with
  | some v => .ok v.1
  | none => .error incomplete

/-- The part under a key, if it is there and not null. -/
def given? (d : Document) (key : String) : Option Document :=
  match d.field? key with
  | none => none
  | some ⟨.null, _⟩ => none
  | some v => some v.1

/-- Reads the registration of the given kind. -/
def toRegistration? (kind : String) (d : Document) : Option (Except Failure Registration) :=
  match kind with
  | "typedef" => some do
    return .typeAlias (← d.textAt "name") (← (← d.partAt "type").toType)
  | "enum" => some do
    return .enum (← d.textAt "name") (← d.partAt "cases").toCases
  | "struct" => some do
    return .struct (← d.textAt "name") (← (← d.partAt "fields").toFields)
  | "union" => some do
    let parts := (d.given? "fields").getD (.object [])
    return .union (← d.textAt "name") (← toUnion (d.given? "definition") parts)
  | "const" => some do
    return .constant (← d.textAt "name") (← (← d.partAt "value").toConstant)
  | _ => none

/-- A registration of the given kind, or one that fails as reading it does. -/
def registration? (kind : String) (d : Document) : Option Registration :=
  (toRegistration? kind d).map fun
    | .ok r => r
    | .error failure => .failing failure

end XdrCompiler.Document
