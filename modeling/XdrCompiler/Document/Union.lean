/-
# XdrCompiler.Document.Union -- reading unions

The definition of a union is an object with a key for each of its parts. The
parts are read one by one, as the object has them, and only then is it asked
whether they make a definition. So a part that cannot be read decides the
failure, whatever else is missing.

A registration gives a definition whole or its parts singly, and not both.
Among single parts, `definition` stands for the whole one, and `self` and `name`
are taken: they would be given twice.
-/
import XdrCompiler.Document.Types

namespace XdrCompiler.Document

/-! ## Parts -/

/-- A switch value: a number, a text or a truth value. -/
def toSwitchValue : Document → Except Failure SwitchValue
  | .number n => .ok (.number n)
  | .text s => .ok (.label s)
  | .bool b => .ok (.truth b)
  | _ => .error incomplete

/-- What a switch selects. A type other than void selects no arm, but has to be
one that can be read. -/
def toArm : Document → Except Failure Arm
  | .null => .ok .empty
  | .text s => .ok (.named s)
  | d => d.toType.map fun t => if t = .void then .empty else .foreign

def toSwitches (d : Document) : Except Failure (List (SwitchValue × Arm)) :=
  d.pairs.mapM fun p => do
    let value ← p.1.toSwitchValue
    let arm ← p.2.1.toArm
    return (value, arm)

/-- The parts of a union definition that an object has. -/
structure DefinitionParts where
  switchOn : Option XdrType := none
  switchName : Option String := none
  switches : Option (List (SwitchValue × Arm)) := none
  arms : Option (List (String × XdrType)) := none
  /-- The default arm; the missing value is none. -/
  defaultArm : Option XdrType := none
  /-- The keys that are not those of a part. -/
  others : List String := []

namespace DefinitionParts

/-- Adds what stands under one key. -/
def take (parts : DefinitionParts) (key : String) (value : Document) :
    Except Failure DefinitionParts :=
  match key with
  | "switch_on" => value.toType.map fun t => { parts with switchOn := some t }
  | "switch_name" => .ok { parts with switchName := some (value.text?.getD "") }
  | "switches" => value.toSwitches.map fun l => { parts with switches := some l }
  | "arms" => value.toFields.map fun l => { parts with arms := some l }
  | "default_arm" => value.toType.map fun t => { parts with defaultArm := t.defined? }
  | _ => .ok { parts with others := parts.others ++ [key] }

/-- The definition that the parts make, if all but the default arm are there and
nothing else is. -/
def definition (parts : DefinitionParts) : Except Failure UnionDefinition :=
  match parts.switchOn, parts.switchName, parts.switches, parts.arms, parts.others with
  | some switchOn, some switchName, some switches, some arms, [] =>
    .ok ⟨switchOn, switchName, switches, Table.ofList arms, parts.defaultArm⟩
  | _, _, _, _, _ => .error (.defect .wrongShape)

end DefinitionParts

/-- Reads the parts of a union definition. -/
def toParts (d : Document) : Except Failure DefinitionParts :=
  d.fields.foldlM (fun parts field => parts.take field.1 field.2) {}

/-- Reads a union definition. -/
def toDefinition (d : Document) : Except Failure UnionDefinition :=
  d.toParts.bind DefinitionParts.definition

/-! ## Both forms -/

/-- The failure of a union that is given whole and by the parts with these keys. -/
def givenTwice (keys : List String) : Failure :=
  .defect (.bothForms (NameSet.ofList keys).toList)

/-- The definition of a union given by its parts. Something else than a definition
may stand in its place. -/
def ofParts (parts : DefinitionParts) (given : Document) :
    Except Failure (Option UnionDefinition) :=
  match given.field? "definition" with
  | none => parts.definition.map some
  | some ⟨.null, _⟩ =>
    { parts with others := parts.others.filter (· ≠ "definition") }.definition.map some
  | some _ =>
    let rest := given.keys.filter (· ≠ "definition")
    if rest.isEmpty then .ok none else .error (givenTwice rest)

/-- The definition of a union, from a whole one and from single parts. Both are
read before they are compared, the single parts first. -/
def toUnion (whole : Option Document) (given : Document) :
    Except Failure (Option UnionDefinition) := do
  let parts ← given.toParts
  let taken := given.keys.any (· ∈ ["self", "name"])
  match whole with
  | none => if taken then throw (.defect .wrongShape) else ofParts parts given
  | some d =>
    let definition ← d.toDefinition
    if taken || given.keys.contains "definition" then throw (.defect .wrongShape)
    else if given.keys.isEmpty then return some definition
    else throw (givenTwice given.keys)

end XdrCompiler.Document
