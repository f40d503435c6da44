/-
# XdrCompiler.Schema.Union -- compiling unions

A union switches on a discriminant. Each listed switch value becomes a variant,
with the payload of the arm that it selects. Values of the discriminant that
are not listed go to a default variant, which exists when the definition asks
for it or when the listed values cannot be all there are; that is judged by
their number alone.

The checks run in a fixed order: the discriminant has a Rust type, a default
arm has no payload, then switch by switch a fresh variant name, an arm that is
there, a payload with a Rust type, and last that the default variant's name is
free.
-/
import XdrCompiler.Schema.Reference
import XdrCompiler.Table

namespace XdrCompiler

/-! ## Definitions -/

/-- What a switch value selects. -/
inductive Arm
  /-- No payload. -/
  | empty
  /-- The arm with the given name. -/
  | named (key : String)
  /-- Something that names no arm. -/
  | foreign
  deriving DecidableEq, Repr

/-- A union as it is registered. -/
structure UnionDefinition where
  /-- The discriminant: an integer type, `bool`, or a reference to an enum. -/
  switchOn : XdrType
  /-- The discriminant's name in the XDR source; it has no part in the Rust text. -/
  switchName : String
  switches : List (SwitchValue × Arm)
  arms : Table String XdrType
  defaultArm : Option XdrType

/-! ## Switch values -/

/-- The name of the variant for a switch value. -/
def SwitchValue.ident : SwitchValue → String
  | .truth true => "True"
  | .truth false => "False"
  | .label s => Naming.pascalCase s
  | .number n => if n < 0 then "VNeg" ++ toString (-n) else "V" ++ toString n

/-- The expression that is encoded for a switch value of the discriminant type. -/
def SwitchValue.encoded (discriminant : String) : SwitchValue → String
  | .truth true => "true"
  | .truth false => "false"
  | .label s => discriminant ++ "::" ++ Naming.pascalCase s
  | .number n => "(" ++ toString n ++ " as " ++ discriminant ++ ")"

/-- The pattern that a decoded switch value is matched with. -/
def SwitchValue.pattern (discriminant : String) : SwitchValue → String
  | .truth true => "true"
  | .truth false => "false"
  | .label s => discriminant ++ "::" ++ Naming.pascalCase s
  | .number n => toString n

namespace SwitchValue

variable (discriminant s : String) (n : Int)

@[simp] theorem encoded_number :
    (number n).encoded discriminant = "(" ++ toString n ++ " as " ++ discriminant ++ ")" := rfl

@[simp] theorem encoded_label :
    (label s).encoded discriminant = discriminant ++ "::" ++ Naming.pascalCase s := rfl

@[simp] theorem encoded_truth (b : Bool) :
    (truth b).encoded discriminant = if b then "true" else "false" := by
  cases b <;> rfl

@[simp] theorem pattern_number : (number n).pattern discriminant = toString n := rfl

@[simp] theorem pattern_label :
    (label s).pattern discriminant = discriminant ++ "::" ++ Naming.pascalCase s := rfl

@[simp] theorem pattern_truth (b : Bool) :
    (truth b).pattern discriminant = if b then "true" else "false" := by
  cases b <;> rfl

end SwitchValue

/-- Whether `count` switches can be all values of the discriminant: never for an
integer, two for `bool`, and as many as there are cases for an enum. -/
def XdrType.isExhaustedBy (resolved : XdrType) (count : Int) : Bool :=
  match resolved with
  | .bool => 2 ≤ count
  | .enum decl => (decl.caseCount : Int) ≤ count
  | _ => false

/-! ## Compiling -/

/-- The payload that a key selects; an arm without a definition counts as none. -/
def UnionDefinition.payload? (d : UnionDefinition) (key : String) : Option XdrType :=
  (d.arms.get? key).bind XdrType.defined?

/-- The variant for one switch, with the names that it holds by value. -/
def Variant.compile (boxedBeginnings : List String) (unionName : String) (d : UnionDefinition)
    (value : SwitchValue) (arm : Arm) : Except Failure (Variant × NameSet) :=
  match arm with
  | .empty => .ok (⟨value.ident, value, none⟩, .empty)
  | .foreign => .error (.schema (.missingArm unionName value.ident))
  | .named key =>
    match d.payload? key with
    | none => .error (.schema (.missingArm unionName value.ident))
    | some payload =>
      (payload.toMember unionName).map fun type =>
        let boxed := startsWithAny boxedBeginnings type.callable
        (⟨value.ident, value, some ⟨type, boxed⟩⟩,
          if boxed then .empty else payload.memberHeld unionName)

/-- The variants for the switches in order; `taken` has the names already used. -/
def Variant.compileAll (boxedBeginnings : List String) (unionName : String) (d : UnionDefinition)
    (taken : List String) : List (SwitchValue × Arm) → Except Failure (List (Variant × NameSet))
  | [] => .ok []
  | (value, arm) :: rest =>
    if value.ident ∈ taken then .error (.schema (.repeatedCase unionName value.ident))
    else do
      let first ← compile boxedBeginnings unionName d value arm
      let others ← compileAll boxedBeginnings unionName d (value.ident :: taken) rest
      return first :: others

/-- Whether the default arm, if there is one, carries something. -/
def UnionDefinition.defaultHasPayload (d : UnionDefinition) : Bool :=
  match d.defaultArm with
  | none => false
  | some t => t != .void

/-- Whether a default variant is needed. -/
def UnionDefinition.needsDefault (d : UnionDefinition) (resolved : XdrType) : Bool :=
  d.defaultArm.isSome || !resolved.isExhaustedBy d.switches.length

/-- The declaration of a union whose discriminant resolves to `resolved`. -/
def UnionDecl.compile (boxedBeginnings : List String) (name : String) (d : UnionDefinition)
    (resolved : XdrType) : Except Failure UnionDecl := do
  -- The discriminant comes first: its type is written whatever the switches are.
  let discriminant ← d.switchOn.toRust
  if d.defaultHasPayload then
    throw (.schema (.defaultWithPayload name))
  let compiled ← Variant.compileAll boxedBeginnings name d [] d.switches
  let variants := compiled.map Prod.fst
  if d.needsDefault resolved && variants.any (·.ident == "Default") then
    throw (.schema (.defaultTaken name))
  return {
    name := name
    discriminant := discriminant
    variants := variants
    hasDefault := d.needsDefault resolved
    -- Arms that no switch selects count as well.
    referred :=
      (NameSet.unionAll (d.arms.values.map XdrType.dependencies)).union d.switchOn.dependencies
    held := d.switchOn.heldDependencies.union (NameSet.unionAll (compiled.map Prod.snd)) }

end XdrCompiler
