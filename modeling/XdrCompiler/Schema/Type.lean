/-
# XdrCompiler.Schema.Type -- XDR types and declarations

An `XdrType` is what a schema can hold under a name: a descriptor built from
the XDR primitives, references and wrappers, or a compiled declaration of an
enum, struct or union. Declarations are data here; their Rust text is written
elsewhere.

A schema may also register a value that is no type at all. Such a value is
kept as it came, needs nothing, and is refused when a Rust type has to be
written for it. The missing value moreover counts as no definition.
-/
import XdrCompiler.NameSet
import XdrCompiler.Schema.RustType

namespace XdrCompiler

/-- A number of elements: given as a number, or by the name of a constant. -/
inductive Length
  | literal (n : Int)
  | constant (name : String)
  deriving DecidableEq, Repr

/-- The length that stands for "no bound". -/
def Length.unbounded : Length := .literal 0x7FFFFFFF

/-- The bound that a variable-length type has when it is asked for `given`. -/
def Length.bound (given : Option Length) : Option Length :=
  if given = some unbounded then none else given

/-- A value registered in place of a type. -/
inductive RawValue
  | missing
  | text (s : String)
  | number (n : Int)
  deriving DecidableEq, Repr

/-! ## Enums -/

/-- A case of an enum under its Rust name. -/
structure EnumCase where
  ident : String
  value : Int
  deriving DecidableEq, Repr

structure EnumDecl where
  name : String
  cases : List EnumCase
  deriving DecidableEq, Repr

def EnumDecl.caseCount (e : EnumDecl) : Nat := e.cases.length

/-! ## Structs -/

/-- A field of a struct. A boxed field holds a pointer to a value of its type. -/
structure FieldDecl where
  ident : String
  type : RustType
  boxed : Bool
  deriving DecidableEq, Repr

/-- A compiled struct. `referred` has the names that any field needs, `held`
those that are part of the value itself. -/
structure StructDecl where
  name : String
  fields : List FieldDecl
  referred : NameSet
  held : NameSet
  deriving DecidableEq

/-! ## Unions -/

/-- A value that a union switches on. -/
inductive SwitchValue
  | number (n : Int)
  | label (s : String)
  | truth (b : Bool)
  deriving DecidableEq, Repr

/-- What a variant carries. A boxed payload is behind a pointer. -/
structure Payload where
  type : RustType
  boxed : Bool
  deriving DecidableEq, Repr

/-- A variant of a union, for one of the listed switch values. -/
structure Variant where
  ident : String
  value : SwitchValue
  payload : Option Payload
  deriving DecidableEq, Repr

/-- A compiled union. With `hasDefault`, a last variant takes every value of the
discriminant that is not listed. -/
structure UnionDecl where
  name : String
  discriminant : RustType
  variants : List Variant
  hasDefault : Bool
  referred : NameSet
  held : NameSet
  deriving DecidableEq

/-! ## Types -/

/-- What a schema holds under a name. -/
inductive XdrType
  | reference (name : String)
  | int
  | uint
  | hyper
  | uhyper
  | bool
  | void
  | array (element : XdrType) (length : Length)
  | varArray (element : XdrType) (bound : Option Length)
  | bytes (length : Length)
  | varBytes (bound : Option Length)
  | string (bound : Option Length)
  | option (inner : XdrType)
  | enum (decl : EnumDecl)
  | struct (decl : StructDecl)
  | union (decl : UnionDecl)
  | raw (value : RawValue)
  deriving DecidableEq

namespace XdrType

instance : Inhabited XdrType := ⟨.raw .missing⟩

/-- The name of the kind, for the values that are types. -/
def kind? : XdrType → Option String
  | .reference _ => some "reference"
  | .int => some "int"
  | .uint => some "uint"
  | .hyper => some "hyper"
  | .uhyper => some "uhyper"
  | .bool => some "bool"
  | .void => some "void"
  | .array _ _ => some "array"
  | .varArray _ (some _) => some "limitedVarArray"
  | .varArray _ none => some "unlimitedVarArray"
  | .bytes _ => some "opaque"
  | .varBytes (some _) => some "limitedVarOpaque"
  | .varBytes none => some "unlimitedVarOpaque"
  | .string (some _) => some "limitedString"
  | .string none => some "unlimitedString"
  | .option _ => some "option"
  | .enum _ => some "enum"
  | .struct _ => some "struct"
  | .union _ => some "union"
  | .raw _ => none

/-- How a report calls an entry of the type table. -/
inductive Label
  | typeAlias
  | enum
  | struct
  | union
  deriving DecidableEq, Repr

def Label.text : Label → String
  | .typeAlias => "typedef"
  | .enum => "enum"
  | .struct => "struct"
  | .union => "union"

/-- Declarations go by their kind, everything else is an alias. -/
def label : XdrType → Label
  | .enum _ => .enum
  | .struct _ => .struct
  | .union _ => .union
  | _ => .typeAlias

/-- The entry itself, unless it is the missing value. -/
def defined? : XdrType → Option XdrType
  | .raw .missing => none
  | t => some t

theorem eq_of_defined?_eq_some {t type : XdrType} (h : t.defined? = some type) : type = t := by
  unfold defined? at h
  split at h
  · exact absurd h (by simp)
  · exact (Option.some_inj.mp h).symm

/-! ## One-hop dependencies -/

/-- The names that a type needs, looking through all wrappers. -/
def dependencies : XdrType → NameSet
  | .reference name => .singleton name
  | .struct decl => decl.referred
  | .union decl => decl.referred
  | .array element _ => element.dependencies
  | .varArray element _ => element.dependencies
  | .option inner => inner.dependencies
  | _ => .empty

/-- The names whose values are part of a value of the type. A variable-length
array keeps its elements elsewhere, so it holds none. -/
def heldDependencies : XdrType → NameSet
  | .reference name => .singleton name
  | .struct decl => decl.held
  | .union decl => decl.held
  | .array element _ => element.heldDependencies
  | .option inner => inner.heldDependencies
  | _ => .empty

end XdrType

end XdrCompiler
