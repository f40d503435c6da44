/-
# XdrCompiler.Schema.Builder -- registering and building

Registration compiles enums and structs at once and stores them with the
typedefs and the constants. Unions wait: a union that switches on an enum needs
the enum's cases, so unions are compiled when the schema is built, in the order
of their registration and against the table as it stands by then. What was
registered in place of a definition is found out only then, too.

A registration that fails changes nothing. A build that fails keeps the unions
compiled before the failing one in the table, and keeps all of them waiting.
-/
import XdrCompiler.Schema.Discriminant
import XdrCompiler.Schema.Enum
import XdrCompiler.Schema.Struct
import XdrCompiler.Schema.Union

namespace XdrCompiler

/-- The value of a constant. -/
inductive ConstantValue
  | number (n : Int)
  | text (s : String)
  deriving DecidableEq, Repr

/-- A finished schema: its types and its constants, in order. -/
structure Schema where
  types : Table String XdrType
  constants : Table String ConstantValue

/-- The schema of nothing. -/
def Schema.empty : Schema := ⟨.empty, .empty⟩

/-- The beginnings of the type families that are boxed unless others are given. -/
def defaultBoxedBeginnings : List String := ["ScSpecType"]

/-! ## Registration -/

/-- One call that a schema module makes. -/
inductive Registration
  | typeAlias (name : String) (type : XdrType)
  | enum (name : String) (cases : Table String Int)
  | struct (name : String) (fields : List (String × XdrType))
  /-- A union, without a definition if something else was given in its place. -/
  | union (name : String) (definition : Option UnionDefinition)
  | constant (name : String) (value : ConstantValue)
  /-- A call that fails before it reaches the builder. -/
  | failing (failure : Failure)

/-- A schema that is being put together. -/
structure Builder where
  boxedBeginnings : List String
  types : Table String XdrType
  constants : Table String ConstantValue
  /-- The unions not yet compiled, in order of registration. -/
  pending : List (String × Option UnionDefinition)

namespace Builder

/-- A builder with nothing registered. -/
def new (boxedBeginnings : List String) : Builder := ⟨boxedBeginnings, .empty, .empty, []⟩

/-- Carries out one registration. -/
def register (b : Builder) : Registration → Except Failure Builder
  | .typeAlias name type => .ok { b with types := b.types.insert name type }
  | .enum name cases =>
    .ok { b with types := b.types.insert name (.enum (EnumDecl.compile name cases)) }
  | .struct name fields =>
    (StructDecl.compile b.boxedBeginnings name fields).map fun decl =>
      { b with types := b.types.insert name (.struct decl) }
  | .union name definition => .ok { b with pending := b.pending ++ [(name, definition)] }
  | .constant name value => .ok { b with constants := b.constants.insert name value }
  | .failing failure => .error failure

/-- Carries out registrations until one fails. -/
def registerAll (b : Builder) : List Registration → Except Failure Builder
  | [] => .ok b
  | r :: rest => (b.register r).bind fun b' => b'.registerAll rest

/-! ## Building -/

/-- The compiled form of a union, against the given table. -/
def compileUnion (boxedBeginnings : List String) (types : Table String XdrType) (name : String)
    (definition : Option UnionDefinition) : Except Failure UnionDecl :=
  match definition with
  | none => .error (.defect .noProperty)
  | some d =>
    (resolveDiscriminant types d.switchOn).bind (UnionDecl.compile boxedBeginnings name d)

/-- Compiles unions into the table, one after the other, until one fails. The
table comes back in either case. -/
def compilePending (boxedBeginnings : List String) (types : Table String XdrType) :
    List (String × Option UnionDefinition) → Table String XdrType × Option Failure
  | [] => (types, none)
  | (name, definition) :: rest =>
    match compileUnion boxedBeginnings types name definition with
    | .error failure => (types, some failure)
    | .ok decl => compilePending boxedBeginnings (types.insert name (.union decl)) rest

/-- Finishes the schema. The builder is good for further use afterwards. -/
def build (b : Builder) : Builder × Except Failure Schema :=
  match compilePending b.boxedBeginnings b.types b.pending with
  | (types, none) => ({ b with types := types, pending := [] }, .ok ⟨types, b.constants⟩)
  | (types, some failure) => ({ b with types := types }, .error failure)

end Builder

/-- The schema that a list of registrations defines. -/
def Schema.ofRegistrations (boxedBeginnings : List String) (registrations : List Registration) :
    Except Failure Schema :=
  ((Builder.new boxedBeginnings).registerAll registrations).bind fun b => b.build.2

end XdrCompiler
