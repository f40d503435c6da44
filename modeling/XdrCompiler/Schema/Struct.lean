/-
# XdrCompiler.Schema.Struct -- compiling structs

A struct is a list of keyed fields. If the name of the struct starts with one
of the boxed beginnings, its first field, and no other, is put behind a
pointer. The struct needs every name that some field needs. It holds the names
that its fields hold, apart from a boxed first field and from optional
references back to the struct, both of which are pointers.

The first field without a Rust type decides the error.
-/
import XdrCompiler.Naming.Reserved
import XdrCompiler.Schema.Reference

namespace XdrCompiler

/-- A field of `owner`, behind a pointer or not. -/
def FieldDecl.compile (owner : String) (boxed : Bool) (field : String × XdrType) :
    Except Failure FieldDecl :=
  (field.2.toMember owner).map fun type => ⟨Naming.fieldIdentifier field.1, type, boxed⟩

/-- The fields in order; `boxed` is about the first of them only. -/
def FieldDecl.compileAll (owner : String) (boxed : Bool) :
    List (String × XdrType) → Except Failure (List FieldDecl)
  | [] => .ok []
  | field :: rest => do
    let first ← compile owner boxed field
    let others ← compileAll owner false rest
    return first :: others

/-- The names that each field of `owner` holds by value, `boxed` being about the
first of them. -/
def heldByFields (owner : String) (boxed : Bool) : List (String × XdrType) → List NameSet
  | [] => []
  | field :: rest =>
    (if boxed then .empty else field.2.memberHeld owner) :: heldByFields owner false rest

/-- The declaration of a struct with the given fields. -/
def StructDecl.compile (boxedBeginnings : List String) (name : String)
    (fields : List (String × XdrType)) : Except Failure StructDecl := do
  let boxed := startsWithAny boxedBeginnings name
  let decls ← FieldDecl.compileAll name boxed fields
  return {
    name := name
    fields := decls
    referred := NameSet.unionAll (fields.map fun field => field.2.dependencies)
    held := NameSet.unionAll (heldByFields name boxed fields) }

end XdrCompiler
