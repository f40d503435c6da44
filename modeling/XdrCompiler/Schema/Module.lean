/-
# XdrCompiler.Schema.Module -- schema modules

A schema module is a source file that describes a schema. Executing it can fail
on its own account; otherwise it may offer a definition, which is the list of
registrations that it makes.
-/
import XdrCompiler.Schema.Builder

namespace XdrCompiler

/-- What executing a schema module does. -/
inductive SchemaModule
  /-- It offers a definition that makes the given registrations. -/
  | defining (registrations : List Registration)
  /-- It offers nothing that can be called as a definition. -/
  | withoutDefinition
  | failing (failure : Failure)

end XdrCompiler
