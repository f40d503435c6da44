/-
# XdrCompiler.Schema.Enum -- compiling enums

An enum is a table from case names to numbers. Each case keeps its place and
its number and takes its capitalized name.
-/
import XdrCompiler.Naming.Words
import XdrCompiler.Schema.Type
import XdrCompiler.Table

namespace XdrCompiler

/-- The declaration of an enum with the given cases. -/
def EnumDecl.compile (name : String) (cases : Table String Int) : EnumDecl where
  name := name
  cases := cases.entries.map fun c => ⟨Naming.pascalCase c.1, c.2⟩

end XdrCompiler
