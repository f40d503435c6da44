/-
# XdrCompiler.Naming.Reserved -- field names that are no keywords

A field is named by the snake case of its key. Where that is a word which Rust
keeps for itself, an underscore at the end makes it usable.
-/
import XdrCompiler.Naming.Words

namespace XdrCompiler.Naming

/-- The keywords of Rust, strict ones first and then those kept for later use. -/
def reservedWords : List String :=
  ["as", "async", "await", "break", "const", "continue", "crate", "dyn", "else", "enum", "extern",
   "false", "fn", "for", "if", "impl", "in", "let", "loop", "match", "mod", "move", "mut", "pub",
   "ref", "return", "self", "Self", "static", "struct", "super", "trait", "true", "type", "unsafe",
   "use", "where", "while", "abstract", "become", "box", "do", "final", "macro", "override", "priv",
   "try", "typeof", "unsized", "virtual", "yield"]

/-- The identifier of the field with the given key. -/
def fieldIdentifier (key : String) : String :=
  if snakeCase key ∈ reservedWords then snakeCase key ++ "_" else snakeCase key

end XdrCompiler.Naming
