/-
# XdrCompiler.Naming.Accepted -- names a user may give

Three kinds of names come in on the command line and go unquoted into the
generated source or into a path: type names, names of cargo features, and the
name of the output file. Each kind has its own alphabet and its own first
character. All three disregard one newline at the very end of the name.
-/

namespace XdrCompiler.Naming

/-- Drops one newline from the end. -/
def chomp (cs : List Char) : List Char :=
  if cs.getLast? = some '\n' then cs.dropLast else cs

/-- A non-empty text whose first character satisfies `first` and whose others
satisfy `other`. -/
def startsAndContinues (first other : Char → Bool) : List Char → Bool
  | [] => false
  | c :: rest => first c && rest.all other

/-- An ASCII letter, digit or underscore. -/
def isIdentChar (c : Char) : Bool := c.isAlphanum || c == '_'

/-- An ASCII letter or underscore, then letters, digits and underscores. -/
def isTypeName (name : String) : Bool :=
  startsAndContinues (fun c => c.isAlpha || c == '_') isIdentChar (chomp name.toList)

/-- Letters, digits, underscores and hyphens, without a hyphen in front. -/
def isFeatureName (name : String) : Bool :=
  startsAndContinues isIdentChar (fun c => isIdentChar c || c == '-') (chomp name.toList)

/-- The part before a final `.rs`. -/
def stem? (cs : List Char) : Option (List Char) :=
  match cs.reverse with
  | 's' :: 'r' :: '.' :: rest => some rest.reverse
  | _ => none

/-- Letters, digits, underscores, hyphens and dots, then `.rs`, without a hyphen
or dot in front. -/
def isFileName (name : String) : Bool :=
  match stem? (chomp name.toList) with
  | some stem =>
    startsAndContinues isIdentChar (fun c => isIdentChar c || c == '.' || c == '-') stem
  | none => false

end XdrCompiler.Naming
