/-
# XdrCompiler.Schema.RustType -- the types that generated source mentions

A `RustType` is a type expression of the generated source, before it is
written. It is written in two forms. In a field, a variant or a list of
generic arguments it stands as it is; in front of `::` a generic type needs a
second `::` before its arguments and an array type needs angle brackets around
it. Both forms come from one function, so that they agree on everything else.

Lengths and bounds are kept as the text that stands for them: a number, or the
name of a constant.
-/

namespace XdrCompiler

inductive Primitive
  | i32
  | u32
  | i64
  | u64
  | bool
  deriving DecidableEq, Repr

/-- A type expression of the generated source. -/
inductive RustType
  /-- A type that the source declares itself. -/
  | named (name : String)
  | primitive (p : Primitive)
  | array (element : RustType) (length : String)
  /-- A vector of elements; without a bound it is unlimited. -/
  | varArray (element : RustType) (bound : Option String)
  /-- A block of bytes of fixed length. -/
  | bytes (length : String)
  | varBytes (bound : Option String)
  | text (bound : Option String)
  | option (inner : RustType)
  /-- A declared type behind a pointer. -/
  | boxed (name : String)
  deriving DecidableEq, Repr

/-- The place where a type is written. -/
inductive Position
  /-- In a field, a variant or a generic argument list. -/
  | declared
  /-- In front of `::` and the name of a function. -/
  | callable
  deriving DecidableEq, Repr

def Primitive.name : Primitive → String
  | .i32 => "i32"
  | .u32 => "u32"
  | .i64 => "i64"
  | .u64 => "u64"
  | .bool => "bool"

namespace RustType

/-- What stands between a generic type and its arguments. -/
def separator : Position → String
  | .declared => ""
  | .callable => "::"

/-- An array type in its place. -/
def bracketed (p : Position) (element length : String) : String :=
  match p with
  | .declared => "[" ++ element ++ "; " ++ length ++ "]"
  | .callable => "<[" ++ element ++ "; " ++ length ++ "]>"

/-- The text of a type in a given place. -/
def write (p : Position) : RustType → String
  | .named name => name
  | .primitive q => q.name
  | .array element length => bracketed p (element.write p) length
  | .varArray element (some bound) =>
    "LimitedVarArray" ++ separator p ++ "<" ++ element.write p ++ ", " ++ bound ++ ">"
  | .varArray element none => "UnlimitedVarArray" ++ separator p ++ "<" ++ element.write p ++ ">"
  | .bytes length => bracketed p "u8" length
  | .varBytes (some bound) => "LimitedVarOpaque" ++ separator p ++ "<" ++ bound ++ ">"
  | .varBytes none => "UnlimitedVarOpaque"
  | .text (some bound) => "LimitedString" ++ separator p ++ "<" ++ bound ++ ">"
  | .text none => "UnlimitedString"
  | .option inner => "Option" ++ separator p ++ "<" ++ inner.write p ++ ">"
  | .boxed name => "Box<" ++ name ++ ">"

section

variable (p : Position) (name length bound : String) (element inner : RustType) (q : Primitive)

@[simp] theorem write_named : (named name).write p = name := rfl

@[simp] theorem write_primitive : (primitive q).write p = q.name := rfl

@[simp] theorem write_array :
    (array element length).write p = bracketed p (element.write p) length := rfl

@[simp] theorem write_varArray_some :
    (varArray element (some bound)).write p =
      "LimitedVarArray" ++ separator p ++ "<" ++ element.write p ++ ", " ++ bound ++ ">" := rfl

@[simp] theorem write_varArray_none :
    (varArray element none).write p =
      "UnlimitedVarArray" ++ separator p ++ "<" ++ element.write p ++ ">" := rfl

@[simp] theorem write_bytes : (bytes length).write p = bracketed p "u8" length := rfl

@[simp] theorem write_option :
    (option inner).write p = "Option" ++ separator p ++ "<" ++ inner.write p ++ ">" := rfl

@[simp] theorem write_boxed : (boxed name).write p = "Box<" ++ name ++ ">" := rfl

end

/-- The type as written in a field, a variant or a generic argument list. -/
def declared (t : RustType) : String := t.write .declared

/-- The type as written in front of `::from_xdr_buffered(..)`. -/
def callable (t : RustType) : String := t.write .callable

/-- The declared types that occur in a type expression. -/
def names : RustType → List String
  | .named name => [name]
  | .boxed name => [name]
  | .array element _ => element.names
  | .varArray element _ => element.names
  | .option inner => inner.names
  | _ => []

/-- The declared types that a value of the type holds directly, and not behind a
pointer or in a vector. -/
def heldNames : RustType → List String
  | .named name => [name]
  | .array element _ => element.heldNames
  | .option inner => inner.heldNames
  | _ => []

theorem heldNames_subset_names (t : RustType) : ∀ n ∈ t.heldNames, n ∈ t.names := by
  induction t with
  | named name => exact fun _ h => h
  | array element length ih => exact ih
  | option inner ih => exact ih
  | _ => intro n h; simp [heldNames] at h

end RustType

end XdrCompiler
