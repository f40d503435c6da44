/-
# XdrCompiler.Schema.Reference -- the Rust type of an XDR type

A descriptor stands for a Rust type unless it bottoms out in `void`, in a
declaration that may only be named, or in a value that is no type. Which of the
three it is decides the error, at any depth of wrapping.

A member of a declaration follows the same rule with one exception: an optional
reference back to the declaration itself is put behind a pointer, because the
declaration could not be sized otherwise.
-/
import XdrCompiler.Failure
import XdrCompiler.Naming.Words

namespace XdrCompiler

/-- The text that stands for a length in a Rust type. -/
def Length.text : Length → String
  | .literal n => toString n
  | .constant name => Naming.constantCase name

namespace XdrType

/-- The Rust type that stands for a descriptor. -/
def toRust : XdrType → Except Failure RustType
  | .reference name => .ok (.named name)
  | .int => .ok (.primitive .i32)
  | .uint => .ok (.primitive .u32)
  | .hyper => .ok (.primitive .i64)
  | .uhyper => .ok (.primitive .u64)
  | .bool => .ok (.primitive .bool)
  | .void => .error (.schema .voidReference)
  | .array element length => element.toRust.map (.array · length.text)
  | .varArray element bound => element.toRust.map (.varArray · (bound.map Length.text))
  | .bytes length => .ok (.bytes length.text)
  | .varBytes bound => .ok (.varBytes (bound.map Length.text))
  | .string bound => .ok (.text (bound.map Length.text))
  | .option inner => inner.toRust.map .option
  | .enum decl => .error (.internal (.unnamed "enum" decl.name))
  | .struct decl => .error (.internal (.unnamed "struct" decl.name))
  | .union decl => .error (.internal (.unnamed "union" decl.name))
  | .raw value => .error (.internal (.unsupported value))

/-- The descriptor's text in a field, a variant or a generic argument list. -/
def declaredText (t : XdrType) : Except Failure String := t.toRust.map RustType.declared

/-- The descriptor's text in front of `::`. -/
def callableText (t : XdrType) : Except Failure String := t.toRust.map RustType.callable

/-! ## Members -/

/-- Whether a member is an optional reference back to its owner. -/
def isOptionalCycle (t : XdrType) (owner : String) : Bool :=
  t == .option (.reference owner)

/-- The Rust type of a field or payload of `owner`. -/
def toMember (t : XdrType) (owner : String) : Except Failure RustType :=
  if t.isOptionalCycle owner then .ok (.option (.boxed owner)) else t.toRust

/-- The names that a member of `owner` holds by value when it is stored as it is. -/
def memberHeld (t : XdrType) (owner : String) : NameSet :=
  if t.isOptionalCycle owner then .empty else t.heldDependencies

theorem isOptionalCycle_iff {t : XdrType} {owner : String} :
    t.isOptionalCycle owner = true ↔ t = .option (.reference owner) := by
  simp [isOptionalCycle]

end XdrType

/-- Whether a text starts with one of the given beginnings; the empty one begins
every text. -/
def startsWithAny (beginnings : List String) (s : String) : Bool :=
  beginnings.any fun b => b.toList.isPrefixOf s.toList

end XdrCompiler
