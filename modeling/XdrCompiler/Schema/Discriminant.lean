/-
# XdrCompiler.Schema.Discriminant -- what a union switches on

A discriminant is followed through references until it is something else. The
walk uses every name at most once: `fresh` is the part of the table that was not
visited yet, and it shrinks with each step. A name that is in the table and no
longer fresh closes a loop.
-/
import XdrCompiler.Failure
import XdrCompiler.Table

namespace XdrCompiler

/-- A type that a union can switch on, or the reason why it cannot. -/
def XdrType.asDiscriminant (t : XdrType) : Except Failure XdrType :=
  match t with
  | .int => .ok t
  | .uint => .ok t
  | .hyper => .ok t
  | .uhyper => .ok t
  | .bool => .ok t
  | .enum _ => .ok t
  | _ =>
    match t.kind? with
    | some kind => .error (.schema (.notDiscriminant kind))
    | none => .error (.defect .noProperty)

/-- The entry of a name, unless it is missing. -/
def Table.defined? (types : Table String XdrType) (name : String) : Option XdrType :=
  (types.get? name).bind XdrType.defined?

/-- Follows references through the names that are still fresh. -/
def resolveThrough (types fresh : Table String XdrType) (t : XdrType) : Except Failure XdrType :=
  match t with
  | .reference name =>
    match _h : fresh.get? name with
    | some entry =>
      match entry.defined? with
      | some target => resolveThrough types (fresh.erase name) target
      | none => .error (.schema (.undefinedDiscriminant name))
    | none =>
      match types.get? name with
      | some _ => .error (.schema (.aliasLoop name))
      | none => .error (.schema (.undefinedDiscriminant name))
  | other => other.asDiscriminant
termination_by fresh.size
decreasing_by exact Table.size_erase_lt _h

/-- The type that a discriminant stands for, behind all its aliases. -/
def resolveDiscriminant (types : Table String XdrType) (switchOn : XdrType) :
    Except Failure XdrType :=
  resolveThrough types types switchOn

end XdrCompiler
