/-
# XdrCompiler.Document.Reader -- documents from text

The tokens of a text are put together to a value with a stack of the lists and
objects that are still open. Each token is looked at once.

A schema module is such a document: an object whose `define` is the list of its
registrations.
-/
import XdrCompiler.Document.Registration
import XdrCompiler.Document.Token
import XdrCompiler.Schema.Module

namespace XdrCompiler.Document

/-- A list or object that is not closed yet, with what it has so far, the last
first. -/
inductive Frame
  | list (items : List Document)
  | object (fields : List (String × Document))
  /-- An object whose last key has no value yet. -/
  | keyed (fields : List (String × Document)) (key : String)

/-- What may come next. -/
inductive Expecting
  | value
  /-- A value or the end of the list just opened. -/
  | firstItem
  | key
  /-- A key or the end of the object just opened. -/
  | firstKey
  | colon
  /-- Whatever follows a complete value. -/
  | afterValue (v : Document)

/-- Takes a token where a value is due. -/
def takeValue (stack : List Frame) : Token → Option (List Frame × Expecting)
  | .openList => some (.list [] :: stack, .firstItem)
  | .openObject => some (.object [] :: stack, .firstKey)
  | .null => some (stack, .afterValue .null)
  | .bool b => some (stack, .afterValue (.bool b))
  | .number n => some (stack, .afterValue (.number n))
  | .text s => some (stack, .afterValue (.text s))
  | _ => none

/-- Takes a token after a complete value. -/
def takeAfter (v : Document) : List Frame → Token → Option (List Frame × Expecting)
  | .list items :: above, .comma => some (.list (v :: items) :: above, .value)
  | .list items :: above, .closeList => some (above, .afterValue (.list (v :: items).reverse))
  | .keyed fields key :: above, .comma => some (.object ((key, v) :: fields) :: above, .key)
  | .keyed fields key :: above, .closeObject =>
    some (above, .afterValue (.object ((key, v) :: fields).reverse))
  | _, _ => none

/-- Takes a key of the innermost object. -/
def takeKey : List Frame → Token → Option (List Frame × Expecting)
  | .object fields :: above, .text key => some (.keyed fields key :: above, .colon)
  | _, _ => none

/-- Takes one token. -/
def takeToken (stack : List Frame) (token : Token) : Expecting → Option (List Frame × Expecting)
  | .value => takeValue stack token
  | .firstItem =>
    match stack, token with
    | .list [] :: above, .closeList => some (above, .afterValue (.list []))
    | _, _ => takeValue stack token
  | .key => takeKey stack token
  | .firstKey =>
    match stack, token with
    | .object [] :: above, .closeObject => some (above, .afterValue (.object []))
    | _, _ => takeKey stack token
  | .colon => if token = .colon then some (stack, .value) else none
  | .afterValue v => takeAfter v stack token

/-- Puts tokens together, from a stack of open lists and objects. -/
def assembleFrom (stack : List Frame) (expecting : Expecting) : List Token → Option Document
  | [] =>
    match stack, expecting with
    | [], .afterValue v => some v
    | _, _ => none
  | token :: rest =>
    (takeToken stack token expecting).bind fun next => assembleFrom next.1 next.2 rest

/-- Reads a document. -/
def ofText? (s : String) : Option Document := (tokens s).bind (assembleFrom [] .value)

/-- The schema module that a document is. A registration of unknown kind makes it
unreadable. -/
def toModule (d : Document) : SchemaModule :=
  match d.field? "define" with
  | some ⟨.list calls, _⟩ =>
    .defining (calls.map fun call =>
      match (call.field? "do").bind fun kind => kind.1.text? with
      | some kind => (registration? kind call).getD (.failing (.defect .unreadable))
      | none => .failing (.defect .unreadable))
  | _ => .withoutDefinition

end XdrCompiler.Document

namespace XdrCompiler

/-- The schema module with the given source text. -/
def SchemaModule.ofSource (source : String) : SchemaModule :=
  match Document.ofText? source with
  | some d => d.toModule
  | none => .failing (.defect .unreadable)

end XdrCompiler
