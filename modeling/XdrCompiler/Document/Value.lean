/-
# XdrCompiler.Document.Value -- the values of a schema document

A schema document is a tree of lists and objects over texts and whole numbers.
Looking inside a value gives parts that are smaller, and says so, which is what
lets a reader of documents recurse.
-/

namespace XdrCompiler

/-- A value in a schema document. -/
inductive Document
  | null
  | bool (b : Bool)
  | number (n : Int)
  | text (s : String)
  | list (items : List Document)
  | object (fields : List (String × Document))

namespace Document

instance : Inhabited Document := ⟨.null⟩

/-- A value that is smaller than `d`. -/
abbrev Part (d : Document) := { v : Document // sizeOf v < sizeOf d }

/-- The value under a key of an object. -/
def field? (d : Document) (key : String) : Option (Part d) :=
  match d with
  | .object fields =>
    match h : fields.find? fun p => p.1 == key with
    | some p =>
      some ⟨p.2, by
        have hmem := List.sizeOf_lt_of_mem (List.mem_of_find?_eq_some h)
        have hp : sizeOf p = 1 + sizeOf p.1 + sizeOf p.2 := by
          cases p
          simp
        simp only [Document.object.sizeOf_spec]
        omega⟩
    | none => none
  | _ => none

/-- The items of a list; anything else has none. -/
def items (d : Document) : List (Part d) :=
  match d with
  | .list vs =>
    vs.attach.map fun v => ⟨v.1, by
      have hmem := List.sizeOf_lt_of_mem v.2
      simp only [Document.list.sizeOf_spec]
      omega⟩
  | _ => []

/-- The items of a list of pairs, first and second; other items are passed over. -/
def pairs (d : Document) : List (Document × Part d) :=
  d.items.filterMap fun item =>
    match item.1.items with
    | [first, second] => some (first.1, ⟨second.1, Nat.lt_trans second.2 item.2⟩)
    | _ => none

/-- The fields of an object; anything else has none. -/
def fields : Document → List (String × Document)
  | .object fields => fields
  | _ => []

/-- The keys of an object. -/
def keys (d : Document) : List String := d.fields.map Prod.fst

def text? : Document → Option String
  | .text s => some s
  | _ => none

def number? : Document → Option Int
  | .number n => some n
  | _ => none

end Document

end XdrCompiler
