/-
# XdrCompiler.Files.Location -- places in a file tree

A location is the list of names from the root down to a node. It has no dots in
it. The number of the names is kept beside them, so that places of different
depth are told apart without a look at their names.
-/

namespace XdrCompiler

/-- The place of a node in a file tree. -/
structure Location where
  /-- The names from the root down. -/
  names : List String
  depth : Nat
  depth_eq : depth = names.length

namespace Location

theorem ext {a b : Location} (h : a.names = b.names) : a = b := by
  have hd : a.depth = b.depth := by rw [a.depth_eq, b.depth_eq, h]
  cases a
  cases b
  simp only at h hd
  subst h
  subst hd
  rfl

instance : DecidableEq Location := fun a b =>
  if hd : a.depth = b.depth then
    if h : a.names = b.names then isTrue (ext h)
    else isFalse fun hab => h (hab ▸ rfl)
  else isFalse fun hab => hd (hab ▸ rfl)

/-- The location with the given names. -/
def ofNames (names : List String) : Location := ⟨names, names.length, rfl⟩

/-- The location with no names. -/
def root : Location := ofNames []

/-- The location of a name in a directory. -/
def child (loc : Location) (name : String) : Location :=
  ⟨loc.names ++ [name], loc.depth + 1, by simp [loc.depth_eq]⟩

/-- The location above; the root is above itself. -/
def parent (loc : Location) : Location :=
  ⟨loc.names.dropLast, loc.depth - 1, by simp [loc.depth_eq]⟩

/-- The text of a location. -/
def text (loc : Location) : String := "/" ++ "/".intercalate loc.names

@[simp] theorem names_ofNames (names : List String) : (ofNames names).names = names := rfl

@[simp] theorem names_child (loc : Location) (name : String) :
    (loc.child name).names = loc.names ++ [name] := rfl

end Location

end XdrCompiler
