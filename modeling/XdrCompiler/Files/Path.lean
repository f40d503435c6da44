/-
# XdrCompiler.Files.Path -- paths

A path is a list of components after an optional root. Reading a path drops
empty components and single dots, so that a trailing slash is without effect,
and keeps double dots, because what they mean depends on the files. Exactly two
leading slashes are a root of their own; more than two are one.

No file has a name of more than 255 bytes, and no path of more than 4095 bytes
is looked up. Both are counted in UTF-8.
-/

namespace XdrCompiler

/-- Where a path starts. -/
inductive Anchor
  /-- At the working directory. -/
  | relative
  /-- At the root. -/
  | root
  /-- At the root, written with two slashes. -/
  | doubleRoot
  deriving DecidableEq, Repr

structure Path where
  anchor : Anchor
  components : List String
  deriving DecidableEq, Repr

namespace Path

def Anchor.text : Anchor → String
  | .relative => ""
  | .root => "/"
  | .doubleRoot => "//"

/-- The pieces between slashes. -/
def cutSlashes : List Char → List (List Char)
  | [] => [[]]
  | c :: rest =>
    if c = '/' then [] :: cutSlashes rest
    else match cutSlashes rest with
      | [] => [[c]]
      | piece :: pieces => (c :: piece) :: pieces

/-- The root that the leading slashes stand for. -/
def readAnchor (cs : List Char) : Anchor :=
  match (cs.takeWhile (· = '/')).length with
  | 0 => .relative
  | 2 => .doubleRoot
  | _ => .root

/-- Reads a path. -/
def ofString (s : String) : Path where
  anchor := readAnchor s.toList
  components :=
    ((cutSlashes s.toList).filter fun piece => piece ≠ [] ∧ piece ≠ ['.']).map String.ofList

/-- The text of a path; a single dot if there is nothing else. -/
def text (p : Path) : String :=
  if p.anchor = .relative ∧ p.components = [] then "."
  else Anchor.text p.anchor ++ "/".intercalate p.components

/-- The last component, or nothing. -/
def name (p : Path) : String := p.components.getLast?.getD ""

/-- The path `child` as seen from `p`. A child with a root of its own replaces it. -/
def join (p child : Path) : Path :=
  if child.anchor = .relative then ⟨p.anchor, p.components ++ child.components⟩ else child

/-- Whether a component is longer than the name of a file can be. -/
def isOverlongName (component : String) : Bool := 255 < component.utf8ByteSize

/-- Whether the text of a path is longer than one that can be looked up. -/
def isOverlongText (text : String) : Bool := 4095 < text.utf8ByteSize

def isOverlong (p : Path) : Bool := isOverlongText p.text

/-- Whether a component holds the character that ends paths. -/
def hasNul (p : Path) : Bool := p.components.any fun c => '\x00' ∈ c.toList

end Path

end XdrCompiler
