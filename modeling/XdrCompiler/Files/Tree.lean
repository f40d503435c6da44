/-
# XdrCompiler.Files.Tree -- a file tree

The files that a run can see are a table from locations to nodes. A path is
walked from the working directory or the root: each step needs a directory
and a name that a file can have, a double dot goes back up, and the root is
above itself. Where the walk ends need not exist. A path that is too long as a
whole is refused before the first step.
-/
import XdrCompiler.Failure
import XdrCompiler.Files.Location
import XdrCompiler.Files.Path
import XdrCompiler.Schema.Module
import XdrCompiler.Table

namespace XdrCompiler

/-- What a file holds. -/
inductive Content
  | text (s : String)
  | schema (m : SchemaModule)

inductive Node
  | directory
  | file (content : Content)

structure Tree where
  workingDirectory : Location
  nodes : Table Location Node

namespace Tree

/-- The node at a location; the root is always a directory. -/
def node? (t : Tree) (loc : Location) : Option Node :=
  if loc = .root then some .directory else t.nodes.get? loc

/-- Puts a node at a location. -/
def setNode (t : Tree) (loc : Location) (node : Node) : Tree :=
  { t with nodes := t.nodes.insert loc node }

/-- The content of the file at a location. -/
def content? (t : Tree) (loc : Location) : Option Content :=
  match t.node? loc with
  | some (.file content) => some content
  | _ => none

/-! ## Walking -/

/-- One step down from a directory, or up for a double dot. -/
def step (t : Tree) (loc : Location) (component : String) : Except Errno Location :=
  match t.node? loc with
  | some .directory =>
    if component = ".." then .ok loc.parent
    else if Path.isOverlongName component then .error .nameTooLong
    else .ok (loc.child component)
  | some (.file _) => .error .notDirectory
  | none => .error .notFound

/-- Steps through the components of a path. -/
def walk (t : Tree) (loc : Location) : List String → Except Errno Location
  | [] => .ok loc
  | component :: rest => (t.step loc component).bind fun next => t.walk next rest

/-- The location that a path designates. -/
def locate (t : Tree) (p : Path) : Except Errno Location :=
  if p.isOverlong then .error .nameTooLong
  else t.walk (if p.anchor = .relative then t.workingDirectory else .root) p.components

/-- The node that a path designates. -/
def nodeAt (t : Tree) (p : Path) : Option Node :=
  match t.locate p with
  | .ok loc => t.node? loc
  | .error _ => none

/-- Whether a path designates something. A way that leads nowhere does not; only
a name that is too long is an error. -/
def contains (t : Tree) (p : Path) : Except Errno Bool :=
  if p.hasNul then .ok false
  else
    match t.locate p with
    | .ok loc => .ok (t.node? loc).isSome
    | .error .nameTooLong => .error .nameTooLong
    | .error _ => .ok false

/-! ## Changing -/

/-- Makes the directory `name` in the one at a location, and says where it is. -/
def makeDirectoryIn (t : Tree) (loc : Location) (name : String) :
    Except Errno (Tree × Location) :=
  (t.step loc name).bind fun made =>
    match t.node? made with
    | some _ => .error .exists
    | none => .ok (t.setNode made .directory, made)

/-- Makes the directory that a path designates; what is above has to be there. -/
def makeDirectory (t : Tree) (p : Path) : Except Errno (Tree × Location) :=
  (t.locate p).bind fun loc =>
    match t.node? loc with
    | some _ => .error .exists
    | none => .ok (t.setNode loc .directory, loc)

/-- Takes a refusal to make a directory as success if the directory is there. -/
def settle (t : Tree) (p : Path) (errno : Errno) : Tree × Except SystemError Location :=
  match t.locate p with
  | .ok loc =>
    match t.node? loc with
    | some .directory => (t, .ok loc)
    | _ => (t, .error (.refused errno p.text))
  | .error _ => (t, .error (.refused errno p.text))

/-- Makes a directory and those above it that are not there; the components come
last one first. What was made before a refusal stays. -/
def makeDirectoriesUp (t : Tree) (anchor : Anchor) :
    List String → Tree × Except SystemError Location
  | [] =>
    let p : Path := ⟨anchor, []⟩
    match t.makeDirectory p with
    | .ok (t', loc) => (t', .ok loc)
    | .error errno => t.settle p errno
  | last :: above =>
    let p : Path := ⟨anchor, (last :: above).reverse⟩
    match t.makeDirectory p with
    | .ok (t', loc) => (t', .ok loc)
    | .error .notFound =>
      -- Something above is not there: make that, then try once more.
      match t.makeDirectoriesUp anchor above with
      | (t', .error e) => (t', .error e)
      | (t', .ok parent) =>
        match t'.makeDirectoryIn parent last with
        | .ok (t'', loc) => (t'', .ok loc)
        | .error errno => t'.settle p errno
    | .error errno => t.settle p errno

/-- Makes a directory and those above it that are not there, and says where it
is. -/
def makeDirectories (t : Tree) (p : Path) : Tree × Except SystemError Location :=
  t.makeDirectoriesUp p.anchor p.components.reverse

/-- Writes a text to a file, whose directory has to be there. -/
def writeText (t : Tree) (p : Path) (text : String) : Except SystemError (Tree × Location) :=
  match t.locate p with
  | .error errno => .error (.refused errno p.text)
  | .ok loc =>
    match t.node? loc with
    | some .directory => .error (.refused .isDirectory p.text)
    | _ => .ok (t.setNode loc (.file (.text text)), loc)

end Tree

/-! ## Writing the generated file -/

/-- What is known about a written file. -/
structure Written where
  fileName : String
  /-- The absolute path of the file, without dots. -/
  path : String
  lineCount : Nat
  byteCount : Nat
  deriving DecidableEq, Repr

end XdrCompiler
