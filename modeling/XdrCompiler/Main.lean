/-
# XdrCompiler.Main -- the command line

The run itself is a function of the arguments, the date and the files. Here the
part of the file system that it can see is looked up beforehand, and what it
changed is carried out afterwards.
-/
import Std.Time
import XdrCompiler.Command.Run
import XdrCompiler.Document.Reader

namespace XdrCompiler

/-- The locations that walking a path passes through, from `start`. -/
def visited (start : Location) : List String → List Location
  | [] => [start]
  | c :: rest => start :: visited (if c = ".." then start.parent else start.child c) rest

/-- The locations that matter to a run: the way to the working directory, to the
schema, to the output directory and to the file in it. -/
def relevantLocations (workingDirectory : Location) : Request → List Location
  | .help => []
  | .run options =>
    let way (p : Path) :=
      visited (if p.anchor = .relative then workingDirectory else .root) p.components
    let schema :=
      match options.schema with
      | some (.text s) => way (Path.ofString s)
      | _ => []
    let output :=
      match options.outputDir, options.fileName with
      | .text dir, .text file => way ((Path.ofString dir).join (Path.ofString file))
      | _, _ => []
    visited .root workingDirectory.names ++ schema ++ output

/-- The text under which a location is reached: relative below the working
directory, which keeps it short, and absolute elsewhere. -/
def reachedAs (workingDirectory loc : Location) : String :=
  if loc ≠ workingDirectory ∧ workingDirectory.names.isPrefixOf loc.names then
    "/".intercalate (loc.names.drop workingDirectory.depth)
  else loc.text

/-- Looks up the node at a location. -/
def lookUp (workingDirectory loc : Location) : IO (Option Node) := do
  let path := reachedAs workingDirectory loc
  let place := { ← IO.currentDir with toString := path }
  if ← place.isDir then return some .directory
  if !(← place.pathExists) then return none
  let source ← IO.FS.readFile path
  let isSource := ".py".toList.isSuffixOf path.toList
  return some (.file (if isSource then .schema (.ofSource source) else .text source))

/-- The part of the file system at the given locations. -/
def lookUpAll (workingDirectory : Location) (locations : List Location) : IO Tree := do
  let mut tree : Tree := ⟨workingDirectory, .empty⟩
  for loc in locations do
    if let some node ← lookUp workingDirectory loc then
      tree := tree.setNode loc node
  return tree

/-- Carries out what differs between two trees. A directory comes after the one
that it is in. -/
def carryOutChanges (before after : Tree) : IO Unit := do
  for (loc, node) in after.nodes.entries do
    let path := reachedAs after.workingDirectory loc
    match node, before.node? loc with
    | .directory, none => IO.FS.createDir path
    | .file (.text s), some (.file (.text old)) => if s != old then IO.FS.writeFile path s
    | .file (.text s), _ => IO.FS.writeFile path s
    | _, _ => pure ()

end XdrCompiler

open XdrCompiler in
/-- Runs the command on the real file system. -/
def main (arguments : List String) : IO UInt32 := do
  let here := Location.ofNames (Path.ofString (← IO.currentDir).toString).components
  let locations :=
    match readArguments arguments with
    | .ok request => relevantLocations here request
    | .error _ => []
  let before ← lookUpAll here locations
  let today := (← Std.Time.PlainDate.now).toSQLDateString
  let outcome := runCommand arguments today before
  carryOutChanges before outcome.tree
  IO.print outcome.printed
  if let some message := outcome.usage then
    IO.eprintln (usageText ++ "\n" ++ message)
  match outcome.ending with
  | .exit code => return code.toUInt32
  | .escaped _ =>
    IO.eprintln "The run was abandoned."
    return 1
