/-
# XdrCompiler.Command.Run -- one run of the command

A run takes a command line, a file tree and a date, and gives what was printed,
how the command ended, and the file tree afterwards. What was printed before a
failure stays printed. The source text is complete before the file is written,
so a failing run leaves no half of it behind.

Schema modules are restricted in two ways. A module is a source file, and the
ending of its path tells that it is one (`Path.isModule`); compiled modules and
extension libraries, which a loader would try as well, are refused as no modules.
And no text is executed. What a module does is part of the file tree
(`SchemaModule`), so that a file of which only the text is given counts as a module
without a definition, whatever executing that text would do.
-/
import XdrCompiler.Command.Config
import XdrCompiler.Files.Write
import XdrCompiler.Graph.Cycles
import XdrCompiler.Report.Summary
import XdrCompiler.Report.TypesTable
import XdrCompiler.Source.File

namespace XdrCompiler

/-! ## Loading -/

/-- The path of a module with the working directory in front. -/
def Tree.absoluteText (t : Tree) (p : Path) : String :=
  if p.anchor = .relative then t.workingDirectory.text ++ "/" ++ p.text else p.text

/-- Whether the text of a path ends like that of a source module. -/
def Path.isModule (p : Path) : Bool := ".py".toList.isSuffixOf p.text.toList

/-- The registrations that the schema module at a path makes. The module is read
under its absolute path. -/
def Tree.loadModule (t : Tree) (p : Path) : Except Failure (List Registration) :=
  if !p.isModule then .error (.config (.notImportable p.text))
  else if Path.isOverlongText (t.absoluteText p) then
    .error (.system (.refused .nameTooLong (t.absoluteText p)))
  else
    match t.nodeAt p with
    | none => .error (.system (.refused .notFound (t.absoluteText p)))
    | some .directory => .error (.system (.refused .isDirectory (t.absoluteText p)))
    | some (.file (.text _)) => .error (.config (.noDefine p.text))
    | some (.file (.schema m)) =>
      match m with
      | .defining registrations => .ok registrations
      | .withoutDefinition => .error (.config (.noDefine p.text))
      | .failing failure => .error failure

/-- The schema that the module at a path defines. -/
def Tree.loadSchema (t : Tree) (p : Path) (boxedBeginnings : List String) :
    Except Failure Schema :=
  (t.loadModule p).bind (Schema.ofRegistrations boxedBeginnings)

/-! ## The two kinds of run -/

/-- What a run did: the text printed, the files afterwards, and what stopped it. -/
structure Transcript where
  printed : String
  tree : Tree
  failure : Option Failure

/-- How a filter is named in the list of types. -/
def shownFilter : Option Operand → String
  | none => "None"
  | some (.text s) => s
  | some .dropped => "[]"

/-- The text that a filter looks for. -/
def filterText : Option Operand → Option String
  | some (.text s) => some s
  | _ => none

/-- Lists the types of a schema. -/
def DiscoveryConfig.run (config : DiscoveryConfig) (tree : Tree) : Transcript :=
  let outcome := do
    let schema ← tree.loadSchema config.schema config.boxedBeginnings
    let reach ← reachable schema.types config.roots
    return typesTable schema reach.reached (filterText config.filter) (shownFilter config.filter)
  match outcome with
  | .ok table => ⟨table, tree, none⟩
  | .error failure => ⟨"", tree, some failure⟩

/-- The first line of a generating run. -/
def loadingLine (config : GenerateConfig) : String :=
  "Loading schema: " ++ config.schema.text ++ "\n"

def registeredLine (schema : Schema) : String :=
  "  Registered: " ++ toString schema.types.size ++ " types, " ++
    toString schema.constants.size ++ " constants\n"

def reachableLine (config : GenerateConfig) (schema : Schema) (reach : Reach) : String :=
  "  Reachable: " ++ toString reach.reached.size ++ " types from " ++ toString reach.rootCount ++
    " roots, " ++ toString ((schema.types.size : Int) - reach.reached.size) ++
    " gated behind '" ++ config.feature ++ "'\n"

/-- One line for each group of types that contain themselves. -/
def warningLines (cycles : List (List String)) : String :=
  String.join (cycles.map fun group =>
    "  Warning: unboxed recursive types: " ++ ", ".intercalate group ++ "\n")

/-- The source text for a built schema. -/
def generatedSource (config : GenerateConfig) (today : String) (schema : Schema)
    (main : NameSet) : Except Failure String :=
  (Provenance.make today config.schema.name config.feature).bind fun provenance =>
    assemble provenance schema main

/-- The report on a written file. -/
def summaryOf (config : GenerateConfig) (schema : Schema) (main : NameSet)
    (cycles : List (List String)) (written : Written) : Summary where
  schemaLabel := config.schema.name
  path := written.path
  feature := config.feature
  counts := Counts.ofSchema schema main
  unboxedCycles := cycles
  fileName := written.fileName
  lineCount := written.lineCount
  byteCount := written.byteCount

/-- Writes the source to the output directory, if there is one. -/
def writeOutput (config : GenerateConfig) (tree : Tree) (source : String) :
    Tree × Except Failure Written :=
  match config.outputDir with
  | some dir => tree.writeSource dir config.fileName source
  | none => (tree, .error (.defect .wrongShape))

/-- Generates the source file of a schema. -/
def GenerateConfig.run (config : GenerateConfig) (today : String) (tree : Tree) : Transcript :=
  let loading := loadingLine config
  match tree.loadSchema config.schema config.boxedBeginnings with
  | .error failure => ⟨loading, tree, some failure⟩
  | .ok schema =>
    let registered := loading ++ registeredLine schema
    match reachable schema.types config.roots with
    | .error failure => ⟨registered, tree, some failure⟩
    | .ok reach =>
      let cycles := unboxedCycles schema.types
      let analysed := registered ++ reachableLine config schema reach ++ warningLines cycles
      match generatedSource config today schema reach.reached with
      | .error failure => ⟨analysed, tree, some failure⟩
      | .ok source =>
        match writeOutput config tree source with
        | (tree', .error failure) => ⟨analysed, tree', some failure⟩
        | (tree', .ok written) =>
          ⟨analysed ++ (summaryOf config schema reach.reached cycles written).text, tree', none⟩

/-! ## The command -/

/-- How the command ends. -/
inductive Ending
  | exit (code : Nat)
  /-- A failure that nothing catches. -/
  | escaped (failure : Failure)
  deriving DecidableEq, Repr

structure Outcome where
  ending : Ending
  /-- The text on standard output. -/
  printed : String
  /-- The message about the command line, if it was not accepted. -/
  usage : Option String
  tree : Tree

/-- The lines that tell the user of a failure. A defect has none: it is not
caught. -/
def Failure.report? : Failure → Option String
  | .config e =>
    let line := "Config error [" ++ e.code.text ++ "]: " ++ e.message ++ "\n"
    match e.suggestion with
    | some hint => some (if hint = "" then line else line ++ "Hint: " ++ hint ++ "\n")
    | none => some line
  | .schema e => some ("Schema error [" ++ e.code.text ++ "]: " ++ e.message ++ "\n")
  | .system e => some ("Error: " ++ e.message ++ "\n")
  | .internal e => some ("Internal error: " ++ e.message ++ "\n")
  | .defect _ => none

/-- The outcome of what a run did. -/
def Transcript.outcome (t : Transcript) : Outcome :=
  match t.failure with
  | none => ⟨.exit 0, t.printed, none, t.tree⟩
  | some failure =>
    match failure.report? with
    | some report => ⟨.exit 1, t.printed ++ report, none, t.tree⟩
    | none => ⟨.escaped failure, t.printed, none, t.tree⟩

def programName : String := "xdrgen.py"

/-- How the command is called. -/
def usageText : String :=
  Text.joinLines
    ["usage: xdrgen.py [-h] [--schema SCHEMA] [--output-dir OUTPUT_DIR]",
     "                 [--file-name FILE_NAME] [--root ROOT] [--feature FEATURE]",
     "                 [--box-prefix BOX_PREFIX] [--list-types] [--filter FILTER]"]

/-- The text that answers a request for help. -/
def helpText : String :=
  Text.joinLines
    [usageText,
     "",
     "Generate Rust XDR types and codecs from a schema module",
     "",
     "options:",
     "  -h, --help            show this help message and exit",
     "  --schema SCHEMA",
     "  --output-dir OUTPUT_DIR",
     "  --file-name FILE_NAME",
     "  --root ROOT",
     "  --feature FEATURE",
     "  --box-prefix BOX_PREFIX",
     "  --list-types",
     "  --filter FILTER",
     ""]

/-- The run that a configuration asks for. -/
def Config.run (config : Config) (today : String) (tree : Tree) : Transcript :=
  match config with
  | .discovery c => c.run tree
  | .generate c => c.run today tree

/-- Runs the command. -/
def runCommand (arguments : List String) (today : String) (tree : Tree) : Outcome :=
  match readArguments arguments with
  | .error e => ⟨.exit 2, "", some (programName ++ ": error: " ++ e.message), tree⟩
  | .ok .help => ⟨.exit 0, helpText, none, tree⟩
  | .ok (.run options) =>
    match options.check tree with
    -- Before the run proper, only configuration errors are caught.
    | .error (.config e) => (Transcript.mk "" tree (some (.config e))).outcome
    | .error failure => ⟨.escaped failure, "", none, tree⟩
    | .ok config => (config.run today tree).outcome

end XdrCompiler
