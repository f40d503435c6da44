/-
# XdrCompiler.Command.Config -- a checked configuration

The options become the configuration of a run: either one that generates the
source file or one that lists the types. The checks come in a fixed order: a
filter needs the list, the schema has to be there, then the roots, the boxed
beginnings, and for a generating run the file name and the feature. Roots and
boxed beginnings are taken once each, in the order of their first occurrence,
and have defaults.
-/
import XdrCompiler.Command.Options
import XdrCompiler.Files.Tree
import XdrCompiler.Graph.Reachable
import XdrCompiler.Naming.Accepted

namespace XdrCompiler

/-- The types whose needs are generated unconditionally unless others are given. -/
def defaultRoots : List String :=
  ["TransactionEnvelope", "TransactionResult", "TransactionMeta", "TrustLineFlags",
   "EnvelopeType", "TransactionSignaturePayload", "Curve25519Secret"]

/-- A run that writes the source file. -/
structure GenerateConfig where
  schema : Path
  /-- The output directory, unless its operand was dropped. -/
  outputDir : Option Path
  fileName : String
  roots : List String
  feature : String
  boxedBeginnings : List String

/-- A run that lists the types. -/
structure DiscoveryConfig where
  schema : Path
  roots : List String
  boxedBeginnings : List String
  filter : Option Operand

inductive Config
  | generate (config : GenerateConfig)
  | discovery (config : DiscoveryConfig)

/-! ## Single checks -/

/-- The text of an operand that has to have one. -/
def Operand.get : Operand → Except Failure String
  | .text s => .ok s
  | .dropped => .error (.defect .wrongShape)

def checkTypeName (name : String) : Except Failure String :=
  if Naming.isTypeName name then .ok name else .error (.config (.typeName name))

def checkFeatureName (name : String) : Except Failure String :=
  if Naming.isFeatureName name then .ok name else .error (.config (.featureName name))

def checkFileName (name : String) : Except Failure String :=
  if Naming.isFileName name then .ok name else .error (.config (.fileName name))

/-- The path itself, if it is given and designates something. -/
def checkPath (tree : Tree) (path : Option Path) (flag : String) (hint : Option String) :
    Except Failure Path :=
  match path with
  | none => .error (.config (.pathRequired flag hint))
  | some p =>
    match tree.contains p with
    | .ok true => .ok p
    | .ok false => .error (.config (.pathMissing flag p.text hint))
    | .error errno => .error (.system (.refused errno p.text))

/-- Type names from operands, up to the first that is not accepted. -/
def checkTypeNames : List Operand → Except Failure (List String)
  | [] => .ok []
  | operand :: rest => do
    let name ← operand.get
    let first ← checkTypeName name
    let others ← checkTypeNames rest
    return first :: others

/-- The accepted names without repetitions, or the defaults if none are given. -/
def namesOr (defaults : List String) (operands : List Operand) : Except Failure (List String) :=
  if operands.isEmpty then .ok defaults
  else (checkTypeNames operands).map firstOccurrences

/-- Whether a filter is given that filters. -/
def Options.hasFilter (o : Options) : Bool :=
  match o.filter with
  | some (.text s) => s ≠ ""
  | _ => false

def schemaHint : String :=
  "Pass the Python module that defines the schema: --schema path/to/schema.py"

/-- The schema's path, if it designates something. -/
def Options.checkSchema (o : Options) (tree : Tree) : Except Failure Path :=
  match o.schema with
  | none => checkPath tree none "--schema" (some schemaHint)
  | some .dropped => .error (.defect .noProperty)
  | some (.text s) => checkPath tree (some (Path.ofString s)) "--schema" (some schemaHint)

/-! ## The configuration -/

/-- The configuration that the options amount to. -/
def Options.check (o : Options) (tree : Tree) : Except Failure Config := do
  if o.hasFilter && !o.listTypes then
    throw (.config .filterWithoutList)
  let schema ← o.checkSchema tree
  let roots ← namesOr defaultRoots o.roots
  let boxedBeginnings ← namesOr defaultBoxedBeginnings o.boxedBeginnings
  -- A listing run does not look at the file name and the feature.
  if o.listTypes then
    return .discovery ⟨schema, roots, boxedBeginnings, o.filter⟩
  else do
    let fileName ← o.fileName.get.bind checkFileName
    let feature ← o.feature.get.bind checkFeatureName
    let outputDir :=
      match o.outputDir with
      | .text s => some (Path.ofString s)
      | .dropped => none
    return .generate ⟨schema, outputDir, fileName, roots, feature, boxedBeginnings⟩

end XdrCompiler
