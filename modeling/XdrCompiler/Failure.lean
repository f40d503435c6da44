/-
# XdrCompiler.Failure -- what can go wrong

Every failure is a cause with the data that belongs to it, and its wording is
in one place. There are five families. A configuration error is the user's and
carries a hint. A schema error says that a schema cannot be turned into Rust
types. An internal error is a value where none should have come. A system error
is the file system's. A defect is a mistake in how a schema module uses the
compiler; the command line does not catch it.

A schema module may also report a failure of its own with its own words, so
each family has a constructor for that.
-/
import XdrCompiler.Schema.Type
import XdrCompiler.Text.Quoted

namespace XdrCompiler

/-! ## Configuration errors -/

inductive ConfigCode
  | pathNotFound
  | invalidFileName
  | invalidTypeName
  | invalidFeatureName
  | filterWithoutList
  | invalidSchemaModule
  | missingDefine
  deriving DecidableEq, Repr

namespace ConfigCode

def all : List ConfigCode :=
  [.pathNotFound, .invalidFileName, .invalidTypeName, .invalidFeatureName, .filterWithoutList,
   .invalidSchemaModule, .missingDefine]

def text : ConfigCode → String
  | .pathNotFound => "PATH_NOT_FOUND"
  | .invalidFileName => "INVALID_FILE_NAME"
  | .invalidTypeName => "INVALID_TYPE_NAME"
  | .invalidFeatureName => "INVALID_FEATURE_NAME"
  | .filterWithoutList => "FILTER_WITHOUT_LIST"
  | .invalidSchemaModule => "INVALID_SCHEMA_MODULE"
  | .missingDefine => "MISSING_DEFINE"

/-- The code with the given text. -/
def ofText? (s : String) : Option ConfigCode := all.find? (·.text == s)

end ConfigCode

inductive ConfigError
  | filterWithoutList
  | pathRequired (flag : String) (hint : Option String)
  | pathMissing (flag path : String) (hint : Option String)
  | typeName (name : String)
  | featureName (name : String)
  | fileName (name : String)
  | notImportable (path : String)
  | noDefine (path : String)
  | reported (code : ConfigCode) (message : String) (suggestion : Option String)
  deriving DecidableEq, Repr

namespace ConfigError

def code : ConfigError → ConfigCode
  | .filterWithoutList => .filterWithoutList
  | .pathRequired _ _ => .pathNotFound
  | .pathMissing _ _ _ => .pathNotFound
  | .typeName _ => .invalidTypeName
  | .featureName _ => .invalidFeatureName
  | .fileName _ => .invalidFileName
  | .notImportable _ => .invalidSchemaModule
  | .noDefine _ => .missingDefine
  | .reported code _ _ => code

def message : ConfigError → String
  | .filterWithoutList => "--filter requires --list-types."
  | .pathRequired flag _ => flag ++ " is required: no path provided."
  | .pathMissing flag path _ => "Path for " ++ flag ++ " does not exist: " ++ path
  | .typeName name => "Invalid type name: " ++ name
  | .featureName name => "Invalid cargo feature name: " ++ name
  | .fileName name => "Invalid output file name: " ++ name
  | .notImportable path => "Cannot import schema module: " ++ path
  | .noDefine path => "Schema module " ++ path ++ " does not define a callable define(xdr)."
  | .reported _ message _ => message

/-- A hint that says something, or else the usual one. -/
def hintOr (hint : Option String) (usual : String) : String :=
  match hint with
  | none => usual
  | some given => if given = "" then usual else given

def suggestion : ConfigError → Option String
  | .filterWithoutList => some "Add --list-types or remove --filter."
  | .pathRequired flag hint =>
    some (hintOr hint ("Pass the path explicitly: " ++ flag ++ " /path/to/resource"))
  | .pathMissing _ _ hint => some (hintOr hint "Provide an existing path for this flag.")
  | .typeName _ => some "Type names must be Rust identifiers (for example TransactionEnvelope)."
  | .featureName _ => some "Use letters, digits, '_' and '-' only (for example all-types)."
  | .fileName _ => some "Pass a bare Rust file name ending in .rs (for example xdr.rs)."
  | .notImportable _ => some "Pass a Python source file, for example --schema stellar_schema.py."
  | .noDefine _ => some "Add `def define(xdr): ...` registering the schema's types."
  | .reported _ _ suggestion => suggestion

end ConfigError

/-! ## Schema errors -/

inductive SchemaCode
  | voidReference
  | missingArm
  | unresolvedReference
  | invalidDiscriminant
  | invalidDefaultArm
  | duplicateCase
  deriving DecidableEq, Repr

namespace SchemaCode

def all : List SchemaCode :=
  [.voidReference, .missingArm, .unresolvedReference, .invalidDiscriminant, .invalidDefaultArm,
   .duplicateCase]

def text : SchemaCode → String
  | .voidReference => "VOID_REFERENCE"
  | .missingArm => "MISSING_ARM"
  | .unresolvedReference => "UNRESOLVED_REFERENCE"
  | .invalidDiscriminant => "INVALID_DISCRIMINANT"
  | .invalidDefaultArm => "INVALID_DEFAULT_ARM"
  | .duplicateCase => "DUPLICATE_CASE"

/-- The code with the given text. -/
def ofText? (s : String) : Option SchemaCode := all.find? (·.text == s)

end SchemaCode

inductive SchemaError
  /-- A Rust type was asked for where there is no value. -/
  | voidReference
  /-- A switch of the union selects an arm that is not there. -/
  | missingArm (unionName caseName : String)
  | undefinedDiscriminant (name : String)
  | undefinedType (name : String)
  /-- The aliases of a discriminant come back to a name. -/
  | aliasLoop (name : String)
  | notDiscriminant (kind : String)
  | defaultWithPayload (unionName : String)
  | repeatedCase (unionName caseName : String)
  /-- A listed case has the name that the default variant needs. -/
  | defaultTaken (unionName : String)
  | reported (code : SchemaCode) (message : String)
  deriving DecidableEq, Repr

namespace SchemaError

def code : SchemaError → SchemaCode
  | .voidReference => .voidReference
  | .missingArm _ _ => .missingArm
  | .undefinedDiscriminant _ => .unresolvedReference
  | .undefinedType _ => .unresolvedReference
  | .aliasLoop _ => .invalidDiscriminant
  | .notDiscriminant _ => .invalidDiscriminant
  | .defaultWithPayload _ => .invalidDefaultArm
  | .repeatedCase _ _ => .duplicateCase
  | .defaultTaken _ => .duplicateCase
  | .reported code _ => code

def message : SchemaError → String
  | .voidReference => "No need to reference void"
  | .missingArm u c =>
    "Union definition \"" ++ u ++ "\" has a switch \"" ++ c ++ "\" without an arm definition"
  | .undefinedDiscriminant name => "Discriminant type \"" ++ name ++ "\" is not defined"
  | .undefinedType name =>
    "Type \"" ++ name ++ "\" is reachable from the roots but never defined"
  | .aliasLoop name => "Discriminant aliases loop through " ++ name
  | .notDiscriminant kind => "A union cannot switch on a " ++ kind ++ " type"
  | .defaultWithPayload u =>
    "Union definition \"" ++ u ++ "\" has a default arm with a payload; only void is supported"
  | .repeatedCase u c =>
    "Union definition \"" ++ u ++ "\" has more than one case named \"" ++ c ++ "\""
  | .defaultTaken u =>
    "Union definition \"" ++ u ++ "\" has a case named \"Default\" and needs a default arm"
  | .reported _ message => message

end SchemaError

/-! ## Internal errors -/

/-- How a value that is no type is shown. -/
def RawValue.shown : RawValue → String
  | .missing => "None"
  | .text s => Text.quoted s
  | .number n => toString n

inductive InternalError
  | unsupported (value : RawValue)
  /-- A declaration was used where only its name may stand. -/
  | unnamed (kind name : String)
  | emptyDate
  | emptyImport (path : String)
  | unknownConfigCode (code : String)
  | unknownSchemaCode (code : String)
  /-- A path holds the character that ends paths. -/
  | nulInPath
  | reported (message : String)
  /-- Reported by a schema module as a failure of its run. -/
  | aborted (message : String)
  deriving DecidableEq, Repr

def InternalError.message : InternalError → String
  | .unsupported value => "Unsupported type descriptor: " ++ value.shown
  | .unnamed kind name => kind ++ " " ++ name ++ " must be referenced by name via lookup()"
  | .emptyDate => "generated_on must not be empty"
  | .emptyImport path => "RustImport for '" ++ path ++ "' has empty names tuple"
  | .unknownConfigCode code => "Unknown config error code: " ++ code
  | .unknownSchemaCode code => "Unknown schema error code: " ++ code
  | .nulInPath => "embedded null byte"
  | .reported message => message
  | .aborted message => message

/-! ## System errors -/

inductive Errno
  | notFound
  | exists
  | notDirectory
  | isDirectory
  | nameTooLong
  deriving DecidableEq, Repr

def Errno.text : Errno → String
  | .notFound => "[Errno 2] No such file or directory"
  | .exists => "[Errno 17] File exists"
  | .notDirectory => "[Errno 20] Not a directory"
  | .isDirectory => "[Errno 21] Is a directory"
  | .nameTooLong => "[Errno 36] File name too long"

inductive SystemError
  | refused (errno : Errno) (path : String)
  | reported (message : String)
  deriving DecidableEq, Repr

def SystemError.message : SystemError → String
  | .refused errno path => errno.text ++ ": " ++ Text.quoted path
  | .reported message => message

/-! ## Defects -/

inductive Defect
  /-- A union came with a whole definition and with the listed single fields. -/
  | bothForms (fields : List String)
  /-- A call or a value of the wrong shape. -/
  | wrongShape
  /-- A complaint about a shape, in the schema module's own words. -/
  | reported (message : String)
  /-- A property was read of a value that has none. -/
  | noProperty
  /-- A look-up found nothing. -/
  | noEntry
  /-- The schema module cannot be read. -/
  | unreadable
  deriving DecidableEq, Repr

/-- The words of a defect, for those that have some. -/
def Defect.message? : Defect → Option String
  | .bothForms fields =>
    some ("union() got both a definition and keyword fields: " ++ Text.quotedList fields)
  | .reported message => some message
  | _ => none

/-! ## All of them -/

inductive Failure
  | config (e : ConfigError)
  | schema (e : SchemaError)
  | internal (e : InternalError)
  | system (e : SystemError)
  | defect (d : Defect)
  deriving DecidableEq, Repr

/-- A configuration error with a code given as text; an unknown code is itself an
internal error. -/
def Failure.ofConfigCode (code message : String) (suggestion : Option String) : Failure :=
  match ConfigCode.ofText? code with
  | some c => .config (.reported c message suggestion)
  | none => .internal (.unknownConfigCode code)

/-- A schema error with a code given as text; an unknown code is itself an
internal error. -/
def Failure.ofSchemaCode (code message : String) : Failure :=
  match SchemaCode.ofText? code with
  | some c => .schema (.reported c message)
  | none => .internal (.unknownSchemaCode code)

end XdrCompiler
