/-
# XdrCompiler.Command.Options -- reading the command line

Arguments are read in two passes. The first classifies each argument by itself:
it is an option, possibly with an operand after `=`, or an operand, or an option
that does not exist. Long options may be shortened as long as one candidate is
left, and an ambiguous one ends the reading at once. Everything after the
separator `--` is an operand.

The second pass carries the options out from left to right. An option that
takes an operand has it after `=` or as the next argument. Arguments that
belong to nothing are gathered and refused at the end, so that a request for
help comes before them.

The conventions for options have changed in two places over time. Here they are
those of argparse 3.10 and of the first releases of 3.11. An operand given after
`=` that is just the separator is dropped, which leaves the option with no operand
at all, and a request for help with letters attached that are not its own is
refused. Later releases, such as 3.11.10, keep the separator as the operand, and
answer the request.
-/
import XdrCompiler.Text.Digit
import XdrCompiler.Text.Quoted

namespace XdrCompiler

/-! ## Flags -/

inductive Flag
  | help
  | schema
  | outputDir
  | fileName
  | root
  | feature
  | boxBeginning
  | listTypes
  | filter
  deriving DecidableEq, Repr

namespace Flag

/-- All flags, in the order in which candidates are named. -/
def all : List Flag :=
  [.help, .schema, .outputDir, .fileName, .root, .feature, .boxBeginning, .listTypes, .filter]

/-- The full name of a flag. -/
def long : Flag → String
  | .help => "--help"
  | .schema => "--schema"
  | .outputDir => "--output-dir"
  | .fileName => "--file-name"
  | .root => "--root"
  | .feature => "--feature"
  | .boxBeginning => "--box-prefix"
  | .listTypes => "--list-types"
  | .filter => "--filter"

/-- How an error message calls a flag. -/
def title : Flag → String
  | .help => "-h/--help"
  | f => f.long

def takesOperand : Flag → Bool
  | .help => false
  | .listTypes => false
  | _ => true

end Flag

/-! ## Classification -/

/-- What an argument is by itself. -/
inductive Argument
  /-- The separator. -/
  | separator
  | operand (text : String)
  /-- A flag by its long name, with what stands after `=`. -/
  | long (flag : Flag) (attached : Option String)
  /-- The short request for help, with what is attached to it. -/
  | short (attached : Option String)
  /-- It looks like an option, but there is none of that name. -/
  | unknown (text : String)
  deriving DecidableEq, Repr

/-- Why the command line was not accepted. -/
inductive UsageError
  | ambiguous (argument : String) (candidates : List Flag)
  | operandMissing (flag : Flag)
  | operandRefused (flag : Flag) (operand : String)
  | unrecognized (arguments : List String)
  deriving DecidableEq, Repr

def UsageError.message : UsageError → String
  | .ambiguous argument candidates =>
    "ambiguous option: " ++ argument ++ " could match " ++
      ", ".intercalate (candidates.map Flag.long)
  | .operandMissing flag => "argument " ++ flag.title ++ ": expected one argument"
  | .operandRefused flag operand =>
    "argument " ++ flag.title ++ ": ignored explicit argument " ++ Text.quoted operand
  | .unrecognized arguments => "unrecognized arguments: " ++ " ".intercalate arguments

/-- Cuts a text at its first equals sign. -/
def cutEquals : List Char → List Char × Option (List Char)
  | [] => ([], none)
  | c :: rest =>
    if c = '=' then ([], some rest)
    else
      let (before, after) := cutEquals rest
      (c :: before, after)

/-- A minus sign followed by digits, possibly with a decimal point and digits after
it; one newline may follow. -/
def looksNegative (cs : List Char) : Bool :=
  match cs with
  | '-' :: rest =>
    let body := if rest.getLast? = some '\n' then rest.dropLast else rest
    let whole := body.takeWhile Text.isDecimalDigit
    match body.dropWhile Text.isDecimalDigit with
    | [] => !whole.isEmpty
    | '.' :: fraction => !fraction.isEmpty && fraction.all Text.isDecimalDigit
    | _ => false
  | _ => false

/-- What an argument is that starts with a minus sign and names no flag. -/
def classifyOther (argument : String) : Argument :=
  if looksNegative argument.toList || ' ' ∈ argument.toList then .operand argument
  else .unknown argument

/-- Reads an argument that starts with two minus signs. -/
def classifyLong (argument : String) : Except UsageError Argument :=
  let (name, after) := cutEquals argument.toList
  let attached := after.map String.ofList
  match Flag.all.find? (·.long.toList = name) with
  | some flag => .ok (.long flag attached)
  | none =>
    match Flag.all.filter fun flag => name.isPrefixOf flag.long.toList with
    | [] => .ok (classifyOther argument)
    | [flag] => .ok (.long flag attached)
    | candidates => .error (.ambiguous argument candidates)

/-- Reads an argument that starts with one minus sign. -/
def classifyShort (argument : String) : Argument :=
  match argument.toList with
  | ['-', 'h'] => .short none
  | '-' :: 'h' :: '=' :: rest => .short (some (String.ofList rest))
  | '-' :: 'h' :: rest => .short (some (String.ofList rest))
  | _ => classifyOther argument

/-- What one argument is, the separator apart. -/
def classify (argument : String) : Except UsageError Argument :=
  match argument.toList with
  | '-' :: '-' :: _ => classifyLong argument
  | '-' :: _ :: _ => .ok (classifyShort argument)
  | _ => .ok (.operand argument)

/-- Classifies all arguments; behind the separator there are only operands. -/
def classifyAll : List String → Except UsageError (List Argument)
  | [] => .ok []
  | argument :: rest =>
    if argument = "--" then .ok (.separator :: rest.map .operand)
    else do
      let first ← classify argument
      let others ← classifyAll rest
      return first :: others

/-! ## Carrying out -/

/-- The operand of an option. -/
inductive Operand
  | text (s : String)
  /-- The separator was given in its place. -/
  | dropped
  deriving DecidableEq, Repr

/-- The operand that an attached text stands for. -/
def Operand.ofAttached (s : String) : Operand := if s = "--" then .dropped else .text s

/-- The options as given; later ones replace earlier ones of the same name, and
roots and boxed beginnings add up. -/
structure Options where
  schema : Option Operand := none
  outputDir : Operand := .text "generated"
  fileName : Operand := .text "xdr.rs"
  roots : List Operand := []
  feature : Operand := .text "all-types"
  boxedBeginnings : List Operand := []
  listTypes : Bool := false
  filter : Option Operand := none

/-- The effect of an option with its operand. -/
def Options.set (o : Options) (flag : Flag) (operand : Operand) : Options :=
  match flag with
  | .schema => { o with schema := some operand }
  | .outputDir => { o with outputDir := operand }
  | .fileName => { o with fileName := operand }
  | .root => { o with roots := o.roots ++ [operand] }
  | .feature => { o with feature := operand }
  | .boxBeginning => { o with boxedBeginnings := o.boxedBeginnings ++ [operand] }
  | .filter => { o with filter := some operand }
  | .listTypes => { o with listTypes := true }
  | .help => o

/-- What the command line asks for. -/
inductive Request
  | help
  | run (options : Options)

/-- Whether attached letters only repeat the request for help; otherwise the part
that is refused. -/
def refusedLetters : List Char → Option (List Char)
  | [] => none
  | 'h' :: rest => refusedLetters rest
  | rest => some rest

/-- Carries out the arguments in order. `extras` has those that belong to nothing,
the last one first. -/
def carryOut (o : Options) (extras : List String) : List Argument → Except UsageError Request
  | [] => if extras.isEmpty then .ok (.run o) else .error (.unrecognized extras.reverse)
  | .separator :: rest => carryOut o ("--" :: extras) rest
  | .operand text :: rest => carryOut o (text :: extras) rest
  | .unknown text :: rest => carryOut o (text :: extras) rest
  | .short none :: _ => .ok .help
  | .short (some attached) :: _ =>
    if attached = "" then .error (.operandRefused .help "")
    else
      match refusedLetters attached.toList with
      | none => .ok .help
      | some letters => .error (.operandRefused .help (String.ofList letters))
  | .long flag (some attached) :: rest =>
    if flag.takesOperand then carryOut (o.set flag (.ofAttached attached)) extras rest
    else .error (.operandRefused flag attached)
  | .long flag none :: rest =>
    if flag.takesOperand then
      -- Neither an option nor the separator can serve as an operand.
      match rest with
      | .operand text :: rest' => carryOut (o.set flag (.text text)) extras rest'
      | _ => .error (.operandMissing flag)
    else if flag = .help then .ok .help
    else carryOut (o.set flag .dropped) extras rest

/-- Reads a command line. -/
def readArguments (arguments : List String) : Except UsageError Request :=
  (classifyAll arguments).bind (carryOut {} [])

end XdrCompiler
