/-
# XdrCompiler.Document.Token -- the tokens of a schema document

Documents are written in JSON with whole numbers. The text is read one
character at a time; the state says what the characters before belong to. A
word, which is a number or one of the three literals, ends with the character
that cannot continue it. A code point beyond the basic plane is written as two
escapes, and half of one is refused.
-/

namespace XdrCompiler.Document

inductive Token
  | openList
  | closeList
  | openObject
  | closeObject
  | comma
  | colon
  | null
  | bool (b : Bool)
  | number (n : Int)
  | text (s : String)
  deriving DecidableEq, Repr

/-- What the characters before belong to. Characters read so far come last one
first. -/
inductive Reading
  | between
  | word (read : List Char)
  /-- Inside a text; `high` is the first half of a code point written as two. -/
  | text (read : List Char) (high : Option Nat)
  /-- After a backslash. -/
  | escape (read : List Char) (high : Option Nat)
  /-- Inside a code point with `left` digits to come. -/
  | code (read : List Char) (high : Option Nat) (left value : Nat)

/-- The digits of a number, read on from `n`. -/
def readDigits (n : Nat) : List Char → Option Nat
  | [] => some n
  | c :: rest => if c.isDigit then readDigits (n * 10 + (c.toNat - '0'.toNat)) rest else none

/-- A number or a literal. -/
def wordToken : List Char → Option Token
  | ['n', 'u', 'l', 'l'] => some .null
  | ['t', 'r', 'u', 'e'] => some (.bool true)
  | ['f', 'a', 'l', 's', 'e'] => some (.bool false)
  | '-' :: c :: rest => (readDigits 0 (c :: rest)).map fun n => .number (-(n : Int))
  | c :: rest => (readDigits 0 (c :: rest)).map fun n => .number n
  | [] => none

/-- The token that a character is by itself. -/
def markToken? (c : Char) : Option Token :=
  if c = '[' then some .openList
  else if c = ']' then some .closeList
  else if c = '\x7b' then some .openObject
  else if c = '\x7d' then some .closeObject
  else if c = ',' then some .comma
  else if c = ':' then some .colon
  else none

/-- The character that a letter after a backslash stands for. -/
def escaped? (c : Char) : Option Char :=
  if c = '"' ∨ c = '\\' ∨ c = '/' then some c
  else if c = 'b' then some '\x08'
  else if c = 'f' then some '\x0c'
  else if c = 'n' then some '\n'
  else if c = 'r' then some '\r'
  else if c = 't' then some '\t'
  else none

def hexValue? (c : Char) : Option Nat :=
  if c.isDigit then some (c.toNat - '0'.toNat)
  else if 'a' ≤ c ∧ c ≤ 'f' then some (c.toNat - 'a'.toNat + 10)
  else if 'A' ≤ c ∧ c ≤ 'F' then some (c.toNat - 'A'.toNat + 10)
  else none

/-- Ends a code point written with four digits. -/
def closeCode (read : List Char) (high : Option Nat) (value : Nat) : Option Reading :=
  match high with
  | some h =>
    if 0xdc00 ≤ value ∧ value ≤ 0xdfff then
      some (.text (Char.ofNat (0x10000 + (h - 0xd800) * 0x400 + (value - 0xdc00)) :: read) none)
    else none
  | none =>
    if 0xd800 ≤ value ∧ value ≤ 0xdbff then some (.text read (some value))
    else if 0xdc00 ≤ value ∧ value ≤ 0xdfff then none
    else some (.text (Char.ofNat value :: read) none)

/-- Reads a character where a new token may start. -/
def startToken (c : Char) : Reading × List Token :=
  match markToken? c with
  | some mark => (.between, [mark])
  | none =>
    if c = '"' then (.text [] none, [])
    else if c.isWhitespace then (.between, [])
    else (.word [c], [])

/-- Whether a character continues a word. -/
def continuesWord (c : Char) : Bool :=
  (markToken? c).isNone && c != '"' && !c.isWhitespace

/-- Reads one character: the state after it, and the tokens that it completes. -/
def readChar (c : Char) : Reading → Option (Reading × List Token)
  | .between => some (startToken c)
  | .word read =>
    if continuesWord c then some (.word (c :: read), [])
    else
      (wordToken read.reverse).map fun token =>
        ((startToken c).1, token :: (startToken c).2)
  | .text read high =>
    if c = '\\' then some (.escape read high, [])
    else if high.isSome then none
    else if c = '"' then some (.between, [.text (String.ofList read.reverse)])
    else some (.text (c :: read) none, [])
  | .escape read high =>
    if c = 'u' then some (.code read high 4 0, [])
    else if high.isSome then none
    else (escaped? c).map fun e => (.text (e :: read) none, [])
  | .code read high left value =>
    (hexValue? c).bind fun digit =>
      let value' := value * 16 + digit
      if left ≤ 1 then (closeCode read high value').map fun next => (next, [])
      else some (.code read high (left - 1) value', [])

/-- The tokens of a text, continuing from a state. -/
def tokensFrom (state : Reading) : List Char → Option (List Token)
  | [] =>
    match state with
    | .between => some []
    | .word read => (wordToken read.reverse).map fun token => [token]
    | _ => none
  | c :: rest =>
    (readChar c state).bind fun next =>
      (tokensFrom next.1 rest).map fun others => next.2 ++ others

/-- The tokens of a document's text. -/
def tokens (s : String) : Option (List Token) := tokensFrom .between s.toList

end XdrCompiler.Document
