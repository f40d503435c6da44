/-
# XdrCompiler.Text.Quoted -- texts in quotation marks

A quoted text stands between single quotes, or between double quotes when it
holds a single quote and no double one. The quote in use and the backslash are
preceded by a backslash, the three common control characters have letters, and
any other character that is not printable is written by its code point in two,
four or eight hexadecimal digits.
-/
import XdrCompiler.Text.Printable

namespace XdrCompiler.Text

/-- `n` in exactly `width` hexadecimal digits. -/
def hexDigits : (width : Nat) → (n : Nat) → List Char
  | 0, _ => []
  | width + 1, n => hexDigits width (n / 16) ++ [Nat.digitChar (n % 16)]

/-- The code point of an unprintable character, in the shortest of three widths. -/
def codePointEscape (c : Char) : List Char :=
  if c.toNat ≤ 0xff then '\\' :: 'x' :: hexDigits 2 c.toNat
  else if c.toNat ≤ 0xffff then '\\' :: 'u' :: hexDigits 4 c.toNat
  else '\\' :: 'U' :: hexDigits 8 c.toNat

/-- The quotation mark for a text: the single one, unless only that occurs in it. -/
def quoteFor (cs : List Char) : Char :=
  if '\'' ∈ cs ∧ ¬ '"' ∈ cs then '"' else '\''

/-- How a character stands between two `quote`s. -/
def quotedChar (quote c : Char) : List Char :=
  if c = quote ∨ c = '\\' then ['\\', c]
  else if c = '\t' then ['\\', 't']
  else if c = '\n' then ['\\', 'n']
  else if c = '\r' then ['\\', 'r']
  else if isPrintable c then [c]
  else codePointEscape c

/-- The quoted form of a text. -/
def quoted (s : String) : String :=
  let quote := quoteFor s.toList
  String.ofList (quote :: s.toList.flatMap (quotedChar quote) ++ [quote])

/-- Quoted texts between square brackets, with commas. -/
def quotedList (texts : List String) : String :=
  "[" ++ ", ".intercalate (texts.map quoted) ++ "]"

end XdrCompiler.Text
