/-
# XdrCompiler.Source.Declaration -- the Rust text of declarations

A declaration is written as two texts: the definition of the Rust type and the
body of its codec. The encoder writes what the decoder reads: an enum its
number, a struct its fields in order, a union its discriminant and then the
payload of the variant.

The variants, the encoder's arms and the decoder's arms of a union are three
images of one list, and so are the definitions, the writers and the readers of
a struct's fields.
-/
import XdrCompiler.Schema.Union
import XdrCompiler.Text.Lines

namespace XdrCompiler

open Text (joinLines)

/-! ## Shared pieces -/

/-- The first line of an encoder. -/
def encodeSignature : List String :=
  ["    fn to_xdr_buffered(&self, write_stream: &mut WriteStream) \x7b"]

/-- The first lines of a decoder. -/
def decodeSignature : List String :=
  ["    fn from_xdr_buffered<T: AsRef<[u8]>>(",
   "        read_stream: &mut ReadStream<T>,",
   "    ) -> Result<Self, DecodeError> \x7b"]

/-- The members of a definition with commas between them. -/
def separateMembers : List String → String
  | [] => ""
  | [member] => member
  | member :: rest => member ++ ",\n" ++ separateMembers rest

/-- A type definition with the given members. -/
def definitionText (keyword name : String) (members : List String) : String :=
  "pub " ++ keyword ++ " " ++ name ++ " \x7b\n" ++ separateMembers members ++ "\n\x7d"

/-- A type as it is declared, behind a pointer or not. -/
def declaredType (type : RustType) (boxed : Bool) : String :=
  if boxed then "Box<" ++ type.declared ++ ">" else type.declared

/-- The expression that decodes a value of a type, behind a pointer or not. -/
def decodeExpression (type : RustType) (boxed : Bool) : String :=
  let decode := type.callable ++ "::from_xdr_buffered(read_stream)?"
  if boxed then "Box::new(" ++ decode ++ ")" else decode

/-! ## Enums -/

namespace EnumDecl

/-- The definition of a case. -/
def memberLine (c : EnumCase) : String := "    " ++ c.ident ++ " = " ++ toString c.value

/-- The arm that decodes a case. -/
def readerLine (e : EnumDecl) (c : EnumCase) : String :=
  "            " ++ toString c.value ++ " => Ok(" ++ e.name ++ "::" ++ c.ident ++ "),"

def definition (e : EnumDecl) : String :=
  definitionText "enum" e.name (e.cases.map memberLine)

def implementation (e : EnumDecl) : String :=
  joinLines <|
    encodeSignature ++
    ["        let value = *self as i32;",
     "        value.to_xdr_buffered(write_stream);",
     "    \x7d",
     ""] ++
    decodeSignature ++
    ["        let enum_value = i32::from_xdr_buffered(read_stream)?;",
     "        match enum_value \x7b"] ++
    e.cases.map e.readerLine ++
    ["            _ => Err(DecodeError::InvalidEnumDiscriminator " ++
       "\x7bat_position: read_stream.get_position()\x7d)",
     "        \x7d",
     "    \x7d"]

end EnumDecl

/-! ## Structs -/

namespace StructDecl

/-- The definition of a field. -/
def memberLine (f : FieldDecl) : String :=
  "    pub " ++ f.ident ++ ": " ++ declaredType f.type f.boxed

/-- The statement that encodes a field. -/
def writerLine (f : FieldDecl) : String :=
  "        self." ++ f.ident ++ ".to_xdr_buffered(write_stream);"

/-- The initializer that decodes a field. -/
def readerLine (f : FieldDecl) : String :=
  "            " ++ f.ident ++ ": " ++ decodeExpression f.type f.boxed ++ ","

def definition (s : StructDecl) : String :=
  definitionText "struct" s.name (s.fields.map memberLine)

def implementation (s : StructDecl) : String :=
  joinLines <|
    encodeSignature ++
    s.fields.map writerLine ++
    ["    \x7d",
     ""] ++
    decodeSignature ++
    ["        Ok(" ++ s.name ++ " \x7b"] ++
    s.fields.map readerLine ++
    ["        \x7d)",
     "    \x7d"]

end StructDecl

/-! ## Unions -/

namespace UnionDecl

/-- The definition of a variant. -/
def memberLine (v : Variant) : String :=
  match v.payload with
  | none => "    " ++ v.ident
  | some p => "    " ++ v.ident ++ "(" ++ declaredType p.type p.boxed ++ ")"

/-- The arm that encodes a variant: the discriminant, then the payload. -/
def writerLine (u : UnionDecl) (v : Variant) : String :=
  let path := "            " ++ u.name ++ "::" ++ v.ident
  let encoded := v.value.encoded u.discriminant.declared ++ ".to_xdr_buffered(write_stream)"
  match v.payload with
  | none => path ++ " => " ++ encoded ++ ","
  | some _ => path ++ "(value) => \x7b" ++ encoded ++ "; value.to_xdr_buffered(write_stream)\x7d,"

/-- The arm that decodes a variant. -/
def readerLine (u : UnionDecl) (v : Variant) : String :=
  let arm := "            " ++ v.value.pattern u.discriminant.declared ++ " => Ok(" ++ u.name ++
    "::" ++ v.ident
  match v.payload with
  | none => arm ++ "),"
  | some p => arm ++ "(" ++ decodeExpression p.type p.boxed ++ ")),"

/-- The definitions of all variants; the default one comes last. -/
def memberLines (u : UnionDecl) : List String :=
  u.variants.map memberLine ++
    if u.hasDefault then ["    Default(" ++ u.discriminant.declared ++ ")"] else []

/-- The arms of the encoder; the default one comes last. -/
def writerLines (u : UnionDecl) : List String :=
  u.variants.map u.writerLine ++
    if u.hasDefault then
      ["            " ++ u.name ++ "::Default(code) => code.to_xdr_buffered(write_stream),"]
    else []

/-- The arms of the decoder. The default one takes what no other does, so it comes
last. -/
def readerLines (u : UnionDecl) : List String :=
  u.variants.map u.readerLine ++
    if u.hasDefault then ["            code => Ok(" ++ u.name ++ "::Default(code)),"] else []

def definition (u : UnionDecl) : String := definitionText "enum" u.name u.memberLines

def implementation (u : UnionDecl) : String :=
  joinLines <|
    encodeSignature ++
    ["        match self \x7b"] ++
    u.writerLines ++
    ["        \x7d",
     "    \x7d",
     ""] ++
    decodeSignature ++
    ["        match " ++ u.discriminant.declared ++ "::from_xdr_buffered(read_stream)? \x7b"] ++
    u.readerLines ++
    ["        \x7d",
     "    \x7d"]

end UnionDecl

end XdrCompiler
