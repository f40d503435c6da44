/-
# XdrCompiler.Proofs.MarkedText -- generated text with its type names marked

Which types a piece of generated text names cannot be read off the text: a field
or a variant may be spelled like a type, and a reference may have any name. Here
the text is written a second time with a mark on each place where it names a
declared type: the target of an alias, the type of a field, of a payload, of the
discriminant or of a decoded value, and the name of the declaration itself. The
marked form decides nothing of its own. Without its marks it is the text that is
generated (`plain_itemText`, `text_markedBlock`).
-/
import XdrCompiler.Proofs.FileLayout

namespace XdrCompiler

open Text (joinLines lines)

/-! ## Marked text -/

/-- A stretch of text: plain, or the name of a declared type. -/
inductive Span
  | plain (text : String)
  | typeName (name : String)

/-- A text in which the names of declared types are marked. -/
abbrev Marked := List Span

namespace Marked

/-- The text without its marks. -/
def text : Marked → String
  | [] => ""
  | .plain s :: rest => s ++ text rest
  | .typeName name :: rest => name ++ text rest

/-- The declared types that the text names. -/
def names : Marked → List String
  | [] => []
  | .plain _ :: rest => names rest
  | .typeName name :: rest => name :: names rest

@[simp] theorem text_nil : text [] = "" := rfl

@[simp] theorem text_plain (s : String) (m : Marked) : text (.plain s :: m) = s ++ text m := rfl

@[simp] theorem text_typeName (name : String) (m : Marked) :
    text (.typeName name :: m) = name ++ text m := rfl

@[simp] theorem names_nil : names [] = [] := rfl

@[simp] theorem names_plain (s : String) (m : Marked) : names (.plain s :: m) = names m := rfl

@[simp] theorem names_typeName (name : String) (m : Marked) :
    names (.typeName name :: m) = name :: names m := rfl

@[simp] theorem text_append (a b : Marked) : text (a ++ b) = text a ++ text b := by
  induction a with
  | nil => simp
  | cons span rest ih => cases span <;> simp [ih, String.append_assoc]

@[simp] theorem names_append (a b : Marked) : names (a ++ b) = names a ++ names b := by
  induction a with
  | nil => rfl
  | cons span rest ih => cases span <;> simp [ih]

/-- Marked texts with a plain one between each two of them. -/
def between (separator : String) : List Marked → Marked
  | [] => []
  | [m] => m
  | m :: rest => m ++ .plain separator :: between separator rest

theorem text_between_newline (ms : List Marked) :
    text (between "\n" ms) = joinLines (ms.map text) := by
  induction ms with
  | nil => rfl
  | cons m rest ih =>
    cases rest with
    | nil => rfl
    | cons next others =>
      simp only [between, text_append, text_plain, List.map_cons, joinLines] at ih ⊢
      rw [ih, String.append_assoc]

theorem text_between_comma (ms : List Marked) :
    text (between ",\n" ms) = separateMembers (ms.map text) := by
  induction ms with
  | nil => rfl
  | cons m rest ih =>
    cases rest with
    | nil => rfl
    | cons next others =>
      simp only [between, text_append, text_plain, List.map_cons, separateMembers] at ih ⊢
      rw [ih, String.append_assoc]

theorem names_between (separator : String) (ms : List Marked) :
    names (between separator ms) = ms.flatMap names := by
  induction ms with
  | nil => rfl
  | cons m rest ih =>
    cases rest with
    | nil => simp [between]
    | cons next others =>
      simp only [between, names_append, names_plain, List.flatMap_cons] at ih ⊢
      rw [ih]

/-- Lines that name no type. -/
def plainLines (ls : List String) : List Marked := ls.map fun l => [.plain l]

@[simp] theorem map_text_plainLines (ls : List String) : (plainLines ls).map text = ls := by
  simp [plainLines, Function.comp_def]

@[simp] theorem flatMap_names_plainLines (ls : List String) :
    (plainLines ls).flatMap names = [] := by
  simp [plainLines]

end Marked

/-! ## Types -/

namespace RustType

/-- An array type in its place. -/
def markedBracketed (p : Position) (element : Marked) (length : String) : Marked :=
  match p with
  | .declared => .plain "[" :: element ++ [.plain "; ", .plain length, .plain "]"]
  | .callable => .plain "<[" :: element ++ [.plain "; ", .plain length, .plain "]>"]

/-- A type in a given place, with the declared types in it marked. -/
def marked (p : Position) : RustType → Marked
  | .named name => [.typeName name]
  | .boxed name => [.plain "Box<", .typeName name, .plain ">"]
  | .array element length => markedBracketed p (element.marked p) length
  | .varArray element (some bound) =>
    .plain "LimitedVarArray" :: .plain (separator p) :: .plain "<" :: element.marked p ++
      [.plain ", ", .plain bound, .plain ">"]
  | .varArray element none =>
    .plain "UnlimitedVarArray" :: .plain (separator p) :: .plain "<" :: element.marked p ++
      [.plain ">"]
  | .option inner =>
    .plain "Option" :: .plain (separator p) :: .plain "<" :: inner.marked p ++ [.plain ">"]
  | .primitive q => [.plain q.name]
  | .bytes length => [.plain (bracketed p "u8" length)]
  | .varBytes bound => [.plain ((RustType.varBytes bound).write p)]
  | .text bound => [.plain ((RustType.text bound).write p)]

@[simp] theorem text_marked (p : Position) (t : RustType) : (t.marked p).text = t.write p := by
  induction t with
  | named name => simp [marked]
  | boxed name => simp [marked, String.append_assoc]
  | array element length ih =>
    cases p <;> simp [marked, markedBracketed, bracketed, ih, String.append_assoc]
  | varArray element bound ih =>
    cases bound <;> simp [marked, ih, String.append_assoc]
  | option inner ih => simp [marked, ih, String.append_assoc]
  | _ => simp [marked]

@[simp] theorem names_marked (p : Position) (t : RustType) : (t.marked p).names = t.names := by
  induction t with
  | named name => rfl
  | boxed name => rfl
  | array element length ih => cases p <;> simp [marked, markedBracketed, names, ih]
  | varArray element bound ih => cases bound <;> simp [marked, names, ih]
  | option inner ih => simp [marked, names, ih]
  | _ => rfl

end RustType

/-- A type as it is declared, behind a pointer or not. -/
def markedDeclared (type : RustType) (boxed : Bool) : Marked :=
  if boxed then .plain "Box<" :: type.marked .declared ++ [.plain ">"] else type.marked .declared

/-- The expression that decodes a value of a type, behind a pointer or not. -/
def markedDecode (type : RustType) (boxed : Bool) : Marked :=
  let decode := type.marked .callable ++ [.plain "::from_xdr_buffered(read_stream)?"]
  if boxed then .plain "Box::new(" :: decode ++ [.plain ")"] else decode

@[simp] theorem text_markedDeclared (type : RustType) (boxed : Bool) :
    (markedDeclared type boxed).text = declaredType type boxed := by
  cases boxed <;> simp [markedDeclared, declaredType, RustType.declared, String.append_assoc]

@[simp] theorem names_markedDeclared (type : RustType) (boxed : Bool) :
    (markedDeclared type boxed).names = type.names := by
  cases boxed <;> simp [markedDeclared]

@[simp] theorem text_markedDecode (type : RustType) (boxed : Bool) :
    (markedDecode type boxed).text = decodeExpression type boxed := by
  cases boxed <;> simp [markedDecode, decodeExpression, RustType.callable, String.append_assoc]

@[simp] theorem names_markedDecode (type : RustType) (boxed : Bool) :
    (markedDecode type boxed).names = type.names := by
  cases boxed <;> simp [markedDecode]

/-- A type definition with the given members. -/
def markedDefinition (keyword name : String) (members : List Marked) : Marked :=
  [.plain "pub ", .plain keyword, .plain " ", .typeName name, .plain " \x7b\n"] ++
    Marked.between ",\n" members ++ [.plain "\n\x7d"]

theorem text_markedDefinition (keyword name : String) (members : List Marked) :
    (markedDefinition keyword name members).text =
      definitionText keyword name (members.map Marked.text) := by
  unfold definitionText
  simp [markedDefinition, Marked.text_between_comma, String.append_assoc]

theorem names_markedDefinition (keyword name : String) (members : List Marked) :
    (markedDefinition keyword name members).names = name :: members.flatMap Marked.names := by
  simp [markedDefinition, Marked.names_between]

/-! ## Declarations -/

namespace EnumDecl

def markedReader (e : EnumDecl) (c : EnumCase) : Marked :=
  [.plain "            ", .plain (toString c.value), .plain " => Ok(", .typeName e.name,
   .plain "::", .plain c.ident, .plain "),"]

def markedDefinition (e : EnumDecl) : Marked :=
  XdrCompiler.markedDefinition "enum" e.name (Marked.plainLines (e.cases.map memberLine))

def markedImplementation (e : EnumDecl) : Marked :=
  Marked.between "\n" <|
    Marked.plainLines encodeSignature ++
    Marked.plainLines
      ["        let value = *self as i32;",
       "        value.to_xdr_buffered(write_stream);",
       "    \x7d",
       ""] ++
    Marked.plainLines decodeSignature ++
    Marked.plainLines
      ["        let enum_value = i32::from_xdr_buffered(read_stream)?;",
       "        match enum_value \x7b"] ++
    e.cases.map e.markedReader ++
    Marked.plainLines
      ["            _ => Err(DecodeError::InvalidEnumDiscriminator " ++
         "\x7bat_position: read_stream.get_position()\x7d)",
       "        \x7d",
       "    \x7d"]

/-- An enum names nothing but itself. -/
theorem names_marked {e : EnumDecl} {n : String}
    (h : n ∈ e.markedDefinition.names ++ e.markedImplementation.names) : n = e.name := by
  simp only [markedDefinition, markedImplementation, names_markedDefinition, Marked.names_between,
    List.flatMap_append, Marked.flatMap_names_plainLines, List.nil_append, List.append_nil,
    List.mem_append, List.mem_singleton, List.mem_flatMap, List.mem_map] at h
  rcases h with h | ⟨m, ⟨c, -, rfl⟩, h⟩
  · exact h
  · simpa [markedReader] using h

theorem text_markedReader (e : EnumDecl) (c : EnumCase) :
    (e.markedReader c).text = e.readerLine c := by
  unfold readerLine
  simp [markedReader, String.append_assoc]

theorem text_markedDefinition (e : EnumDecl) : e.markedDefinition.text = e.definition := by
  rw [markedDefinition, XdrCompiler.text_markedDefinition, Marked.map_text_plainLines, definition]

theorem text_markedImplementation (e : EnumDecl) :
    e.markedImplementation.text = e.implementation := by
  simp only [markedImplementation, implementation, Marked.text_between_newline, List.map_append,
    Marked.map_text_plainLines, List.map_map, Function.comp_def, text_markedReader]

end EnumDecl

namespace StructDecl

def markedMember (f : FieldDecl) : Marked :=
  [.plain "    pub ", .plain f.ident, .plain ": "] ++ markedDeclared f.type f.boxed

def markedReader (f : FieldDecl) : Marked :=
  [.plain "            ", .plain f.ident, .plain ": "] ++ markedDecode f.type f.boxed ++ [.plain ","]

def markedDefinition (s : StructDecl) : Marked :=
  XdrCompiler.markedDefinition "struct" s.name (s.fields.map markedMember)

def markedImplementation (s : StructDecl) : Marked :=
  Marked.between "\n" <|
    Marked.plainLines encodeSignature ++
    Marked.plainLines (s.fields.map writerLine) ++
    Marked.plainLines
      ["    \x7d",
       ""] ++
    Marked.plainLines decodeSignature ++
    [[.plain "        Ok(", .typeName s.name, .plain " \x7b"]] ++
    s.fields.map markedReader ++
    Marked.plainLines
      ["        \x7d)",
       "    \x7d"]

/-- A struct names itself and what its fields are made of. -/
theorem names_marked {s : StructDecl} {n : String}
    (h : n ∈ s.markedDefinition.names ++ s.markedImplementation.names) :
    n = s.name ∨ ∃ f ∈ s.fields, n ∈ f.type.names := by
  simp only [markedDefinition, markedImplementation, names_markedDefinition, Marked.names_between,
    List.flatMap_append, Marked.flatMap_names_plainLines, List.nil_append, List.append_nil,
    List.mem_append, List.mem_cons, List.mem_flatMap, List.mem_map] at h
  rcases h with (h | ⟨m, ⟨f, hf, rfl⟩, h⟩) | ⟨m, h, hn⟩ | ⟨m, ⟨f, hf, rfl⟩, h⟩
  · exact Or.inl h
  · exact Or.inr ⟨f, hf, by simpa [markedMember] using h⟩
  · obtain rfl : m = _ := by simpa using h
    exact Or.inl (by simpa using hn)
  · exact Or.inr ⟨f, hf, by simpa [markedReader] using h⟩

theorem text_markedMember (f : FieldDecl) : (markedMember f).text = memberLine f := by
  unfold memberLine
  simp [markedMember, String.append_assoc]

theorem text_markedReader (f : FieldDecl) : (markedReader f).text = readerLine f := by
  unfold readerLine
  simp [markedReader, String.append_assoc]

theorem text_markedDefinition (s : StructDecl) : s.markedDefinition.text = s.definition := by
  simp only [markedDefinition, XdrCompiler.text_markedDefinition, definition, List.map_map,
    Function.comp_def, text_markedMember]

theorem text_markedImplementation (s : StructDecl) :
    s.markedImplementation.text = s.implementation := by
  simp only [markedImplementation, implementation, Marked.text_between_newline, List.map_append,
    Marked.map_text_plainLines, List.map_map, Function.comp_def, text_markedReader, List.map_cons,
    List.map_nil, Marked.text_plain, Marked.text_typeName, Marked.text_nil, String.append_empty,
    String.append_assoc]

end StructDecl

/-- The expression that is encoded for a switch value; a label names the discriminant type. -/
def SwitchValue.markedEncoded (discriminant : Marked) : SwitchValue → Marked
  | .truth b => [.plain (if b then "true" else "false")]
  | .label s => discriminant ++ [.plain "::", .plain (Naming.pascalCase s)]
  | .number n => [.plain "(", .plain (toString n), .plain " as "] ++ discriminant ++ [.plain ")"]

/-- The pattern that a decoded switch value is matched with. -/
def SwitchValue.markedPattern (discriminant : Marked) : SwitchValue → Marked
  | .truth b => [.plain (if b then "true" else "false")]
  | .label s => discriminant ++ [.plain "::", .plain (Naming.pascalCase s)]
  | .number n => [.plain (toString n)]

@[simp] theorem SwitchValue.text_markedEncoded (discriminant : Marked) (v : SwitchValue) :
    (v.markedEncoded discriminant).text = v.encoded discriminant.text := by
  cases v with
  | number n => simp [markedEncoded, String.append_assoc]
  | label s => simp [markedEncoded, String.append_assoc]
  | truth b => simp [markedEncoded]

@[simp] theorem SwitchValue.text_markedPattern (discriminant : Marked) (v : SwitchValue) :
    (v.markedPattern discriminant).text = v.pattern discriminant.text := by
  cases v with
  | number n => simp [markedPattern]
  | label s => simp [markedPattern, String.append_assoc]
  | truth b => simp [markedPattern]

theorem SwitchValue.names_markedEncoded {discriminant : Marked} {v : SwitchValue} {n : String}
    (h : n ∈ (v.markedEncoded discriminant).names) : n ∈ discriminant.names := by
  cases v with
  | number m => simpa [markedEncoded] using h
  | label s => simpa [markedEncoded] using h
  | truth b => simp [markedEncoded] at h

theorem SwitchValue.names_markedPattern {discriminant : Marked} {v : SwitchValue} {n : String}
    (h : n ∈ (v.markedPattern discriminant).names) : n ∈ discriminant.names := by
  cases v with
  | number m => simp [markedPattern] at h
  | label s => simpa [markedPattern] using h
  | truth b => simp [markedPattern] at h

namespace UnionDecl

def markedMember (v : Variant) : Marked :=
  match v.payload with
  | none => [.plain "    ", .plain v.ident]
  | some p =>
    [.plain "    ", .plain v.ident, .plain "("] ++ markedDeclared p.type p.boxed ++ [.plain ")"]

def markedWriter (u : UnionDecl) (v : Variant) : Marked :=
  let path : Marked := [.plain "            ", .typeName u.name, .plain "::", .plain v.ident]
  let encoded := v.value.markedEncoded (u.discriminant.marked .declared) ++
    [.plain ".to_xdr_buffered(write_stream)"]
  match v.payload with
  | none => path ++ [.plain " => "] ++ encoded ++ [.plain ","]
  | some _ =>
    path ++ [.plain "(value) => \x7b"] ++ encoded ++
      [.plain "; value.to_xdr_buffered(write_stream)\x7d,"]

def markedReader (u : UnionDecl) (v : Variant) : Marked :=
  let arm := [.plain "            "] ++ v.value.markedPattern (u.discriminant.marked .declared) ++
    [.plain " => Ok(", .typeName u.name, .plain "::", .plain v.ident]
  match v.payload with
  | none => arm ++ [.plain "),"]
  | some p => arm ++ [.plain "("] ++ markedDecode p.type p.boxed ++ [.plain ")),"]

def markedMembers (u : UnionDecl) : List Marked :=
  u.variants.map markedMember ++
    if u.hasDefault then
      [.plain "    Default(" :: u.discriminant.marked .declared ++ [.plain ")"]]
    else []

def markedWriters (u : UnionDecl) : List Marked :=
  u.variants.map u.markedWriter ++
    if u.hasDefault then
      [[.plain "            ", .typeName u.name,
        .plain "::Default(code) => code.to_xdr_buffered(write_stream),"]]
    else []

def markedReaders (u : UnionDecl) : List Marked :=
  u.variants.map u.markedReader ++
    if u.hasDefault then
      [[.plain "            code => Ok(", .typeName u.name, .plain "::Default(code)),"]]
    else []

def markedDefinition (u : UnionDecl) : Marked :=
  XdrCompiler.markedDefinition "enum" u.name u.markedMembers

def markedImplementation (u : UnionDecl) : Marked :=
  Marked.between "\n" <|
    Marked.plainLines encodeSignature ++
    Marked.plainLines ["        match self \x7b"] ++
    u.markedWriters ++
    Marked.plainLines
      ["        \x7d",
       "    \x7d",
       ""] ++
    Marked.plainLines decodeSignature ++
    [.plain "        match " :: u.discriminant.marked .declared ++
       [.plain "::from_xdr_buffered(read_stream)? \x7b"]] ++
    u.markedReaders ++
    Marked.plainLines
      ["        \x7d",
       "    \x7d"]

theorem text_markedMember (v : Variant) : (markedMember v).text = memberLine v := by
  unfold memberLine markedMember
  cases hp : v.payload <;> simp [String.append_assoc]

theorem text_markedWriter (u : UnionDecl) (v : Variant) :
    (u.markedWriter v).text = u.writerLine v := by
  unfold writerLine markedWriter
  cases hp : v.payload <;> simp [RustType.declared, String.append_assoc]

theorem text_markedReader (u : UnionDecl) (v : Variant) :
    (u.markedReader v).text = u.readerLine v := by
  unfold readerLine markedReader
  cases hp : v.payload <;> simp [RustType.declared, String.append_assoc]

theorem map_text_markedMembers (u : UnionDecl) : u.markedMembers.map Marked.text = u.memberLines := by
  unfold memberLines markedMembers
  cases u.hasDefault <;>
    simp [text_markedMember, RustType.declared, String.append_assoc]

theorem map_text_markedWriters (u : UnionDecl) : u.markedWriters.map Marked.text = u.writerLines := by
  unfold writerLines markedWriters
  cases u.hasDefault <;> simp [text_markedWriter, String.append_assoc]

theorem map_text_markedReaders (u : UnionDecl) : u.markedReaders.map Marked.text = u.readerLines := by
  unfold readerLines markedReaders
  cases u.hasDefault <;> simp [text_markedReader, String.append_assoc]

theorem text_markedDefinition (u : UnionDecl) : u.markedDefinition.text = u.definition := by
  rw [markedDefinition, XdrCompiler.text_markedDefinition, map_text_markedMembers, definition]

theorem text_markedImplementation (u : UnionDecl) :
    u.markedImplementation.text = u.implementation := by
  simp only [markedImplementation, implementation, Marked.text_between_newline, List.map_append,
    Marked.map_text_plainLines, map_text_markedWriters, map_text_markedReaders, List.map_cons,
    List.map_nil, List.cons_append, Marked.text_plain, Marked.text_append, Marked.text_nil,
    RustType.text_marked, RustType.declared, String.append_empty, String.append_assoc]

/-- A union names itself, its discriminant and what its payloads are made of. -/
def Names (u : UnionDecl) (n : String) : Prop :=
  n = u.name ∨ n ∈ u.discriminant.names ∨
    ∃ v ∈ u.variants, ∃ p, v.payload = some p ∧ n ∈ p.type.names

theorem names_markedMembers {u : UnionDecl} {n : String}
    (h : n ∈ u.markedMembers.flatMap Marked.names) : u.Names n := by
  unfold markedMembers at h
  rw [List.flatMap_append, List.mem_append, List.mem_flatMap] at h
  rcases h with ⟨m, hm, hn⟩ | h
  · obtain ⟨v, hv, rfl⟩ := List.mem_map.mp hm
    unfold markedMember at hn
    split at hn
    · simp at hn
    · next p hp => exact Or.inr (Or.inr ⟨v, hv, p, hp, by simpa using hn⟩)
  · cases hdefault : u.hasDefault with
    | false => simp [hdefault] at h
    | true => exact Or.inr (Or.inl (by simpa [hdefault] using h))

theorem names_markedWriters {u : UnionDecl} {n : String}
    (h : n ∈ u.markedWriters.flatMap Marked.names) : u.Names n := by
  unfold markedWriters at h
  rw [List.flatMap_append, List.mem_append, List.mem_flatMap] at h
  rcases h with ⟨m, hm, hn⟩ | h
  · obtain ⟨v, -, rfl⟩ := List.mem_map.mp hm
    have hn' : n = u.name ∨ n ∈ (v.value.markedEncoded (u.discriminant.marked .declared)).names := by
      unfold markedWriter at hn
      split at hn <;> simpa using hn
    rcases hn' with hn | hn
    · exact Or.inl hn
    · exact Or.inr (Or.inl (by simpa using SwitchValue.names_markedEncoded hn))
  · cases hdefault : u.hasDefault with
    | false => simp [hdefault] at h
    | true => exact Or.inl (by simpa [hdefault] using h)

theorem names_markedReaders {u : UnionDecl} {n : String}
    (h : n ∈ u.markedReaders.flatMap Marked.names) : u.Names n := by
  unfold markedReaders at h
  rw [List.flatMap_append, List.mem_append, List.mem_flatMap] at h
  rcases h with ⟨m, hm, hn⟩ | h
  · obtain ⟨v, hv, rfl⟩ := List.mem_map.mp hm
    have hn' : n ∈ (v.value.markedPattern (u.discriminant.marked .declared)).names ∨ n = u.name ∨
        ∃ p, v.payload = some p ∧ n ∈ p.type.names := by
      unfold markedReader at hn
      split at hn
      · rcases (by simpa using hn : _ ∨ _) with hn | hn
        · exact Or.inl hn
        · exact Or.inr (Or.inl hn)
      · next p hp =>
        rcases (by simpa using hn : _ ∨ _ ∨ _) with hn | hn | hn
        · exact Or.inl hn
        · exact Or.inr (Or.inl hn)
        · exact Or.inr (Or.inr ⟨p, hp, hn⟩)
    rcases hn' with hn | hn | ⟨p, hp, hn⟩
    · exact Or.inr (Or.inl (by simpa using SwitchValue.names_markedPattern hn))
    · exact Or.inl hn
    · exact Or.inr (Or.inr ⟨v, hv, p, hp, hn⟩)
  · cases hdefault : u.hasDefault with
    | false => simp [hdefault] at h
    | true => exact Or.inl (by simpa [hdefault] using h)

theorem names_marked {u : UnionDecl} {n : String}
    (h : n ∈ u.markedDefinition.names ++ u.markedImplementation.names) : u.Names n := by
  simp only [markedDefinition, markedImplementation, names_markedDefinition, Marked.names_between,
    List.flatMap_append, Marked.flatMap_names_plainLines, List.nil_append, List.append_nil,
    List.mem_append, List.mem_cons] at h
  rcases h with (h | h) | (h | h) | h
  · exact Or.inl h
  · exact names_markedMembers h
  · exact names_markedWriters h
  · exact Or.inr (Or.inl (by simpa using h))
  · exact names_markedReaders h

end UnionDecl

/-! ## Blocks of the file -/

/-- What the text of an entry consists of, with its marks. -/
inductive MarkedItem
  | synonym (target : Marked)
  | declaration (derives : String) (definition implementation : Marked)

namespace MarkedItem

/-- The item without its marks. -/
def plain : MarkedItem → ItemText
  | .synonym target => .synonym target.text
  | .declaration derives definition implementation =>
    .declaration derives definition.text implementation.text

def names : MarkedItem → List String
  | .synonym target => target.names
  | .declaration _ definition implementation => definition.names ++ implementation.names

end MarkedItem

/-- The marked text of an entry of the type table. -/
def XdrType.markedItem : XdrType → Except Failure MarkedItem
  | .enum e =>
    .ok (.declaration "Debug, Copy, Clone, Eq, PartialEq" e.markedDefinition e.markedImplementation)
  | .struct s =>
    .ok (.declaration "Debug, Clone, Eq, PartialEq" s.markedDefinition s.markedImplementation)
  | .union u =>
    .ok (.declaration "Debug, Clone, Eq, PartialEq" u.markedDefinition u.markedImplementation)
  | t => t.toRust.map fun type => .synonym (type.marked .declared)

theorem XdrType.itemText_of_alias {t : XdrType} (h : t.label = .typeAlias) :
    t.itemText = t.declaredText.map .synonym := by
  cases t with
  | enum e => cases h
  | struct s => cases h
  | union u => cases h
  | _ => rfl

theorem XdrType.markedItem_of_alias {t : XdrType} (h : t.label = .typeAlias) :
    t.markedItem = t.toRust.map fun type => .synonym (type.marked .declared) := by
  cases t with
  | enum e => cases h
  | struct s => cases h
  | union u => cases h
  | _ => rfl

theorem plain_markedSynonym (t : XdrType) :
    (t.toRust.map fun type => MarkedItem.synonym (type.marked .declared)).map MarkedItem.plain =
      t.declaredText.map .synonym := by
  unfold XdrType.declaredText
  cases t.toRust with
  | error failure => rfl
  | ok type => simp [Except.map, MarkedItem.plain, RustType.declared]

theorem XdrType.plain_markedItem (t : XdrType) :
    t.markedItem.map MarkedItem.plain = t.itemText := by
  cases t with
  | enum e =>
    simp only [markedItem, itemText, Except.map, MarkedItem.plain, EnumDecl.text_markedDefinition,
      EnumDecl.text_markedImplementation]
  | struct s =>
    simp only [markedItem, itemText, Except.map, MarkedItem.plain, StructDecl.text_markedDefinition,
      StructDecl.text_markedImplementation]
  | union u =>
    simp only [markedItem, itemText, Except.map, MarkedItem.plain, UnionDecl.text_markedDefinition,
      UnionDecl.text_markedImplementation]
  | _ =>
    rw [markedItem_of_alias rfl, itemText_of_alias rfl]
    exact plain_markedSynonym _

/-- The lines that follow the attributes of an entry. A definition and a codec stand here
as one line each, whatever lines they have. -/
def markedItemLines (name : String) (gate : List Marked) : MarkedItem → List Marked
  | .synonym target => [[.plain "pub type ", .typeName name, .plain " = "] ++ target ++ [.plain ";"]]
  | .declaration derives definition implementation =>
    [[.plain "#[derive(", .plain derives, .plain ")]"], definition, []] ++
    gate ++
    [[.plain "impl XdrCodec for ", .typeName name, .plain " \x7b"], implementation, [.plain "\x7d"]]

/-- The marked block of one entry. -/
def markedBlock (name : String) (gated : Bool) (feature : String) (item : MarkedItem) : Marked :=
  let gate := Marked.plainLines (gateLines gated feature)
  Marked.between "\n" <|
    [[.plain "/// Autogenerated definition for type ", .typeName name],
     [.plain "#[allow(dead_code)]"]] ++
    gate ++
    markedItemLines name gate item ++
    [[]]

theorem text_markedBlock (name : String) (gated : Bool) (feature : String) (item : MarkedItem) :
    (markedBlock name gated feature item).text =
      joinLines (["/// Autogenerated definition for type " ++ name, "#[allow(dead_code)]"] ++
        gateLines gated feature ++ itemLines name (gateLines gated feature) item.plain ++ [""]) := by
  unfold markedBlock markedItemLines
  cases item with
  | synonym target =>
    simp only [itemLines, Marked.text_between_newline, MarkedItem.plain, List.map_append,
      Marked.map_text_plainLines, List.map_cons, List.map_nil, Marked.text_append,
      Marked.text_plain, Marked.text_typeName, Marked.text_nil, String.append_empty,
      String.append_assoc]
  | declaration derives definition implementation =>
    rw [MarkedItem.plain, joinLines_itemLines]
    simp only [Marked.text_between_newline, List.map_append, Marked.map_text_plainLines,
      List.map_cons, List.map_nil, Marked.text_plain, Marked.text_typeName, Marked.text_nil,
      String.append_empty, String.append_assoc, List.append_assoc, List.cons_append,
      List.nil_append]

/-- A block names its own type and what its item names. -/
theorem names_markedBlock {name feature n : String} {gated : Bool} {item : MarkedItem}
    (h : n ∈ (markedBlock name gated feature item).names) : n = name ∨ n ∈ item.names := by
  unfold markedBlock at h
  cases item with
  | synonym target =>
    simp only [markedItemLines, Marked.names_between, List.flatMap_append, List.flatMap_cons,
      List.flatMap_nil, Marked.flatMap_names_plainLines, Marked.names_append, Marked.names_plain,
      Marked.names_typeName, Marked.names_nil, List.append_nil, List.nil_append, List.cons_append,
      List.mem_cons] at h
    rcases h with h | h | h
    · exact Or.inl h
    · exact Or.inl h
    · exact Or.inr h
  | declaration derives definition implementation =>
    simp only [markedItemLines, Marked.names_between, List.flatMap_append, List.flatMap_cons,
      List.flatMap_nil, Marked.flatMap_names_plainLines, Marked.names_plain,
      Marked.names_typeName, Marked.names_nil, List.append_nil, List.nil_append, List.cons_append,
      List.mem_cons, List.mem_append] at h
    rcases h with h | h | h | h
    · exact Or.inl h
    · exact Or.inr (List.mem_append_left _ h)
    · exact Or.inl h
    · exact Or.inr (List.mem_append_right _ h)

end XdrCompiler
