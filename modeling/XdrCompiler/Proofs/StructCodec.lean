/-
# XdrCompiler.Proofs.StructCodec -- the encoder and the decoder of a struct agree

The text of a struct has three lists with one entry for each field: the fields of
the type, the statements of the encoder and the initializers of the decoder. Each
is read here as the parts that its lines are made of (`definition_eq`,
`implementation_eq`).

The main statement, `struct_codec_agrees`, has three parts. A struct compiles
exactly if each of its fields has a Rust type, and otherwise the first field
without one decides the error. What compiles declares, writes and reads the same
fields in the same places, the type being read in the form that can be called; of
the two rules that put a field behind a pointer, one is about the type and the
other about the place, and both may apply to the first field. And whatever library
does the writing and reading of single values, the struct that is read is the one
that was written.
-/
import XdrCompiler.Proofs.RepeatedIdentifiers

namespace XdrCompiler

open Text (joinLines)

/-! ## The three lists -/

/-- A field as it is declared. -/
structure MemberField where
  ident : String
  type : String

/-- A statement of the encoder: it writes the field with the given name. -/
structure WriterField where
  ident : String

/-- An initializer of the decoder: the field gets the value of the expression. -/
structure ReaderField where
  ident : String
  expression : String

def MemberField.text (m : MemberField) : String := "    pub " ++ m.ident ++ ": " ++ m.type

def WriterField.text (w : WriterField) : String :=
  "        self." ++ w.ident ++ ".to_xdr_buffered(write_stream);"

def ReaderField.text (r : ReaderField) : String :=
  "            " ++ r.ident ++ ": " ++ r.expression ++ ","

namespace StructDecl

variable (s : StructDecl)

def members : List MemberField := s.fields.map fun f => ⟨f.ident, declaredType f.type f.boxed⟩

def writers : List WriterField := s.fields.map fun f => ⟨f.ident⟩

def readers : List ReaderField := s.fields.map fun f => ⟨f.ident, decodeExpression f.type f.boxed⟩

theorem definition_eq :
    s.definition = definitionText "struct" s.name (s.members.map MemberField.text) := by
  rw [definition, members, List.map_map]
  rfl

theorem implementation_eq :
    s.implementation = joinLines (encodeSignature ++ s.writers.map WriterField.text ++
      ["    \x7d", ""] ++ decodeSignature ++ ["        Ok(" ++ s.name ++ " \x7b"] ++
      s.readers.map ReaderField.text ++ ["        \x7d)", "    \x7d"]) := by
  rw [implementation, writers, readers, List.map_map, List.map_map]
  rfl

end StructDecl

/-! ## What a struct writes and reads -/

/-- What generated code relies on: writing a value at a type as it is declared, and evaluating
an expression that reads one. -/
structure Runtime (V : Type) where
  write : String → V → List UInt8
  read : String → List UInt8 → Option (V × List UInt8)

namespace Runtime

variable {V : Type} (runtime : Runtime V)

/-- What is written at a type is read back by the expression for that type, and no more is read. -/
def Faithful : Prop :=
  ∀ (type : RustType) (boxed : Bool) (v : V) (rest : List UInt8),
    runtime.read (decodeExpression type boxed) (runtime.write (declaredType type boxed) v ++ rest) =
      some (v, rest)

/-- Such as the one whose values are single bytes. -/
example : ∃ runtime : Runtime UInt8, runtime.Faithful :=
  ⟨{ write := fun _ v => [v], read := fun _ bytes => bytes.head?.map (·, bytes.tail) },
    fun _ _ _ _ => rfl⟩

/-- What the encoder writes for a value with the given fields. The statement at a place writes the
field that is declared there. -/
def encode (members : List MemberField) (writers : List WriterField) (values : String → V) :
    List UInt8 :=
  (members.zip writers).flatMap fun (m, w) => runtime.write m.type (values w.ident)

/-- The fields that the decoder reads, in order, and what is left. -/
def decode : List ReaderField → List UInt8 → Option (List (String × V) × List UInt8)
  | [], bytes => some ([], bytes)
  | r :: rest, bytes => do
    let (v, bytes) ← runtime.read r.expression bytes
    let (others, bytes) ← decode rest bytes
    return ((r.ident, v) :: others, bytes)

end Runtime

section RoundTrip

variable {V : Type} {runtime : Runtime V} {s : StructDecl}

/-- Where the fields have names of their own, a statement of the encoder finds the field of its
place. -/
theorem StructDecl.find?_members (hnodup : (s.fields.map FieldDecl.ident).Nodup) {i : Nat}
    {m : MemberField} {w : WriterField} (hm : s.members[i]? = some m)
    (hw : s.writers[i]? = some w) : s.members.find? (·.ident == w.ident) = some m := by
  rw [members, List.getElem?_map] at hm
  rw [writers, List.getElem?_map] at hw
  obtain ⟨f, hf, rfl⟩ := Option.map_eq_some_iff.mp hm
  rw [hf, Option.map_some, Option.some_inj] at hw
  subst hw
  have hmem : f ∈ s.fields := List.mem_of_getElem? hf
  have hfound : s.fields.find? (fun g => g.ident == f.ident) = some f := by
    cases hfind : s.fields.find? (fun g => g.ident == f.ident) with
    | none => exact absurd (List.find?_eq_none.mp hfind f hmem) (by simp)
    | some g =>
      have hsame : g.ident = f.ident := by simpa using List.find?_some hfind
      rw [List.inj_on_of_nodup_map hnodup (List.mem_of_find?_eq_some hfind) hmem hsame]
  rw [members, List.find?_map]
  simp [hfound]

theorem StructDecl.encode_eq (values : String → V) :
    runtime.encode s.members s.writers values =
      s.fields.flatMap fun f => runtime.write (declaredType f.type f.boxed) (values f.ident) := by
  rw [Runtime.encode, members, writers, List.zip_map', List.flatMap_map]

/-- One field is read after the other, each from where the one before it has stopped. -/
theorem Runtime.Faithful.decode (h : runtime.Faithful) (values : String → V) (rest : List UInt8)
    (fields : List FieldDecl) :
    runtime.decode (fields.map fun f => ⟨f.ident, decodeExpression f.type f.boxed⟩)
        ((fields.flatMap fun f => runtime.write (declaredType f.type f.boxed) (values f.ident)) ++
          rest) =
      some (fields.map fun f => (f.ident, values f.ident), rest) := by
  induction fields with
  | nil => rfl
  | cons f fields ih =>
    rw [List.map_cons, List.flatMap_cons, List.append_assoc, Runtime.decode, h]
    simp only [Option.bind_eq_bind, Option.bind_some, ih]
    rfl

/-- What a struct writes is read back, field by field. -/
theorem StructDecl.decode_encode (h : runtime.Faithful) (values : String → V)
    (rest : List UInt8) :
    runtime.decode s.readers (runtime.encode s.members s.writers values ++ rest) =
      some (s.readers.map fun r => (r.ident, values r.ident), rest) := by
  rw [StructDecl.encode_eq, readers, h.decode, List.map_map]
  rfl

end RoundTrip

/-! ## Which fields compile -/

section Fields

variable {owner : String} {boxed : Bool} {fields : List (String × XdrType)}
  {decls : List FieldDecl} {failure : Failure}

theorem FieldDecl.compileAll_cons_eq_error_iff (owner : String) (boxed : Bool)
    {first : String × XdrType} {rest : List (String × XdrType)} :
    FieldDecl.compileAll owner boxed (first :: rest) = .error failure ↔
      first.2.toRust = .error failure ∨
        first.2.Renders ∧ FieldDecl.compileAll owner false rest = .error failure := by
  have hfails : FieldDecl.compile owner boxed first = .error failure ↔
      first.2.toRust = .error failure := by
    rw [FieldDecl.compile, map_eq_error_iff, XdrType.toMember_eq_error_iff]
  have hpasses : (∃ decl, FieldDecl.compile owner boxed first = .ok decl) ↔ first.2.Renders := by
    rw [← XdrType.exists_toMember_iff first.2 owner]
    simp [FieldDecl.compile, map_eq_ok_iff]
  rw [← hfails, ← hpasses]
  exact both_eq_error_iff

/-- The first field without a Rust type decides the error. -/
theorem FieldDecl.compileAll_eq_error_iff (owner : String) (boxed : Bool) :
    FieldDecl.compileAll owner boxed fields = .error failure ↔
      ∃ before field after, fields = before ++ field :: after ∧ (∀ f ∈ before, f.2.Renders) ∧
        field.2.toRust = .error failure := by
  have hunboxed : ∀ {fields : List (String × XdrType)},
      FieldDecl.compileAll owner false fields = .error failure ↔
        ∃ before field after, fields = before ++ field :: after ∧ (∀ f ∈ before, f.2.Renders) ∧
          field.2.toRust = .error failure := by
    exact exists_first_fault_iff (fun l => FieldDecl.compileAll owner false l = .error failure)
      nofun fun first rest => FieldDecl.compileAll_cons_eq_error_iff owner false
  -- The flag is about how the first field is declared and has no part in the error.
  rw [← hunboxed]
  cases fields with
  | nil => rfl
  | cons first rest => rw [compileAll_cons_eq_error_iff, compileAll_cons_eq_error_iff]

/-- A compiled field is at the place of its source; only the first can be boxed. -/
theorem FieldDecl.getElem?_compileAll (h : FieldDecl.compileAll owner boxed fields = .ok decls)
    {i : Nat} {field : String × XdrType} (hfield : fields[i]? = some field) :
    ∃ type, field.2.toMember owner = .ok type ∧
      decls[i]? = some ⟨Naming.fieldIdentifier field.1, type, decide (i = 0) && boxed⟩ := by
  induction fields generalizing boxed decls i with
  | nil => simp at hfield
  | cons first rest ih =>
    obtain ⟨decl, hdecl, h⟩ := bind_eq_ok_iff.mp h
    obtain ⟨others, hothers, h⟩ := bind_eq_ok_iff.mp h
    cases h
    obtain ⟨type, htype, rfl⟩ := map_eq_ok_iff.mp hdecl
    cases i with
    | zero =>
      rw [List.getElem?_cons_zero, Option.some_inj] at hfield
      subst hfield
      exact ⟨type, htype, by simp⟩
    | succ i =>
      rw [List.getElem?_cons_succ] at hfield
      obtain ⟨type', htype', hget⟩ := ih hothers hfield
      exact ⟨type', htype', by simpa using hget⟩

end Fields

theorem StructDecl.compile_eq_error_iff {beginnings : List String} {name : String}
    {fields : List (String × XdrType)} {failure : Failure} :
    StructDecl.compile beginnings name fields = .error failure ↔
      ∃ before field after, fields = before ++ field :: after ∧ (∀ f ∈ before, f.2.Renders) ∧
        field.2.toRust = .error failure := by
  rw [← FieldDecl.compileAll_eq_error_iff name (startsWithAny beginnings name)]
  constructor
  · intro h
    rcases bind_eq_error_iff.mp h with hfields | ⟨decls, _, h⟩
    · exact hfields
    · cases h
  · intro h
    exact bind_eq_error_iff.mpr (Or.inl h)

/-! ## Agreement -/

/-- The two forms of the type of a member of `owner`, as it is declared and as it is called. An
optional reference back to the owner is behind a pointer; every other type is as it stands. -/
inductive MemberType (owner : String) : XdrType → String → String → Prop
  | pointer : MemberType owner (.option (.reference owner))
      ("Option<Box<" ++ owner ++ ">>") ("Option::<Box<" ++ owner ++ ">>")
  | plain {t : XdrType} {declared callable : String} : t ≠ .option (.reference owner) →
      t.declaredText = .ok declared → t.callableText = .ok callable →
      MemberType owner t declared callable

/-- The struct is of a family whose first field is boxed. -/
def InBoxedFamily (beginnings : List String) (name : String) : Prop :=
  ∃ b ∈ beginnings, b.toList <+: name.toList

/-- The type that a field is declared with and the expression that reads it, for the field at
place `i` of the struct `name`. -/
inductive FieldTypes (beginnings : List String) (name : String) (i : Nat) (t : XdrType) :
    String → String → Prop
  | plain {declared callable : String} : MemberType name t declared callable →
      ¬(i = 0 ∧ InBoxedFamily beginnings name) →
      FieldTypes beginnings name i t declared (callable ++ "::from_xdr_buffered(read_stream)?")
  | boxed {declared callable : String} : MemberType name t declared callable →
      i = 0 → InBoxedFamily beginnings name →
      FieldTypes beginnings name i t ("Box<" ++ declared ++ ">")
        ("Box::new(" ++ (callable ++ "::from_xdr_buffered(read_stream)?") ++ ")")

/-- The declaration, the encoder and the decoder of a struct agree. -/
structure StructAgreement (beginnings : List String) (name : String)
    (fields : List (String × XdrType)) (s : StructDecl) : Prop where
  definition : s.definition = definitionText "struct" name (s.members.map MemberField.text)
  implementation : s.implementation = joinLines (encodeSignature ++
    s.writers.map WriterField.text ++ ["    \x7d", ""] ++ decodeSignature ++
    ["        Ok(" ++ name ++ " \x7b"] ++ s.readers.map ReaderField.text ++
    ["        \x7d)", "    \x7d"])
  memberCount : s.members.length = fields.length
  writerCount : s.writers.length = fields.length
  readerCount : s.readers.length = fields.length
  field : ∀ i key t, fields[i]? = some (key, t) → ∃ type expression,
    s.members[i]? = some ⟨Naming.fieldIdentifier key, type⟩ ∧
    s.writers[i]? = some ⟨Naming.fieldIdentifier key⟩ ∧
    s.readers[i]? = some ⟨Naming.fieldIdentifier key, expression⟩ ∧
    FieldTypes beginnings name i t type expression
  /-- The fields that are read are those that were written. -/
  readBack : ∀ (V : Type) (runtime : Runtime V), runtime.Faithful →
    ∀ (values : String → V) (rest : List UInt8),
      runtime.decode s.readers (runtime.encode s.members s.writers values ++ rest) =
        some (fields.map fun field =>
          (Naming.fieldIdentifier field.1, values (Naming.fieldIdentifier field.1)), rest)
  /-- Looking a field up by the name that is written leads to the field of the same place, unless
  two fields share a name. -/
  byName : (fields.map fun field => Naming.fieldIdentifier field.1).Nodup →
    ∀ (i : Nat) (m : MemberField) (w : WriterField), s.members[i]? = some m →
      s.writers[i]? = some w → s.members.find? (·.ident == w.ident) = some m

theorem startsWithAny_iff {beginnings : List String} {name : String} :
    startsWithAny beginnings name = true ↔ InBoxedFamily beginnings name := by
  simp [startsWithAny, InBoxedFamily, List.isPrefixOf_iff_prefix]

theorem XdrType.memberType_of_toMember {t : XdrType} {owner : String} {type : RustType}
    (h : t.toMember owner = .ok type) : MemberType owner t type.declared type.callable := by
  unfold toMember at h
  by_cases hcycle : t.isOptionalCycle owner = true
  · rw [if_pos hcycle] at h
    cases h
    rw [isOptionalCycle_iff.mp hcycle]
    have hdeclared :
        (RustType.option (.boxed owner)).declared = "Option<Box<" ++ owner ++ ">>" := by
      rw [← String.toList_inj]
      simp [RustType.declared, RustType.separator]
    have hcallable :
        (RustType.option (.boxed owner)).callable = "Option::<Box<" ++ owner ++ ">>" := by
      rw [← String.toList_inj]
      simp [RustType.callable, RustType.separator]
    rw [hdeclared, hcallable]
    exact .pointer
  · rw [if_neg hcycle] at h
    refine .plain (fun ht => hcycle (isOptionalCycle_iff.mpr ht)) ?_ ?_
    · exact map_eq_ok_iff.mpr ⟨type, h, rfl⟩
    · exact map_eq_ok_iff.mpr ⟨type, h, rfl⟩

theorem FieldTypes.of_toMember {beginnings : List String} {name : String} {i : Nat} {t : XdrType}
    {type : RustType} (h : t.toMember name = .ok type) :
    FieldTypes beginnings name i t
      (declaredType type (decide (i = 0) && startsWithAny beginnings name))
      (decodeExpression type (decide (i = 0) && startsWithAny beginnings name)) := by
  have hmember := XdrType.memberType_of_toMember h
  have hcond : (decide (i = 0) && startsWithAny beginnings name) = true ↔
      i = 0 ∧ InBoxedFamily beginnings name := by
    rw [Bool.and_eq_true, decide_eq_true_eq, startsWithAny_iff]
  unfold declaredType decodeExpression
  by_cases hboxed : (decide (i = 0) && startsWithAny beginnings name) = true
  · rw [if_pos hboxed, if_pos hboxed]
    obtain ⟨hi, hfamily⟩ := hcond.mp hboxed
    exact .boxed hmember hi hfamily
  · rw [if_neg hboxed, if_neg hboxed]
    exact .plain hmember (hcond.not.mp hboxed)

theorem StructDecl.agreement {beginnings : List String} {name : String}
    {fields : List (String × XdrType)} {s : StructDecl}
    (h : StructDecl.compile beginnings name fields = .ok s) :
    StructAgreement beginnings name fields s := by
  obtain ⟨decls, hdecls, rfl⟩ := StructDecl.compile_eq_ok_iff.mp h
  have hlength : decls.length = fields.length :=
    (FieldDecl.forall₂_of_compileAll hdecls).length_eq.symm
  have hidents : decls.map FieldDecl.ident =
      fields.map fun field => Naming.fieldIdentifier field.1 :=
    map_eq_map_of_forall₂ (FieldDecl.forall₂_of_compileAll hdecls) fun _ _ hfield => hfield.1
  refine ⟨StructDecl.definition_eq _, StructDecl.implementation_eq _, ?_, ?_, ?_, ?_, ?_, ?_⟩
  · rw [StructDecl.members, List.length_map, hlength]
  · rw [StructDecl.writers, List.length_map, hlength]
  · rw [StructDecl.readers, List.length_map, hlength]
  · intro i key t hfield
    obtain ⟨type, htype, hdecl⟩ := FieldDecl.getElem?_compileAll hdecls hfield
    refine ⟨_, _, ?_, ?_, ?_, FieldTypes.of_toMember htype⟩
    · rw [StructDecl.members, List.getElem?_map, hdecl, Option.map_some]
    · rw [StructDecl.writers, List.getElem?_map, hdecl, Option.map_some]
    · rw [StructDecl.readers, List.getElem?_map, hdecl, Option.map_some]
  · intro V runtime hfaithful values rest
    have hvalues := congrArg (List.map fun ident => (ident, values ident)) hidents
    rw [List.map_map, List.map_map] at hvalues
    rw [StructDecl.decode_encode hfaithful, StructDecl.readers, List.map_map]
    exact congrArg (fun read => some (read, rest)) hvalues
  · intro hnodup i m w hm hw
    rw [← hidents] at hnodup
    exact StructDecl.find?_members hnodup hm hw

/-- When a struct is accepted, what it is refused for otherwise, and what it is made of. -/
structure StructCodecAgrees (beginnings : List String) (name : String)
    (fields : List (String × XdrType)) : Prop where
  accepted : (∃ s, StructDecl.compile beginnings name fields = .ok s) ↔
    ∀ field ∈ fields, field.2.Renders
  refused : ∀ failure, StructDecl.compile beginnings name fields = .error failure ↔
    ∃ before field after, fields = before ++ field :: after ∧ (∀ f ∈ before, f.2.Renders) ∧
      field.2.toRust = .error failure
  agrees : ∀ s, StructDecl.compile beginnings name fields = .ok s →
    StructAgreement beginnings name fields s

/-- Every struct is accepted with an encoder and a decoder that agree, or refused for its first
field without a Rust type. -/
theorem struct_codec_agrees (beginnings : List String) (name : String)
    (fields : List (String × XdrType)) : StructCodecAgrees beginnings name fields where
  accepted := by
    rw [StructDecl.exists_compile_iff]
    exact forall₂_congr fun field _ => field.2.exists_toMember_iff name
  refused _ := StructDecl.compile_eq_error_iff
  agrees _ := StructDecl.agreement

end XdrCompiler
