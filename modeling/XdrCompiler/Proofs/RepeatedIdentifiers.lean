/-
# XdrCompiler.Proofs.RepeatedIdentifiers -- when a declaration repeats an identifier

A union whose switches are rendered alike is refused. Enums, structs and tables
of constants are compiled without looking at how their keys are rendered: an enum
and a table of constants always, a struct whenever each of its fields has a type
(`StructDecl.exists_compile_iff`).

The main statement, `identifiers_distinct_iff`, says which of the accepted ones are
usable. Their identifiers are distinct exactly if no two keys have the same words,
case apart, and an enum reads back every case that it writes exactly if no number
is given twice. Neither is checked (`repeated_identifiers_accepted`).
-/
import XdrCompiler.Proofs.Compiled
import XdrCompiler.Proofs.RenderedAlike
import XdrCompiler.Proofs.SwitchCoverage
import XdrCompiler.Source.File

namespace XdrCompiler

open Naming (foldedWords)

/-- Two renderings that tell the same names apart repeat themselves on the same lists. -/
theorem nodup_map_congr {α β γ : Type} {f : α → β} {g : α → γ}
    (h : ∀ a b, f a = f b ↔ g a = g b) (l : List α) : (l.map f).Nodup ↔ (l.map g).Nodup := by
  simp only [List.Nodup, List.pairwise_map, Ne, h]

/-! ## Enums -/

namespace EnumDecl

/-- The place of the case that is read for a number: the arms are tried from the first on. -/
def decodedAt? (e : EnumDecl) (number : Int) : Option Nat :=
  e.cases.findIdx? (·.value == number)

/-- What is written for a case is read as that case. -/
def ReadsBack (e : EnumDecl) : Prop :=
  ∀ i c, e.cases[i]? = some c → e.decodedAt? c.value = some i

theorem readsBack_iff {e : EnumDecl} : e.ReadsBack ↔ (e.cases.map EnumCase.value).Nodup := by
  rw [List.Nodup, List.pairwise_map, List.pairwise_iff_getElem]
  constructor
  · intro h i j hi hj hij heq
    have hfirst := h i e.cases[i] (List.getElem?_eq_getElem hi)
    have hsecond := h j e.cases[j] (List.getElem?_eq_getElem hj)
    rw [heq, hsecond, Option.some_inj] at hfirst
    omega
  · intro h i c hc
    obtain ⟨hi, rfl⟩ := List.getElem?_eq_some_iff.mp hc
    rw [decodedAt?, List.findIdx?_eq_some_iff_getElem]
    refine ⟨hi, by simp, ?_⟩
    intro j hj
    simpa using h j i (by omega) hi hj

theorem values_compile (name : String) (cases : Table String Int) :
    (compile name cases).cases.map EnumCase.value = cases.entries.map Prod.snd := by
  simp [compile, Function.comp_def]

theorem nodup_idents_compile_iff (name : String) (cases : Table String Int) :
    ((compile name cases).cases.map EnumCase.ident).Nodup ↔
      (cases.keys.map foldedWords).Nodup := by
  rw [idents_compile]
  exact nodup_map_congr (fun _ _ => Naming.pascalCase_eq_iff) cases.keys

end EnumDecl

/-! ## Structs -/

/-- Whether the fields compile depends on their types only. -/
theorem FieldDecl.exists_compileAll_iff (owner : String) (boxed : Bool)
    {fields : List (String × XdrType)} :
    (∃ decls, FieldDecl.compileAll owner boxed fields = .ok decls) ↔
      ∀ field ∈ fields, ∃ type, field.2.toMember owner = .ok type := by
  constructor
  · rintro ⟨decls, h⟩ field hfield
    obtain ⟨decl, -, -, htype⟩ := exists_result_of_mem (FieldDecl.forall₂_of_compileAll h) hfield
    exact ⟨decl.type, htype⟩
  · intro h
    induction fields generalizing boxed with
    | nil => exact ⟨[], rfl⟩
    | cons field rest ih =>
      obtain ⟨⟨type, htype⟩, hrest⟩ := List.forall_mem_cons.mp h
      obtain ⟨others, hothers⟩ := ih false hrest
      refine ⟨⟨Naming.fieldIdentifier field.1, type, boxed⟩ :: others, ?_⟩
      exact bind_eq_ok_iff.mpr ⟨_, map_eq_ok_iff.mpr ⟨type, htype, rfl⟩,
        bind_eq_ok_iff.mpr ⟨others, hothers, rfl⟩⟩

theorem StructDecl.exists_compile_iff {beginnings : List String} {name : String}
    {fields : List (String × XdrType)} :
    (∃ s, StructDecl.compile beginnings name fields = .ok s) ↔
      ∀ field ∈ fields, ∃ type, field.2.toMember name = .ok type := by
  rw [← FieldDecl.exists_compileAll_iff name (startsWithAny beginnings name)]
  simp only [StructDecl.compile_eq_ok_iff]
  constructor
  · rintro ⟨s, decls, hdecls, -⟩
    exact ⟨decls, hdecls⟩
  · rintro ⟨decls, hdecls⟩
    exact ⟨_, decls, hdecls, rfl⟩

theorem StructDecl.nodup_idents_iff {beginnings : List String} {name : String}
    {fields : List (String × XdrType)} {s : StructDecl}
    (h : StructDecl.compile beginnings name fields = .ok s) :
    (s.fields.map FieldDecl.ident).Nodup ↔ (fields.map fun field => foldedWords field.1).Nodup := by
  obtain ⟨decls, hdecls, rfl⟩ := StructDecl.compile_eq_ok_iff.mp h
  have hidents : decls.map FieldDecl.ident =
      fields.map fun field => Naming.fieldIdentifier field.1 :=
    map_eq_map_of_forall₂ (FieldDecl.forall₂_of_compileAll hdecls) fun _ _ hfield => hfield.1
  show (decls.map FieldDecl.ident).Nodup ↔ _
  rw [hidents]
  exact nodup_map_congr (fun _ _ => Naming.fieldIdentifier_eq_iff) fields

/-! ## Constants -/

/-- The identifier that a line declares as a constant. -/
def declaredConstant? (line : String) : Option String :=
  if "pub const ".toList <+: line.toList then
    some (.ofList ((line.toList.drop "pub const ".toList.length).takeWhile Naming.isIdentChar))
  else none

/-- The constants that the lines declare, in order. -/
def declaredConstants (lines : List String) : List String := lines.filterMap declaredConstant?

theorem declaredConstant?_declaration (name : String) (type literal : String) :
    declaredConstant? ("pub const " ++ Naming.constantCase name ++ ": " ++ type ++ " = " ++
      literal ++ ";") = some (Naming.constantCase name) := by
  have hline : ("pub const " ++ Naming.constantCase name ++ ": " ++ type ++ " = " ++ literal ++
      ";").toList = "pub const ".toList ++ ((Naming.constantCase name).toList ++
        ':' :: (' ' :: (type.toList ++ " = ".toList ++ literal.toList ++ [';']))) := by
    simp [String.toList_append]
  -- The identifier goes as far as its characters do: a colon is none of them.
  rw [declaredConstant?, hline, if_pos (List.prefix_append _ _), List.drop_left,
    List.takeWhile_append_of_pos fun c => Naming.isIdentChar_of_mem_constantCase,
    List.takeWhile_cons_of_neg (by decide), List.append_nil, String.ofList_toList]

theorem declaredConstants_constantBlock (name : String) (value : ConstantValue) :
    declaredConstants (constantBlock name value) = [Naming.constantCase name] := by
  have hattribute : declaredConstant? "#[allow(dead_code)]" = none := by decide
  have hcomment :
      declaredConstant? ("/// Autogenerated definition for constant " ++ name) = none := by
    rw [declaredConstant?, if_neg]
    simp
  simp [declaredConstants, constantBlock, hattribute, hcomment, declaredConstant?_declaration]

theorem declaredConstants_constantLines (constants : Table String ConstantValue) :
    declaredConstants (constantLines constants) = constants.keys.map Naming.constantCase := by
  have hblock (c : String × ConstantValue) :
      (constantBlock c.1 c.2).filterMap declaredConstant? = [Naming.constantCase c.1] :=
    declaredConstants_constantBlock c.1 c.2
  rw [constantLines, declaredConstants, List.filterMap_flatMap]
  simp only [hblock, Table.keys, List.map_map, Function.comp_def]
  exact List.map_eq_flatMap.symm

theorem nodup_declaredConstants_iff (constants : Table String ConstantValue) :
    (declaredConstants (constantLines constants)).Nodup ↔
      (constants.keys.map foldedWords).Nodup := by
  rw [declaredConstants_constantLines]
  exact nodup_map_congr (fun _ _ => Naming.constantCase_eq_iff) constants.keys

/-! ## All kinds of declarations -/

/-- When the identifiers of the declarations that are accepted are distinct. Only for unions
has acceptance a part in it: enums and tables of constants are all accepted, and a struct is
or is not for the types of its fields. -/
structure DistinctExactly (beginnings : List String) (name : String) : Prop where
  enumIdents : ∀ cases : Table String Int,
    ((EnumDecl.compile name cases).cases.map EnumCase.ident).Nodup ↔
      (cases.keys.map foldedWords).Nodup
  enumNumbers : ∀ cases : Table String Int,
    (EnumDecl.compile name cases).ReadsBack ↔ (cases.entries.map Prod.snd).Nodup
  structAccepted : ∀ fields : List (String × XdrType),
    (∃ s, StructDecl.compile beginnings name fields = .ok s) ↔
      ∀ field ∈ fields, ∃ type, field.2.toMember name = .ok type
  structFields : ∀ (fields : List (String × XdrType)) (s : StructDecl),
    StructDecl.compile beginnings name fields = .ok s →
      ((s.fields.map FieldDecl.ident).Nodup ↔ (fields.map fun field => foldedWords field.1).Nodup)
  constants : ∀ constants : Table String ConstantValue,
    (declaredConstants (constantLines constants)).Nodup ↔ (constants.keys.map foldedWords).Nodup
  unions : ∀ (d : UnionDefinition) (resolved : XdrType) (u : UnionDecl),
    UnionDecl.compile beginnings name d resolved = .ok u →
      (u.variants.map Variant.ident).Nodup ∧
        (u.hasDefault = true → ∀ v ∈ u.variants, v.ident ≠ "Default")

/-- Identifiers are distinct exactly where the keys differ in more than case and separators, and
in unions always. -/
theorem identifiers_distinct_iff (beginnings : List String) (name : String) :
    DistinctExactly beginnings name where
  enumIdents := EnumDecl.nodup_idents_compile_iff name
  enumNumbers cases := by rw [EnumDecl.readsBack_iff, EnumDecl.values_compile]
  structAccepted _ := StructDecl.exists_compile_iff
  structFields _ _ := StructDecl.nodup_idents_iff
  constants := nodup_declaredConstants_iff
  unions _ _ _ := UnionDecl.nodup_idents

/-- Keys that differ in case, in separators or in the escape of a keyword, and a number that is
given twice, are all accepted. -/
theorem repeated_identifiers_accepted :
    (EnumDecl.compile "Kind" (Table.ofList [("fooBar", 0), ("foo_bar", 1)])).cases.map
        EnumCase.ident = ["FooBar", "FooBar"] ∧
      (EnumDecl.compile "Kind" (Table.ofList [("A", 0), ("B", 0)])).cases[1]? = some ⟨"B", 0⟩ ∧
      (EnumDecl.compile "Kind" (Table.ofList [("A", 0), ("B", 0)])).decodedAt? 0 = some 0 ∧
      (StructDecl.compile [] "Item" [("type", .int), ("type_", .int)]).toOption.map
        (·.fields.map FieldDecl.ident) = some ["type_", "type_"] ∧
      declaredConstants (constantLines (Table.ofList
        [("maxSize", .number 1), ("MAX_SIZE", .number 2)])) = ["MAX_SIZE", "MAX_SIZE"] := by
  decide +kernel

end XdrCompiler
