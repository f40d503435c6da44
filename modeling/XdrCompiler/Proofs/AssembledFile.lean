/-
# XdrCompiler.Proofs.AssembledFile -- nothing is lost between the parts and the file

A file is assembled from a header, the imports, the constants and one block for each
type. With a date for the header, only an alias can get in the way: a declared enum,
struct or union has its text already, while an alias needs the text of what it stands
for. The first alias without one decides the error, gated or not.

Otherwise the file has everything. It is the lines of its parts, joined, and each block
holds the definition and the codec of its type word for word, though both were cut into
lines on the way. The gate goes on both or on neither (`assembled_in_full`).
-/
import XdrCompiler.Proofs.IntegerLiterals
import XdrCompiler.Proofs.MarkedText
import XdrCompiler.Proofs.ReportAgreement

namespace XdrCompiler

open Text (joinLines Occurs EndsInText)

/-! ## Entries without a text -/

namespace XdrType

variable {t : XdrType}

/-- Declarations have a text of their own; an alias has one if the type behind it does. -/
def Writable (t : XdrType) : Prop := t.label = .typeAlias → ∃ text, t.declaredText = .ok text

theorem not_writable_iff :
    ¬t.Writable ↔ t.label = .typeAlias ∧ ∀ text, t.declaredText ≠ .ok text := by
  simp [Writable]

theorem exists_itemText_of_ne_alias (h : t.label ≠ .typeAlias) : ∃ item, t.itemText = .ok item := by
  cases t with
  | enum e => exact ⟨_, rfl⟩
  | struct s => exact ⟨_, rfl⟩
  | union u => exact ⟨_, rfl⟩
  | _ => exact absurd rfl h

theorem exists_itemText_iff : (∃ item, t.itemText = .ok item) ↔ t.Writable := by
  by_cases h : t.label = .typeAlias
  · simp [itemText_of_alias h, map_eq_ok_iff, Writable, h]
  · exact iff_of_true (exists_itemText_of_ne_alias h) fun halias => absurd halias h

theorem itemText_eq_error_iff {failure : Failure} :
    t.itemText = .error failure ↔ t.label = .typeAlias ∧ t.declaredText = .error failure := by
  by_cases h : t.label = .typeAlias
  · rw [itemText_of_alias h, map_eq_error_iff, and_iff_right h]
  · obtain ⟨item, hitem⟩ := exists_itemText_of_ne_alias h
    simp [hitem, h]

end XdrType

/-! ## The first failure -/

section Failures

variable {main : NameSet} {feature : String} {failure : Failure}

theorem exists_typeLines_iff {name : String} {type : XdrType} {gated : Bool} :
    (∃ block, typeLines name type gated feature = .ok block) ↔ type.Writable := by
  rw [← XdrType.exists_itemText_iff]
  simp [typeLines, map_eq_ok_iff]

theorem typeBlocks_cons_eq_error_iff {entry : String × XdrType} {rest : List (String × XdrType)} :
    typeBlocks main feature (entry :: rest) = .error failure ↔
      (entry.2.label = .typeAlias ∧ entry.2.declaredText = .error failure) ∨
        entry.2.Writable ∧ typeBlocks main feature rest = .error failure := by
  have hfails : typeLines entry.1 entry.2 (decide (entry.1 ∉ main)) feature = .error failure ↔
      entry.2.label = .typeAlias ∧ entry.2.declaredText = .error failure :=
    map_eq_error_iff.trans XdrType.itemText_eq_error_iff
  rw [← hfails, ← exists_typeLines_iff]
  exact both_eq_error_iff

/-- The first alias without a text decides the error. Its gate has no part in it. -/
theorem typeBlocks_eq_error_iff {entries : List (String × XdrType)} :
    typeBlocks main feature entries = .error failure ↔
      ∃ before entry after, entries = before ++ entry :: after ∧
        (∀ e ∈ before, e.2.Writable) ∧
        entry.2.label = .typeAlias ∧ entry.2.declaredText = .error failure :=
  exists_first_fault_iff (fun l => typeBlocks main feature l = .error failure) nofun
    fun _ _ => typeBlocks_cons_eq_error_iff

/-- With a date, a file fails for its types only. -/
theorem assemble_eq_error_iff {p : Provenance} (hdate : p.generatedOn ≠ "") {schema : Schema} :
    assemble p schema main = .error failure ↔
      ∃ before entry after, schema.types.entries = before ++ entry :: after ∧
        (∀ e ∈ before, e.2.Writable) ∧
        entry.2.label = .typeAlias ∧ entry.2.declaredText = .error failure := by
  refine Iff.trans (b := typeBlocks main p.feature schema.types.entries = .error failure) ?_
    typeBlocks_eq_error_iff
  constructor
  · intro h
    rcases bind_eq_error_iff.mp h with hheader | ⟨header, -, h⟩
    · rw [headerLines, if_neg hdate] at hheader
      cases hheader
    · rcases bind_eq_error_iff.mp h with himports | ⟨imports, -, h⟩
      · cases himports
      · rcases bind_eq_error_iff.mp h with hblocks | ⟨blocks, -, h⟩
        · exact hblocks
        · cases h
  · intro h
    refine bind_eq_error_iff.mpr (Or.inr ⟨_, if_neg hdate, ?_⟩)
    exact bind_eq_error_iff.mpr (Or.inr ⟨_, rfl, bind_eq_error_iff.mpr (Or.inl h)⟩)

end Failures

/-! ## Blocks -/

/-- The gate of a type that is no main type. -/
def gateFor (main : NameSet) (feature name : String) : List String :=
  if name ∈ main then [] else [gateLine feature]

theorem gateLines_eq_gateFor (main : NameSet) (feature name : String) :
    gateLines (decide (name ∉ main)) feature = gateFor main feature name := by
  by_cases h : name ∈ main
  · have hgated : decide (name ∉ main) = false := by simpa using h
    rw [gateFor, if_pos h, hgated]
    rfl
  · have hgated : decide (name ∉ main) = true := by simpa using h
    rw [gateFor, if_neg h, hgated]
    rfl

/-- The first lines of a block: what it is about, and the gate. -/
def openingLines (name : String) (gate : List String) : List String :=
  ["/// Autogenerated definition for type " ++ name, "#[allow(dead_code)]"] ++ gate

/-- The block of a declaration. Definition and codec stand in it as they are, each behind the
gate if there is one. -/
structure DeclarationBlock (gate : List String)
    (name derives definition implementation : String) (block : List String) : Prop where
  layout : joinLines block = joinLines (openingLines name gate ++
    ["#[derive(" ++ derives ++ ")]", definition, ""] ++ gate ++
    ["impl XdrCodec for " ++ name ++ " \x7b", implementation, "\x7d", ""])
  definition : Occurs definition (joinLines block)
  implementation : Occurs implementation (joinLines block)

/-- The block of an entry of the type table. -/
def EntryBlock (gate : List String) (name : String) (block : List String) : XdrType → Prop
  | .enum e =>
    DeclarationBlock gate name "Debug, Copy, Clone, Eq, PartialEq" e.definition e.implementation
      block
  | .struct s =>
    DeclarationBlock gate name "Debug, Clone, Eq, PartialEq" s.definition s.implementation block
  | .union u =>
    DeclarationBlock gate name "Debug, Clone, Eq, PartialEq" u.definition u.implementation block
  | t => ∃ target, t.declaredText = .ok target ∧
      block = openingLines name gate ++ ["pub type " ++ name ++ " = " ++ target ++ ";", ""]

theorem declarationBlock (gate : List String) (name derives definition implementation : String) :
    DeclarationBlock gate name derives definition implementation (openingLines name gate ++
      itemLines name gate (.declaration derives definition implementation) ++ [""]) := by
  have hlayout := joinLines_itemLines (openingLines name gate) gate [""] name derives definition
    implementation
  exact
    { layout := by simpa using hlayout
      definition := by
        rw [hlayout]
        exact Text.occurs_joinLines (by simp)
      implementation := by
        rw [hlayout]
        exact Text.occurs_joinLines (by simp) }

theorem entryBlock_of_typeLines {name feature : String} {type : XdrType} {gated : Bool}
    {block : List String} (h : typeLines name type gated feature = .ok block) :
    EntryBlock (gateLines gated feature) name block type := by
  obtain ⟨item, hitem, rfl⟩ := map_eq_ok_iff.mp h
  cases type with
  | enum e =>
    cases hitem
    exact declarationBlock _ _ _ _ _
  | struct s =>
    cases hitem
    exact declarationBlock _ _ _ _ _
  | union u =>
    cases hitem
    exact declarationBlock _ _ _ _ _
  | _ =>
    rw [XdrType.itemText_of_alias rfl] at hitem
    obtain ⟨target, htarget, rfl⟩ := map_eq_ok_iff.mp hitem
    exact ⟨target, htarget, by simp [openingLines, itemLines]⟩

/-! ## The whole file -/

/-- A file has all its parts, in their order and unchanged. -/
structure WrittenInFull (p : Provenance) (schema : Schema) (main : NameSet) (source : String) :
    Prop where
  parts : ∃ header imports blocks, headerLines p = .ok header ∧
    importLines defaultImports = .ok imports ∧
    List.Forall₂ (fun entry block =>
      typeLines entry.1 entry.2 (decide (entry.1 ∉ main)) p.feature = .ok block ∧
        EntryBlock (gateFor main p.feature entry.1) entry.1 block entry.2)
      schema.types.entries blocks ∧
    source = joinLines (header ++ [""] ++ imports ++ [""] ++
      constantSection schema.constants ++ blocks.flatten)
  stripped : Text.dropFinalNewlines source ++ "\n" = source
  ending : ∃ body, source = body ++ "\n" ∧ EndsInText body

variable {p : Provenance} {schema : Schema} {main : NameSet}

theorem writtenInFull {source : String} (h : assemble p schema main = .ok source) :
    WrittenInFull p schema main source := by
  obtain ⟨header, imports, blocks, hheader, himports, hblocks, rfl⟩ := assemble_eq_ok_iff.mp h
  have hclosed := closed_parts himports hblocks header
  obtain ⟨groups, rfl, hgroups⟩ := typeBlocks_eq_ok_iff.mp hblocks
  refine ⟨⟨header, imports, groups, hheader, himports, hgroups.imp ?_, rfl⟩,
    hclosed.dropFinalNewlines, hclosed.exists_body⟩
  intro entry block hblock
  rw [← gateLines_eq_gateFor]
  exact ⟨hblock, entryBlock_of_typeLines hblock⟩

theorem writable_of_assemble {source : String} (h : assemble p schema main = .ok source) :
    ∀ entry ∈ schema.types.entries, entry.2.Writable := by
  intro entry hentry
  obtain ⟨header, imports, blocks, -, -, hblocks, -⟩ := assemble_eq_ok_iff.mp h
  obtain ⟨groups, -, hgroups⟩ := typeBlocks_eq_ok_iff.mp hblocks
  obtain ⟨group, -, hgroup⟩ := exists_result_of_mem hgroups hentry
  exact exists_typeLines_iff.mp ⟨group, hgroup⟩

theorem exists_assemble_error_iff (hdate : p.generatedOn ≠ "") :
    (∃ failure, assemble p schema main = .error failure) ↔
      ∃ entry ∈ schema.types.entries, ¬entry.2.Writable := by
  constructor
  · rintro ⟨failure, h⟩
    obtain ⟨before, entry, after, hentries, -, halias, herror⟩ := (assemble_eq_error_iff hdate).mp h
    exact ⟨entry, by simp [hentries], XdrType.not_writable_iff.mpr ⟨halias, by simp [herror]⟩⟩
  · rintro ⟨entry, hentry, hunwritable⟩
    cases hassemble : assemble p schema main with
    | error failure => exact ⟨failure, rfl⟩
    | ok source => exact absurd (writable_of_assemble hassemble entry hentry) hunwritable

/-- What assembling a file comes to: the error of the first alias without a text, or all of it. -/
structure AssembledInFull (p : Provenance) (schema : Schema) (main : NameSet) : Prop where
  fails : (∃ failure, assemble p schema main = .error failure) ↔
    ∃ entry ∈ schema.types.entries, entry.2.label = .typeAlias ∧
      ∀ text, entry.2.declaredText ≠ .ok text
  failure : ∀ failure, assemble p schema main = .error failure ↔
    ∃ before entry after, schema.types.entries = before ++ entry :: after ∧
      (∀ e ∈ before, e.2.Writable) ∧
      entry.2.label = .typeAlias ∧ entry.2.declaredText = .error failure
  written : (∀ entry ∈ schema.types.entries, entry.2.Writable) →
    ∃ source, assemble p schema main = .ok source ∧ WrittenInFull p schema main source

/-- Every file with a date has all its parts, unless an alias has no text. -/
theorem assembled_in_full (hdate : p.generatedOn ≠ "") (schema : Schema) (main : NameSet) :
    AssembledInFull p schema main where
  fails := by
    simpa only [XdrType.not_writable_iff] using exists_assemble_error_iff hdate
  failure _ := assemble_eq_error_iff hdate
  written := by
    intro hwritable
    cases hassemble : assemble p schema main with
    | ok source => exact ⟨source, rfl, writtenInFull hassemble⟩
    | error failure =>
      obtain ⟨entry, hentry, hunwritable⟩ :=
        (exists_assemble_error_iff hdate).mp ⟨failure, hassemble⟩
      exact absurd (hwritable entry hentry) hunwritable

/-- A gated enum, an alias and one more type, and a constant of two lines. -/
def signalSchema (last : XdrType) : Schema where
  types := Table.ofList
    [("Color", .enum ⟨"Color", [⟨"Red", 0⟩]⟩), ("Hash", .bytes (.literal 32)), ("Last", last)]
  constants := Table.ofList [("MOTTO", .text "stop\ngo")]

theorem assembled_in_full_signals :
    (∃ source, assemble ⟨"2024-02-29", "signals", defaultFeature⟩ (signalSchema .bool)
        (.singleton "Hash") = .ok source ∧
      WrittenInFull ⟨"2024-02-29", "signals", defaultFeature⟩ (signalSchema .bool)
        (.singleton "Hash") source) ∧
      assemble ⟨"2024-02-29", "signals", defaultFeature⟩ (signalSchema .void)
        (.singleton "Hash") = .error (.schema .voidReference) := by
  have hcolor : (XdrType.enum ⟨"Color", [⟨"Red", 0⟩]⟩).Writable := nofun
  have hhash : (XdrType.bytes (.literal 32)).Writable := fun _ => ⟨_, rfl⟩
  have hbool : XdrType.bool.Writable := fun _ => ⟨_, rfl⟩
  refine ⟨(assembled_in_full (by decide) _ _).written ?_,
    ((assembled_in_full (by decide) _ _).failure _).mpr
      ⟨[("Color", _), ("Hash", _)], ("Last", .void), [], rfl, ?_, rfl, rfl⟩⟩
  · have hentries : (signalSchema .bool).types.entries =
        [("Color", .enum ⟨"Color", [⟨"Red", 0⟩]⟩), ("Hash", .bytes (.literal 32)),
          ("Last", .bool)] := rfl
    rw [hentries]
    simp only [List.forall_mem_cons]
    exact ⟨hcolor, hhash, hbool, nofun⟩
  · simp only [List.forall_mem_cons]
    exact ⟨hcolor, hhash, nofun⟩

end XdrCompiler
