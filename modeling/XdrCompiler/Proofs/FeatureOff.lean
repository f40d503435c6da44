/-
# XdrCompiler.Proofs.FeatureOff -- the file without its feature

With the feature off, the gated blocks of the generated file are gone. What is
left must not name a type that is gone or that was never there. Four things come
together for this. The generated text names a declared type only in the marked
places; what it names there is among what the compiled declaration needs; the
main types are closed under need, and all of them are defined; and a block is
gated exactly if its type is no main type. The second holds of every declaration
that the compiler makes itself (`Covered`), so aliases must not bring in others.
-/
import XdrCompiler.Proofs.Compiled
import XdrCompiler.Proofs.LeastClosure
import XdrCompiler.Proofs.MarkedText

namespace XdrCompiler

open Text (joinLines)

/-! ## The blocks of a file -/

/-- A block of the generated file. -/
structure Block where
  name : String
  /-- Whether the feature has to be on. -/
  gated : Bool
  body : Marked

/-- The block of an entry: gated unless the entry is one of the main types. -/
structure IsBlockOf (main : NameSet) (feature : String) (entry : String × XdrType)
    (block : Block) : Prop where
  name : block.name = entry.1
  gated : block.gated = decide (entry.1 ∉ main)
  body : ∃ item, entry.2.markedItem = .ok item ∧
    block.body = markedBlock entry.1 block.gated feature item

/-- The file has the given blocks, one for each entry in order, after its head. -/
structure HasBlocks (p : Provenance) (schema : Schema) (main : NameSet) (source : String)
    (blocks : List Block) : Prop where
  entries : List.Forall₂ (IsBlockOf main p.feature) schema.types.entries blocks
  text : ∃ header imports, headerLines p = .ok header ∧
    importLines defaultImports = .ok imports ∧
    source = joinLines (header ++ [""] ++ imports ++ [""] ++ constantSection schema.constants ++
      blocks.map fun block => block.body.text)

theorem exists_isBlockOf {main : NameSet} {feature : String} {entry : String × XdrType}
    {group : List String}
    (h : typeLines entry.1 entry.2 (decide (entry.1 ∉ main)) feature = .ok group) :
    ∃ block, IsBlockOf main feature entry block ∧ block.body.text = joinLines group := by
  obtain ⟨item, hitem, rfl⟩ := map_eq_ok_iff.mp h
  rw [← XdrType.plain_markedItem] at hitem
  obtain ⟨marked, hmarked, rfl⟩ := map_eq_ok_iff.mp hitem
  exact ⟨⟨entry.1, _, _⟩, ⟨rfl, rfl, marked, hmarked, rfl⟩, text_markedBlock _ _ _ _⟩

theorem exists_blocks_of_groups {main : NameSet} {feature : String}
    {entries : List (String × XdrType)} {groups : List (List String)}
    (h : List.Forall₂ (fun entry group =>
      typeLines entry.1 entry.2 (decide (entry.1 ∉ main)) feature = .ok group) entries groups) :
    ∃ blocks, List.Forall₂ (IsBlockOf main feature) entries blocks ∧
      (blocks.map fun block => block.body.text) = groups.map joinLines := by
  induction h with
  | nil => exact ⟨[], .nil, rfl⟩
  | cons hentry _ ih =>
    obtain ⟨block, hblock, htext⟩ := exists_isBlockOf hentry
    obtain ⟨blocks, hblocks, htexts⟩ := ih
    exact ⟨block :: blocks, .cons hblock hblocks, by rw [List.map_cons, List.map_cons, htext, htexts]⟩

/-- Every generated file is a head and a block for each entry. -/
theorem exists_hasBlocks {p : Provenance} {schema : Schema} {main : NameSet} {source : String}
    (h : assemble p schema main = .ok source) : ∃ blocks, HasBlocks p schema main source blocks := by
  obtain ⟨header, imports, lines, hheader, himports, hlines, rfl⟩ := assemble_eq_ok_iff.mp h
  obtain ⟨groups, rfl, hgroups⟩ := typeBlocks_eq_ok_iff.mp hlines
  obtain ⟨blocks, hblocks, htexts⟩ := exists_blocks_of_groups hgroups
  have hne : ∀ group ∈ groups, group ≠ [] := by
    intro group hgroup
    obtain ⟨entry, -, hentry⟩ := exists_source_of_mem hgroups hgroup
    obtain ⟨init, line, rfl, -⟩ := closed_typeLines hentry
    simp
  refine ⟨blocks, hblocks, header, imports, hheader, himports, ?_⟩
  rw [htexts, Text.joinLines_append_flatten hne]

/-! ## What a block names -/

/-- A declaration stands under its own name and needs everything that it names. -/
def Covered (name : String) : XdrType → Prop
  | .enum e => e.name = name
  | .struct s => s.name = name ∧ ∀ f ∈ s.fields, ∀ n ∈ f.type.names, n ∈ s.referred
  | .union u =>
    u.name = name ∧ (∀ n ∈ u.discriminant.names, n ∈ u.referred) ∧
      ∀ v ∈ u.variants, ∀ p, v.payload = some p → ∀ n ∈ p.type.names, n ∈ u.referred
  | _ => True

theorem Covered.of_alias {name : String} {t : XdrType} (h : t.label = .typeAlias) :
    Covered name t := by
  cases t with
  | enum e => cases h
  | struct s => cases h
  | union u => cases h
  | _ => trivial

/-- Everything that the compiler makes is covered. -/
theorem registers_covered (beginnings : List String) : Registers beginnings Covered where
  enum := fun name cases => rfl
  struct := by
    intro name fields decl h
    refine ⟨?_, fun f hf n hn => StructDecl.names_subset_referred h hf hn⟩
    obtain ⟨decls, -, rfl⟩ := StructDecl.compile_eq_ok_iff.mp h
    rfl
  union := by
    intro name d resolved decl h
    refine ⟨?_, fun n hn => UnionDecl.discriminant_names_subset_referred h hn,
      fun v hv p hp n hn => UnionDecl.payload_names_subset_referred h hv hp hn⟩
    obtain ⟨discriminant, compiled, -, -, -, -, rfl⟩ := UnionDecl.compile_eq_ok_iff.mp h
    rfl

/-- The text of a covered entry names the entry itself and what the entry needs. -/
theorem Covered.names_markedItem {name : String} {t : XdrType} (h : Covered name t)
    {item : MarkedItem} (hitem : t.markedItem = .ok item) {n : String} (hn : n ∈ item.names) :
    n = name ∨ n ∈ t.dependencies := by
  cases hlabel : t.label with
  | typeAlias =>
    rw [XdrType.markedItem_of_alias hlabel] at hitem
    obtain ⟨type, htype, rfl⟩ := map_eq_ok_iff.mp hitem
    rw [MarkedItem.names, RustType.names_marked] at hn
    exact Or.inr ((XdrType.mem_names_toRust htype n).mp hn)
  | enum =>
    cases t with
    | enum e =>
      cases hitem
      exact Or.inl ((EnumDecl.names_marked hn).trans h)
    | _ => cases hlabel
  | struct =>
    cases t with
    | struct s =>
      cases hitem
      rcases StructDecl.names_marked hn with rfl | ⟨f, hf, hn⟩
      · exact Or.inl h.1
      · exact Or.inr (h.2 f hf n hn)
    | _ => cases hlabel
  | union =>
    cases t with
    | union u =>
      cases hitem
      rcases UnionDecl.names_marked hn with rfl | hn | ⟨v, hv, p, hp, hn⟩
      · exact Or.inl h.1
      · exact Or.inr (h.2.1 n hn)
      · exact Or.inr (h.2.2 v hv p hp n hn)
    | _ => cases hlabel

theorem IsBlockOf.names {main : NameSet} {feature : String} {entry : String × XdrType}
    {block : Block} (h : IsBlockOf main feature entry block) (hcovered : Covered entry.1 entry.2)
    {n : String} (hn : n ∈ block.body.names) : n = entry.1 ∨ n ∈ entry.2.dependencies := by
  obtain ⟨item, hitem, hbody⟩ := h.body
  rw [hbody] at hn
  rcases names_markedBlock hn with hn | hn
  · exact Or.inl hn
  · exact hcovered.names_markedItem hitem hn

/-! ## Ungated blocks -/

theorem IsBlockOf.mem_main {main : NameSet} {feature : String} {entry : String × XdrType}
    {block : Block} (h : IsBlockOf main feature entry block) (hgated : block.gated = false) :
    entry.1 ∈ main := by
  rw [h.gated] at hgated
  simpa using hgated

/-- A main type that is in the table has a block without a gate. -/
theorem HasBlocks.exists_ungated {p : Provenance} {schema : Schema} {main : NameSet}
    {source : String} {blocks : List Block} (h : HasBlocks p schema main source blocks)
    {n : String} {t : XdrType} (ht : schema.types.get? n = some t) (hn : n ∈ main) :
    ∃ block ∈ blocks, block.name = n ∧ block.gated = false := by
  obtain ⟨block, hblock, hof⟩ := exists_result_of_mem h.entries (Table.get?_eq_some_iff.mp ht)
  refine ⟨block, hblock, hof.name, ?_⟩
  rw [hof.gated]
  simpa using hn

/-- Without the feature, the generated file is closed. Whatever a block without a gate
names, in the definition or in the codec, is a defined type of the schema, and its own
block is without a gate as well. -/
theorem ungated_blocks_closed {beginnings : List String} {registrations : List Registration}
    {roots : List String} {p : Provenance} {schema : Schema} {reach : Reach} {source : String}
    (haliases : ∀ name t, .typeAlias name t ∈ registrations → t.label = .typeAlias)
    (hschema : Schema.ofRegistrations beginnings registrations = .ok schema)
    (hreach : reachable schema.types roots = .ok reach)
    (hsource : assemble p schema reach.reached = .ok source) :
    ∃ blocks, HasBlocks p schema reach.reached source blocks ∧
      ∀ block ∈ blocks, block.gated = false → ∀ n ∈ block.body.names,
        schema.types.defined? n ≠ none ∧ ∃ other ∈ blocks, other.name = n ∧ other.gated = false := by
  obtain ⟨blocks, hblocks⟩ := exists_hasBlocks hsource
  refine ⟨blocks, hblocks, ?_⟩
  intro block hblock hgated n hn
  obtain ⟨⟨name, t⟩, hentry, hof⟩ := exists_source_of_mem hblocks.entries hblock
  have hname : name ∈ reach.reached := hof.mem_main hgated
  have ht : schema.types.get? name = some t := Table.get?_eq_some_iff.mpr hentry
  have hcovered : Covered name t := forall_types_ofRegistrations (registers_covered beginnings)
    (fun name t hmem => Covered.of_alias (haliases name t hmem)) hschema name t ht
  -- What the text names is needed by a main type, and the main types are closed under need.
  have hmain : n ∈ reach.reached := by
    rcases hof.names hcovered hn with rfl | hdep
    · exact hname
    · rw [mem_reached_iff hreach] at hname ⊢
      exact hname.step ((needs_iff ht).mpr hdep)
  have hdefined : schema.types.defined? n ≠ none := defined_of_mem_reached hreach hmain
  obtain ⟨type, htype⟩ := Option.ne_none_iff_exists'.mp hdefined
  obtain ⟨entry, hget, -⟩ := Option.bind_eq_some_iff.mp htype
  exact ⟨hdefined, hblocks.exists_ungated hget hmain⟩

/-- A list through a pointer, an alias, and a union over an enum. The last alias is not
needed by the union, and what it stands for is not defined. -/
def ledgerRegistrations : List Registration :=
  [.typeAlias "Hash" (.bytes (.literal 32)),
   .struct "Entry" [("previous", .option (.reference "Entry")), ("hash", .reference "Hash")],
   .enum "Kind" (Table.ofList [("closed", 0), ("open", 1)]),
   .union "Ledger" (some
     { switchOn := .reference "Kind"
       switchName := "kind"
       switches := [(.label "closed", .empty), (.label "open", .named "entry")]
       arms := Table.ofList [("entry", .reference "Entry"), ("spare", .reference "Hash")]
       defaultArm := none }),
   .typeAlias "Orphan" (.varArray (.reference "Nowhere") none)]

/-- Compiling, searching and writing the ledger one after the other. -/
def ledgerRun : Except Failure String :=
  (Schema.ofRegistrations defaultBoxedBeginnings ledgerRegistrations).bind fun schema =>
    (reachable schema.types ["Ledger"]).bind fun reach =>
      assemble ⟨"2024-02-29", "ledger", defaultFeature⟩ schema reach.reached

theorem ungated_blocks_closed_ledger :
    ∃ schema reach source,
      Schema.ofRegistrations defaultBoxedBeginnings ledgerRegistrations = .ok schema ∧
      reachable schema.types ["Ledger"] = .ok reach ∧
      assemble ⟨"2024-02-29", "ledger", defaultFeature⟩ schema reach.reached = .ok source ∧
      ∃ blocks,
        HasBlocks ⟨"2024-02-29", "ledger", defaultFeature⟩ schema reach.reached source blocks ∧
        ∀ block ∈ blocks, block.gated = false → ∀ n ∈ block.body.names,
          schema.types.defined? n ≠ none ∧
            ∃ other ∈ blocks, other.name = n ∧ other.gated = false := by
  have hrun : ledgerRun.toBool = true := by decide +kernel
  obtain ⟨source, hsource⟩ := exists_eq_ok_of_toBool hrun
  obtain ⟨schema, hschema, hsource⟩ := bind_eq_ok_iff.mp hsource
  obtain ⟨reach, hreach, hsource⟩ := bind_eq_ok_iff.mp hsource
  have haliases : ∀ name t, .typeAlias name t ∈ ledgerRegistrations → t.label = .typeAlias := by
    intro name t hmem
    simp only [ledgerRegistrations, List.mem_cons, Registration.typeAlias.injEq, reduceCtorEq,
      List.not_mem_nil, false_or, or_false] at hmem
    rcases hmem with ⟨-, rfl⟩ | ⟨-, rfl⟩
    · rfl
    · rfl
  exact ⟨schema, reach, source, hschema, hreach, hsource,
    ungated_blocks_closed haliases hschema hreach hsource⟩

end XdrCompiler
