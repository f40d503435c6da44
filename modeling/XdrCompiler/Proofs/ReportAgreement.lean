/-
# XdrCompiler.Proofs.ReportAgreement -- all reports tell the same story

Which types are generated unconditionally and which behind the feature gate is
said in five places: the line about reachable types, the counts of the summary,
the list of types, the search itself, and the gates of the generated file. Each
of them works it out from the main types on its own. They agree, because the main
types are types of the table and no name is in the table twice, and because every
entry has exactly one of the four labels (`reports_agree`).
-/
import XdrCompiler.Command.Run
import XdrCompiler.Proofs.FileLayout
import XdrCompiler.Proofs.LeastClosure

namespace XdrCompiler

open Text (joinLines)

/-! ## Counts -/

/-- One of the three numbers of each kind, for all kinds together. -/
def Counts.sum (number : KindCount → Int) (counts : Counts) : Int :=
  number counts.typedefs + number counts.enums + number counts.structs + number counts.unions

/-- The number of entries with a label whose name passes a test. -/
def labelledCount (test : String → Bool) (label : XdrType.Label)
    (entries : List (String × XdrType)) : Nat :=
  (((entries.filter fun e => e.2.label == label).map Prod.fst).filter test).length

theorem labelledCount_cons (test : String → Bool) (label : XdrType.Label) (e : String × XdrType)
    (rest : List (String × XdrType)) :
    labelledCount test label (e :: rest) =
      labelledCount test label rest + if e.2.label = label ∧ test e.1 = true then 1 else 0 := by
  by_cases hlabel : e.2.label = label
  · by_cases htest : test e.1 = true <;> simp [labelledCount, hlabel, htest]
  · simp [labelledCount, hlabel]

/-- Every entry has one label, so the labels divide the names that pass a test. -/
theorem sum_labelledCount (test : String → Bool) (entries : List (String × XdrType)) :
    labelledCount test .typeAlias entries + labelledCount test .enum entries +
      labelledCount test .struct entries + labelledCount test .union entries =
      ((entries.map Prod.fst).filter test).length := by
  induction entries with
  | nil => rfl
  | cons e rest ih =>
    have hcons : ((((e :: rest).map Prod.fst).filter test).length : Nat) =
        ((rest.map Prod.fst).filter test).length + if test e.1 = true then 1 else 0 := by
      by_cases htest : test e.1 = true <;> simp [htest]
    simp only [labelledCount_cons, hcons]
    cases e.2.label <;> simp only [true_and, false_and, if_false, reduceCtorEq] <;> omega

theorem root_ofNames (main : NameSet) (label : XdrType.Label) (types : Table String XdrType) :
    (KindCount.ofNames main (namesLabelled label types)).root =
      labelledCount (· ∈ main) label types.entries := rfl

theorem total_ofNames (main : NameSet) (label : XdrType.Label) (types : Table String XdrType) :
    (KindCount.ofNames main (namesLabelled label types)).total =
      labelledCount (fun _ => true) label types.entries := by
  simp [KindCount.ofNames, namesLabelled, labelledCount]

theorem gated_ofNames (main : NameSet) (names : List String) :
    (KindCount.ofNames main names).gated =
      (KindCount.ofNames main names).total - (KindCount.ofNames main names).root := rfl

theorem sum_total (schema : Schema) (main : NameSet) :
    (Counts.ofSchema schema main).sum KindCount.total = schema.types.size := by
  have h := sum_labelledCount (fun _ => true) schema.types.entries
  rw [List.filter_true, List.length_map] at h
  simp only [Counts.sum, Counts.ofSchema, total_ofNames, Table.size]
  omega

/-- The main types that are counted are those of the table. -/
theorem sum_root (schema : Schema) (main : NameSet) :
    (Counts.ofSchema schema main).sum KindCount.root =
      (schema.types.keys.filter (· ∈ main)).length := by
  have h := sum_labelledCount (· ∈ main) schema.types.entries
  simp only [Counts.sum, Counts.ofSchema, root_ofNames, Table.keys]
  omega

theorem sum_gated (schema : Schema) (main : NameSet) :
    (Counts.ofSchema schema main).sum KindCount.gated =
      (Counts.ofSchema schema main).sum KindCount.total -
        (Counts.ofSchema schema main).sum KindCount.root := by
  simp only [Counts.sum, Counts.ofSchema, gated_ofNames]
  omega

theorem length_filter_mem_main {types : Table String XdrType} {main : NameSet}
    (h : ∀ n ∈ main, n ∈ types.keys) :
    (types.keys.filter (· ∈ main)).length = main.size := by
  apply List.Perm.length_eq
  rw [List.perm_ext_iff_of_nodup (types.nodup_keys.filter _) (NameSet.nodup_toList main)]
  intro n
  rw [List.mem_filter, decide_eq_true_iff, ← NameSet.mem_def]
  exact and_iff_right_of_imp (h n)

/-! ## Rows -/

theorem typeRows_none (schema : Schema) (main : NameSet) :
    typeRows schema main none = schema.types.entries.map fun e =>
      ⟨e.1, e.2.label, e.2.dependencies.size, decide (e.1 ∈ main)⟩ := by
  simp [typeRows, passesFilter]

/-- The list of all types has a title with their number, a heading, and a line for each row. -/
theorem typesTable_none {schema : Schema} (hne : schema.types.keys ≠ []) (main : NameSet)
    (shown : String) :
    ∃ heading width, typesTable schema main none shown =
      joinLines (("Types in schema (" ++ toString schema.types.size ++ " of " ++
          toString schema.types.size ++ "):") :: "" :: heading ::
        (typeRows schema main none).map (TypeRow.line width)) ++ "\n" := by
  have hlength : (typeRows schema main none).length = schema.types.size := by
    rw [typeRows_none, List.length_map, Table.size]
  have hrows : typeRows schema main none ≠ [] := by
    simpa [typeRows_none, Table.keys] using hne
  unfold typesTable
  simp only [hlength]
  exact ⟨_, _, rfl⟩

/-- The last column of a row. -/
def TypeRow.mark (row : TypeRow) : String := if row.isMain then "root" else "gated"

theorem TypeRow.exists_line_eq (row : TypeRow) (width : Nat) :
    ∃ columns, row.line width = columns ++ "  " ++ row.mark := ⟨_, rfl⟩

/-! ## Gates -/

/-- The attribute that leaves an item out unless the feature is on. -/
def gateLine (feature : String) : String := "#[cfg(feature = \"" ++ feature ++ "\")]"

/-- Whether the gate stands among the attributes of a block, in front of its item. -/
def carriesGate (feature : String) (block : List String) : Bool :=
  block[2]? == some (gateLine feature)

theorem getElem?_append_text {s : String} (t : String) {i : Nat} {c : Char}
    (h : s.toList[i]? = some c) : (s ++ t).toList[i]? = some c := by
  obtain ⟨hi, -⟩ := List.getElem?_eq_some_iff.mp h
  rw [String.toList_append, List.getElem?_append_left hi, h]

/-- The third character of a gate, by which it differs from other attributes. -/
theorem getElem?_gateLine (feature : String) : (gateLine feature).toList[2]? = some 'c' := by
  have hgate : "#[cfg(feature = \"".toList[2]? = some 'c' := by decide
  exact getElem?_append_text _ (getElem?_append_text feature hgate)

theorem ne_gateLine {line : String} {c : Char} (hline : line.toList[2]? = some c) (hc : c ≠ 'c')
    (feature : String) : line ≠ gateLine feature := by
  rintro rfl
  rw [getElem?_gateLine] at hline
  exact hc (Option.some_inj.mp hline).symm

/-- A block says first which type it is about, and carries the gate exactly if it is gated. -/
theorem carriesGate_typeLines {name feature : String} {type : XdrType} {gated : Bool}
    {block : List String} (h : typeLines name type gated feature = .ok block) :
    block[0]? = some ("/// Autogenerated definition for type " ++ name) ∧
      carriesGate feature block = gated := by
  obtain ⟨item, -, rfl⟩ := map_eq_ok_iff.mp h
  refine ⟨rfl, ?_⟩
  cases gated with
  | true => exact beq_self_eq_true _
  | false =>
    -- Without a gate, the item itself follows the first two lines.
    rw [carriesGate, beq_eq_false_iff_ne]
    cases item with
    | synonym target =>
      have hpub : "pub type ".toList[2]? = some 'b' := by decide
      have hline := getElem?_append_text ";"
        (getElem?_append_text target (getElem?_append_text " = " (getElem?_append_text name hpub)))
      exact fun hsame => ne_gateLine hline (by decide) feature (Option.some_inj.mp hsame)
    | declaration derives definition implementation =>
      have hderive : "#[derive(".toList[2]? = some 'd' := by decide
      have hline := getElem?_append_text ")]" (getElem?_append_text derives hderive)
      exact fun hsame => ne_gateLine hline (by decide) feature (Option.some_inj.mp hsame)

/-! ## Agreement -/

/-- The block of the generated file for the type of a row. -/
structure BlockOfRow (feature : String) (row : TypeRow) (block : List String) : Prop where
  title : block[0]? = some ("/// Autogenerated definition for type " ++ row.name)
  gate : carriesGate feature block = true ↔ row.mark = "gated"

theorem TypeRow.mark_eq_gated_iff (row : TypeRow) : row.mark = "gated" ↔ row.isMain = false := by
  cases h : row.isMain <;> simp [mark, h]

/-- The generated file has one block for each row of the list of types, in order. -/
theorem exists_blocks_of_rows {p : Provenance} {schema : Schema} {main : NameSet} {source : String}
    (h : assemble p schema main = .ok source) :
    ∃ head blocks, source = joinLines (head ++ blocks.flatten) ∧
      List.Forall₂ (BlockOfRow p.feature) (typeRows schema main none) blocks := by
  obtain ⟨header, imports, lines, -, -, hlines, rfl⟩ := assemble_eq_ok_iff.mp h
  obtain ⟨blocks, rfl, hblocks⟩ := typeBlocks_eq_ok_iff.mp hlines
  refine ⟨_, blocks, rfl, ?_⟩
  rw [typeRows_none, List.forall₂_map_left_iff]
  refine hblocks.imp ?_
  intro entry block hblock
  obtain ⟨htitle, hgate⟩ := carriesGate_typeLines hblock
  refine ⟨htitle, ?_⟩
  rw [TypeRow.mark_eq_gated_iff, hgate]
  simp

/-- What the reports say about the main types of a schema. -/
structure ReportsAgree (schema : Schema) (reach : Reach) : Prop where
  main_subset : ∀ n ∈ reach.reached, n ∈ schema.types.keys
  total : (Counts.ofSchema schema reach.reached).sum KindCount.total = schema.types.size
  root : (Counts.ofSchema schema reach.reached).sum KindCount.root = reach.reached.size
  gated : (Counts.ofSchema schema reach.reached).sum KindCount.gated =
    (schema.types.size : Int) - reach.reached.size
  /-- The line about reachable types has the numbers of the summary. -/
  printed : ∀ config, reachableLine config schema reach =
    "  Reachable: " ++
      toString ((Counts.ofSchema schema reach.reached).sum KindCount.root) ++ " types from " ++
      toString reach.rootCount ++ " roots, " ++
      toString ((Counts.ofSchema schema reach.reached).sum KindCount.gated) ++
      " gated behind '" ++ config.feature ++ "'\n"
  /-- The list has one row for each type, in the order of the table. -/
  rows : (typeRows schema reach.reached none).map TypeRow.name = schema.types.keys
  marks : ∀ row ∈ typeRows schema reach.reached none,
    (row.mark = "root" ↔ row.name ∈ reach.reached) ∧
      (row.mark = "gated" ↔ row.name ∉ reach.reached)
  /-- Its text is a title, a heading and the rows, each of which ends with its mark. -/
  table : schema.types.keys ≠ [] → ∀ shown, ∃ heading width,
    typesTable schema reach.reached none shown =
      joinLines (("Types in schema (" ++ toString schema.types.size ++ " of " ++
          toString schema.types.size ++ "):") :: "" :: heading ::
        (typeRows schema reach.reached none).map (TypeRow.line width)) ++ "\n" ∧
    ∀ row, ∃ columns, TypeRow.line width row = columns ++ "  " ++ row.mark
  /-- The file has a block for each row, and gates those that are marked so. -/
  gates : ∀ p source, assemble p schema reach.reached = .ok source →
    ∃ head blocks, source = joinLines (head ++ blocks.flatten) ∧
      List.Forall₂ (BlockOfRow p.feature) (typeRows schema reach.reached none) blocks

theorem mem_keys_of_mem_reached {types : Table String XdrType} {roots : List String}
    {reach : Reach} (h : reachable types roots = .ok reach) {n : String}
    (hn : n ∈ reach.reached) : n ∈ types.keys := by
  by_contra hkey
  apply defined_of_mem_reached h hn
  rw [Table.defined?, Table.get?_eq_none_iff.mpr hkey, Option.bind_none]

/-- Whatever the roots are, if the search for the main types succeeds then all reports agree on
them. -/
theorem reports_agree {schema : Schema} {roots : List String} {reach : Reach}
    (h : reachable schema.types roots = .ok reach) : ReportsAgree schema reach := by
  have hsubset : ∀ n ∈ reach.reached, n ∈ schema.types.keys :=
    fun n hn => mem_keys_of_mem_reached h hn
  have hroot : (Counts.ofSchema schema reach.reached).sum KindCount.root = reach.reached.size := by
    rw [sum_root, length_filter_mem_main hsubset]
  have hgated : (Counts.ofSchema schema reach.reached).sum KindCount.gated =
      (schema.types.size : Int) - reach.reached.size := by
    rw [sum_gated, sum_total, hroot]
  refine
    { main_subset := hsubset
      total := sum_total schema reach.reached
      root := hroot
      gated := hgated
      printed := fun config => by rw [hroot, hgated]; rfl
      rows := by rw [typeRows_none, List.map_map]; rfl
      marks := ?_
      table := ?_
      gates := fun p source hsource => exists_blocks_of_rows hsource }
  · intro row hrow
    rw [typeRows_none] at hrow
    obtain ⟨entry, -, rfl⟩ := List.mem_map.mp hrow
    by_cases hmain : entry.1 ∈ reach.reached <;> simp [TypeRow.mark, hmain]
  · intro hne shown
    obtain ⟨heading, width, htable⟩ := typesTable_none hne reach.reached shown
    exact ⟨heading, width, htable, fun row => row.exists_line_eq width⟩

/-- A struct that needs an enum, and an alias and a union that nothing needs. -/
def tallyRegistrations : List Registration :=
  [.typeAlias "Spare" .int,
   .enum "Kind" (Table.ofList [("open", 0), ("closed", 1)]),
   .struct "Tally" [("kind", .reference "Kind")],
   .union "Choice" (some
     { switchOn := .reference "Kind"
       switchName := "kind"
       switches := [(.label "open", .empty), (.label "closed", .named "tally")]
       arms := Table.ofList [("tally", .reference "Tally")]
       defaultArm := none })]

/-- What is needed for tallies, in the schema that defines them. -/
def tallyRun : Except Failure Reach :=
  (Schema.ofRegistrations [] tallyRegistrations).bind fun schema =>
    reachable schema.types ["Tally"]

theorem reports_agree_tally :
    ∃ schema reach, Schema.ofRegistrations [] tallyRegistrations = .ok schema ∧
      reachable schema.types ["Tally"] = .ok reach ∧ ReportsAgree schema reach := by
  have hrun : tallyRun.toBool = true := by decide +kernel
  obtain ⟨reach, hreach⟩ := exists_eq_ok_of_toBool hrun
  obtain ⟨schema, hschema, hreach⟩ := bind_eq_ok_iff.mp hreach
  exact ⟨schema, reach, hschema, hreach, reports_agree hreach⟩

end XdrCompiler
