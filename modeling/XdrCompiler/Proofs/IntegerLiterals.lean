/-
# XdrCompiler.Proofs.IntegerLiterals -- integers at the types they are written at

Integers of the schema reach the generated text in three places: as the values of
constants, as the numbers of enum cases and as the switch values of unions. In each
place they stand at an integer type, and each place finds it by a rule of its own. A
constant takes `i32` or `i64` by its value, an enum is read and written as `i32`
whatever its numbers are, and a union takes what its discriminant stands for.

The main statement, `integers_written_verbatim`, says for every file where these
integers stand and which of them fit. All of them are written as they were
registered. A constant fits exactly if it has 64 bits, the number of a case exactly if
it is an `i32`, and a switch value exactly if the type behind the discriminant has it.
None is refused or changed for its size (`oversized_integers_written`).
-/
import XdrCompiler.Proofs.BuiltTable
import XdrCompiler.Proofs.FileLayout
import XdrCompiler.Proofs.SwitchCoverage
import XdrCompiler.Proofs.UnionCodec

namespace XdrCompiler

open Text (joinLines lines)

/-! ## Ranges -/

namespace Primitive

/-- The integers of a Rust type. -/
def Holds : Primitive → Int → Prop
  | .i32, n => -2 ^ 31 ≤ n ∧ n < 2 ^ 31
  | .u32, n => 0 ≤ n ∧ n < 2 ^ 32
  | .i64, n => -2 ^ 63 ≤ n ∧ n < 2 ^ 63
  | .u64, n => 0 ≤ n ∧ n < 2 ^ 64
  | .bool, _ => False

instance (q : Primitive) (n : Int) : Decidable (q.Holds n) :=
  match q with
  | .i32 => inferInstanceAs (Decidable (_ ∧ _))
  | .u32 => inferInstanceAs (Decidable (_ ∧ _))
  | .i64 => inferInstanceAs (Decidable (_ ∧ _))
  | .u64 => inferInstanceAs (Decidable (_ ∧ _))
  | .bool => inferInstanceAs (Decidable False)

theorem name_injective {q r : Primitive} (h : q.name = r.name) : q = r := by
  revert h
  cases q <;> cases r <;> decide

theorem Holds.widen {n : Int} (h : i32.Holds n) : i64.Holds n := by
  simp only [Holds] at h ⊢
  omega

end Primitive

/-- A literal fits at a type: it spells an integer that the type has. -/
def LiteralFits (type literal : String) : Prop :=
  ∃ (q : Primitive) (n : Int), q.name = type ∧ toString n = literal ∧ q.Holds n

/-- A spelling stands for one integer only. -/
theorem literalFits_iff (q : Primitive) (n : Int) :
    LiteralFits q.name (toString n) ↔ q.Holds n := by
  constructor
  · rintro ⟨q', n', hname, hliteral, hholds⟩
    rw [← Primitive.name_injective hname, ← Int.repr_injective hliteral]
    exact hholds
  · intro h
    exact ⟨q, n, rfl, rfl, h⟩

/-! ## Parts and lines of a text -/

namespace Text

/-- One text is a part of another. -/
def Occurs (part text : String) : Prop := part.toList <:+: text.toList

/-- A text has a line, with a newline before and one after it. -/
def HasLine (line text : String) : Prop := Occurs ("\n" ++ line ++ "\n") text

theorem Occurs.trans {a b c : String} (hab : Occurs a b) (hbc : Occurs b c) : Occurs a c :=
  List.IsInfix.trans hab hbc

theorem occurs_append_left (part after : String) : Occurs part (part ++ after) := by
  rw [Occurs, String.toList_append]
  exact (List.prefix_append _ _).isInfix

theorem occurs_append_right (before part : String) : Occurs part (before ++ part) := by
  rw [Occurs, String.toList_append]
  exact (List.suffix_append _ _).isInfix

theorem occurs_between (before part after : String) : Occurs part (before ++ part ++ after) :=
  (occurs_append_right before part).trans (occurs_append_left _ after)

theorem occurs_joinLines {line : String} {ls : List String} (h : line ∈ ls) :
    Occurs line (joinLines ls) := by
  induction ls with
  | nil => exact absurd h List.not_mem_nil
  | cons first rest ih =>
    cases rest with
    | nil =>
      obtain rfl := List.mem_singleton.mp h
      exact List.infix_refl _
    | cons next others =>
      rw [joinLines_cons (List.cons_ne_nil next others)]
      rcases List.mem_cons.mp h with rfl | h
      · rw [String.append_assoc]
        exact occurs_append_left line _
      · exact (ih h).trans (occurs_append_right _ _)

/-- A text whose lines stand among others is a part of the whole. -/
theorem occurs_of_lines_infix {s : String} {ls : List String} (h : lines s <:+: ls) :
    Occurs s (joinLines ls) := by
  obtain ⟨before, after, rfl⟩ := h
  rw [List.append_assoc, joinLines_append_lines]
  exact occurs_joinLines (by simp)

/-- Lines between others are lines of the joined text. -/
theorem hasLine_joinLines {before middle after : List String} (hbefore : before ≠ [])
    (hafter : after ≠ []) {line : String} (h : line ∈ middle) :
    HasLine line (joinLines (before ++ middle ++ after)) := by
  obtain ⟨init, rest, rfl⟩ := List.append_of_mem h
  have hinit : before ++ init ≠ [] := List.append_ne_nil_of_left_ne_nil hbefore init
  have hrest : rest ++ after ≠ [] := List.append_ne_nil_of_right_ne_nil rest hafter
  have hparts : before ++ (init ++ line :: rest) ++ after =
      (before ++ init) ++ line :: (rest ++ after) := by
    simp
  rw [hparts, joinLines_append hinit (List.cons_ne_nil _ _), joinLines_cons hrest]
  have htext := occurs_between (joinLines (before ++ init)) ("\n" ++ line ++ "\n")
    (joinLines (rest ++ after))
  simpa only [HasLine, String.append_assoc] using htext

end Text

open Text (Occurs HasLine hasLine_joinLines)

/-- A member that is set off by newlines is a line; all but the last have a comma. -/
theorem hasLine_separateMembers {member : String} {members : List String} (h : member ∈ members) :
    HasLine member ("\n" ++ separateMembers members ++ "\n") ∨
      HasLine (member ++ ",") ("\n" ++ separateMembers members ++ "\n") := by
  induction members with
  | nil => exact absurd h List.not_mem_nil
  | cons first rest ih =>
    cases rest with
    | nil =>
      obtain rfl := List.mem_singleton.mp h
      exact Or.inl (List.infix_refl _)
    | cons next others =>
      -- The newline behind the comma stands before the other members as well.
      have hcomma : (",\n" : String) = "," ++ "\n" := rfl
      have hsplit : "\n" ++ separateMembers (first :: next :: others) ++ "\n" =
          "\n" ++ (first ++ ",") ++ ("\n" ++ separateMembers (next :: others) ++ "\n") := by
        simp only [separateMembers, hcomma, String.append_assoc]
      rw [hsplit]
      rcases List.mem_cons.mp h with rfl | h
      · right
        have hfirst := Text.occurs_append_left ("\n" ++ (member ++ ",") ++ "\n")
          (separateMembers (next :: others) ++ "\n")
        simpa only [HasLine, String.append_assoc] using hfirst
      · have hrest := Text.occurs_append_right ("\n" ++ (first ++ ","))
          ("\n" ++ separateMembers (next :: others) ++ "\n")
        exact (ih h).imp (fun hline => hline.trans hrest) (fun hline => hline.trans hrest)

theorem hasLine_definitionText {keyword name member : String} {members : List String}
    (h : member ∈ members) :
    HasLine member (definitionText keyword name members) ∨
      HasLine (member ++ ",") (definitionText keyword name members) := by
  have hopen : " \x7b\n" = (" \x7b" : String) ++ "\n" := rfl
  have hclose : "\n\x7d" = ("\n" : String) ++ "\x7d" := rfl
  have hframe : Occurs ("\n" ++ separateMembers members ++ "\n")
      (definitionText keyword name members) := by
    have hparts := Text.occurs_between ("pub " ++ keyword ++ " " ++ name ++ " \x7b")
      ("\n" ++ separateMembers members ++ "\n") "\x7d"
    simpa only [definitionText, hopen, hclose, String.append_assoc] using hparts
  exact (hasLine_separateMembers h).imp (fun hline => hline.trans hframe)
    (fun hline => hline.trans hframe)

/-! ## Where they stand in the file -/

theorem lines_infix_itemLines (name : String) (gate : List String)
    (derives definition implementation : String) :
    lines definition <:+: itemLines name gate (.declaration derives definition implementation) ∧
      lines implementation <:+:
        itemLines name gate (.declaration derives definition implementation) := by
  constructor
  · refine ⟨["#[derive(" ++ derives ++ ")]"], [""] ++ gate ++
      ["impl XdrCodec for " ++ name ++ " \x7b"] ++ lines implementation ++ ["\x7d"], ?_⟩
    simp only [itemLines, List.append_assoc]
  · exact List.infix_append _ _ _

section File

variable {p : Provenance} {schema : Schema} {main : NameSet} {source : String}

/-- Definition and codec of a declared type are parts of the file. -/
theorem occurs_of_itemText (h : assemble p schema main = .ok source) {name : String}
    {type : XdrType} (hget : schema.types.get? name = some type)
    {derives definition implementation : String}
    (hitem : type.itemText = .ok (.declaration derives definition implementation)) :
    Occurs definition source ∧ Occurs implementation source := by
  obtain ⟨header, imports, blocks, -, -, hblocks, rfl⟩ := assemble_eq_ok_iff.mp h
  obtain ⟨groups, rfl, hgroups⟩ := typeBlocks_eq_ok_iff.mp hblocks
  obtain ⟨group, hgroup, hlines⟩ := exists_result_of_mem hgroups (Table.get?_eq_some_iff.mp hget)
  obtain ⟨item, hitem', rfl⟩ := map_eq_ok_iff.mp hlines
  obtain rfl := Except.ok.inj (hitem.symm.trans hitem')
  have hblock : itemLines name (gateLines (decide (name ∉ main)) p.feature)
      (.declaration derives definition implementation) <:+: groups.flatten :=
    (List.infix_append _ _ _).trans (List.infix_of_mem_flatten hgroup)
  have hfile := hblock.trans (List.suffix_append
    (header ++ [""] ++ imports ++ [""] ++ constantSection schema.constants) groups.flatten).isInfix
  obtain ⟨hdefinition, himplementation⟩ := lines_infix_itemLines name
    (gateLines (decide (name ∉ main)) p.feature) derives definition implementation
  exact ⟨Text.occurs_of_lines_infix (hdefinition.trans hfile),
    Text.occurs_of_lines_infix (himplementation.trans hfile)⟩

/-- An integer constant `n` stands in the file at the type `q`. -/
structure ConstantWritten (source name : String) (n : Int) (q : Primitive) : Prop where
  type : q = if Primitive.i32.Holds n then .i32 else .i64
  line : HasLine ("pub const " ++ Naming.constantCase name ++ ": " ++ q.name ++ " = " ++
    toString n ++ ";") source
  fits : LiteralFits q.name (toString n) ↔ Primitive.i64.Holds n

theorem ConstantValue.typeText_number (n : Int) :
    (ConstantValue.number n).typeText =
      (if Primitive.i32.Holds n then Primitive.i32 else Primitive.i64).name := by
  have hrange : Primitive.i32.Holds n ↔ -2147483648 ≤ n ∧ n ≤ 2147483647 := by
    simp only [Primitive.Holds]
    omega
  simp only [ConstantValue.typeText, ← hrange]
  split <;> rfl

theorem constantWritten (h : assemble p schema main = .ok source) {name : String} {n : Int}
    (hget : schema.constants.get? name = some (.number n)) :
    ConstantWritten source name n (if Primitive.i32.Holds n then .i32 else .i64) where
  type := rfl
  line := by
    obtain ⟨header, imports, blocks, -, -, -, rfl⟩ := assemble_eq_ok_iff.mp h
    have hentry : (name, ConstantValue.number n) ∈ schema.constants.entries :=
      Table.get?_eq_some_iff.mp hget
    have hsection : constantSection schema.constants = constantLines schema.constants ++ [""] := by
      have hempty : schema.constants.entries.isEmpty = false := by
        simpa using List.ne_nil_of_mem hentry
      rw [constantSection, hempty, if_neg Bool.false_ne_true]
    have hline : ("pub const " ++ Naming.constantCase name ++ ": " ++
        (ConstantValue.number n).typeText ++ " = " ++ toString n ++ ";") ∈
          constantLines schema.constants :=
      List.mem_flatMap.mpr ⟨_, hentry, by simp [constantBlock, ConstantValue.literal]⟩
    rw [ConstantValue.typeText_number] at hline
    rw [hsection, ← List.append_assoc, List.append_assoc _ [""] blocks]
    exact hasLine_joinLines (by simp) (by simp) hline
  fits := by
    rw [literalFits_iff]
    split
    · next hsmall => exact iff_of_true hsmall hsmall.widen
    · rfl

/-- The number of a case stands in the definition and in the decoder of its enum. -/
structure CaseWritten (source : String) (e : EnumDecl) (c : EnumCase) : Prop where
  definition : Occurs e.definition source
  implementation : Occurs e.implementation source
  member : HasLine ("    " ++ c.ident ++ " = " ++ toString c.value) e.definition ∨
    HasLine ("    " ++ c.ident ++ " = " ++ toString c.value ++ ",") e.definition
  encoder : HasLine "        let value = *self as i32;" e.implementation
  decoder : HasLine "        let enum_value = i32::from_xdr_buffered(read_stream)?;"
    e.implementation
  arm : HasLine ("            " ++ toString c.value ++ " => Ok(" ++ e.name ++ "::" ++ c.ident ++
    "),") e.implementation
  fits : LiteralFits "i32" (toString c.value) ↔ Primitive.i32.Holds c.value

theorem caseWritten (h : assemble p schema main = .ok source) {name : String} {e : EnumDecl}
    (hget : schema.types.get? name = some (.enum e)) {c : EnumCase} (hc : c ∈ e.cases) :
    CaseWritten source e c where
  definition := (occurs_of_itemText h hget rfl).1
  implementation := (occurs_of_itemText h hget rfl).2
  member := hasLine_definitionText (List.mem_map_of_mem hc)
  encoder := by
    unfold EnumDecl.implementation
    simp only [List.append_assoc]
    rw [← List.append_assoc]
    exact hasLine_joinLines (by simp [encodeSignature]) (by simp) (by simp)
  decoder := by
    unfold EnumDecl.implementation
    rw [List.append_assoc _ (e.cases.map e.readerLine)]
    exact hasLine_joinLines (by simp [encodeSignature]) (by simp) (by simp)
  arm := by
    unfold EnumDecl.implementation
    exact hasLine_joinLines (by simp [encodeSignature]) (by simp) (List.mem_map_of_mem hc)
  fits := literalFits_iff .i32 c.value

/-- A switch value `n` stands in the encoder and in the decoder of its union, where the type
behind the discriminant is `q`. -/
structure SwitchWritten (source : String) (u : UnionDecl) (q : Primitive) (n : Int) : Prop where
  implementation : Occurs u.implementation source
  decoder : HasLine ("        match " ++ u.discriminant.declared ++
    "::from_xdr_buffered(read_stream)? \x7b") u.implementation
  writer : ∃ w ∈ u.writers,
    w.encoded = "(" ++ toString n ++ " as " ++ u.discriminant.declared ++ ")" ∧
      HasLine (w.text u.name) u.implementation
  reader : ∃ r ∈ u.readers, r.pattern = toString n ∧ HasLine (r.text u.name) u.implementation
  fits : LiteralFits q.name (toString n) ↔ q.Holds n

namespace UnionDecl

variable (u : UnionDecl)

/-- Every arm of the encoder is a line of the codec. -/
theorem hasLine_writer {w : WriterArm} (hw : w ∈ u.writers) :
    HasLine (w.text u.name) u.implementation := by
  unfold implementation
  rw [writerLines_eq]
  simp only [List.append_assoc]
  rw [← List.append_assoc, ← List.append_assoc]
  exact hasLine_joinLines (by simp) (by simp) (List.mem_map_of_mem hw)

/-- Every arm of the decoder is a line of the codec. -/
theorem hasLine_reader {r : ReaderArm} (hr : r ∈ u.readers) :
    HasLine (r.text u.name) u.implementation := by
  unfold implementation
  rw [readerLines_eq]
  exact hasLine_joinLines (by simp) (by simp) (List.mem_map_of_mem hr)

end UnionDecl

theorem switchWritten (h : assemble p schema main = .ok source) {name : String} {u : UnionDecl}
    (hget : schema.types.get? name = some (.union u)) {v : Variant} (hv : v ∈ u.variants)
    {n : Int} (hvalue : v.value = .number n) (q : Primitive) : SwitchWritten source u q n where
  implementation := (occurs_of_itemText h hget rfl).2
  decoder := by
    unfold UnionDecl.implementation
    rw [List.append_assoc _ u.readerLines]
    exact hasLine_joinLines (by simp [encodeSignature]) (by simp) (by simp)
  writer := by
    have hw : u.writerArm v ∈ u.writers := List.mem_append_left _ (List.mem_map_of_mem hv)
    refine ⟨u.writerArm v, hw, ?_, u.hasLine_writer hw⟩
    rw [UnionDecl.writerArm, hvalue, SwitchValue.encoded_number]
  reader := by
    have hr : u.readerArm v ∈ u.readers := List.mem_append_left _ (List.mem_map_of_mem hv)
    refine ⟨u.readerArm v, hr, ?_, u.hasLine_reader hr⟩
    rw [UnionDecl.readerArm, hvalue, SwitchValue.pattern_number]
  fits := literalFits_iff q n

end File

/-! ## From the registrations to the file -/

/-- The integers that were registered last under their names stand in the file as they are. The
type of a switch value is the one that the discriminant of its union stands for. -/
structure IntegersWritten (beginnings : List String) (registrations : List Registration)
    (source : String) : Prop where
  constant : ∀ name n,
    Pairs.findLast? name (Registration.bindings beginnings registrations) = some (.number n) →
      ∃ q, ConstantWritten source name n q
  enumCase : ∀ name owner cases,
    name ∉ (Registration.waiting beginnings registrations).map Prod.fst →
      Pairs.findLast? name (Registration.stored beginnings registrations) =
        some (.enum (EnumDecl.compile owner cases)) →
      ∀ key n, cases.get? key = some n →
        CaseWritten source (EnumDecl.compile owner cases) ⟨Naming.pascalCase key, n⟩
  unionSwitch : ∀ name d,
    Pairs.findLast? name (Registration.waiting beginnings registrations) = some (some d) →
      ∃ resolved u,
        resolveDiscriminant (.ofList (Registration.stored beginnings registrations)) d.switchOn =
          .ok resolved ∧
        UnionDecl.compile beginnings name d resolved = .ok u ∧
        ∀ q n, resolved.toRust = .ok (.primitive q) → d.Lists (.number n) →
          SwitchWritten source u q n

/-- Whatever is built and written, its integers are written as they were registered, and those
that fit are exactly those in the range of the type of their place. -/
theorem integers_written_verbatim (beginnings : List String) (registrations : List Registration)
    {p : Provenance} {schema : Schema} {main : NameSet} {source : String}
    (hschema : (Builder.afterAll beginnings registrations).build.2 = .ok schema)
    (hsource : assemble p schema main = .ok source) :
    IntegersWritten beginnings registrations source := by
  obtain ⟨hdone, rfl⟩ := Builder.of_build_afterAll hschema
  constructor
  case constant =>
    intro name n hlast
    exact ⟨_, constantWritten hsource ((Table.get?_ofList _ name).trans hlast)⟩
  case enumCase =>
    intro name owner cases hname hlast key n hn
    have hget : (Builder.compilePending beginnings
        (.ofList (Registration.stored beginnings registrations))
        (Registration.waiting beginnings registrations)).1.get? name =
          some (.enum (EnumDecl.compile owner cases)) := by
      rw [Builder.get?_compilePending_of_notMem hname, Table.get?_ofList, hlast]
    have hcase : ⟨Naming.pascalCase key, n⟩ ∈ (EnumDecl.compile owner cases).cases :=
      List.mem_map.mpr ⟨(key, n), Table.get?_eq_some_iff.mp hn, rfl⟩
    exact caseWritten hsource hget hcase
  case unionSwitch =>
    intro name d hlast
    obtain ⟨u, hu, hget⟩ := Builder.get?_compilePending_of_findLast? hdone hlast
    obtain ⟨resolved, hresolved, hcompile⟩ := bind_eq_ok_iff.mp hu
    refine ⟨resolved, u, hresolved, hcompile, ?_⟩
    rintro q n - ⟨arm, hswitch⟩
    obtain ⟨v, hv, -, hvalue, -⟩ :=
      exists_result_of_mem (UnionDecl.forall₂_variants hcompile) hswitch
    exact switchWritten hsource hget hv hvalue q

/-- Integers at both ends of their ranges, and a constant just outside the range of `i32`. The
discriminant is reached by way of two aliases. -/
def limitRegistrations : List Registration :=
  [.constant "LEAST" (.number (-2147483648)),
   .constant "BELOW" (.number (-2147483649)),
   .enum "Level" levels,
   .typeAlias "Word" .uhyper,
   .typeAlias "Index" (.reference "Word"),
   .union "Slot" (some slot)]
where
  levels : Table String Int := Table.ofList [("low", -2147483648), ("high", 2147483647)]
  slot : UnionDefinition :=
    { switchOn := .reference "Index"
      switchName := "index"
      switches := [(.number 0, .empty), (.number 18446744073709551615, .named "last")]
      arms := Table.ofList [("last", .bool)]
      defaultArm := none }

theorem integers_written_verbatim_limits :
    ∃ schema source, (Builder.afterAll [] limitRegistrations).build.2 = .ok schema ∧
      assemble ⟨"2024-02-29", "limits", defaultFeature⟩ schema .empty = .ok source ∧
      (∃ q, ConstantWritten source "BELOW" (-2147483649) q) ∧
      CaseWritten source (EnumDecl.compile "Level" limitRegistrations.levels)
        ⟨"High", 2147483647⟩ ∧
      ∃ u, SwitchWritten source u .u64 18446744073709551615 := by
  obtain ⟨source, hrun⟩ := exists_eq_ok_of_toBool
    (x := (Builder.afterAll [] limitRegistrations).build.2.bind fun schema =>
      assemble ⟨"2024-02-29", "limits", defaultFeature⟩ schema .empty) (by decide +kernel)
  obtain ⟨schema, hschema, hsource⟩ := bind_eq_ok_iff.mp hrun
  have hall := integers_written_verbatim [] limitRegistrations hschema hsource
  have hslot : (resolveDiscriminant (.ofList (Registration.stored [] limitRegistrations))
      limitRegistrations.slot.switchOn) = .ok .uhyper := by
    decide +kernel
  obtain ⟨resolved, u, hresolved, -, hswitches⟩ :=
    hall.unionSwitch "Slot" limitRegistrations.slot rfl
  obtain rfl := Except.ok.inj (hslot.symm.trans hresolved)
  refine ⟨schema, source, hschema, hsource, hall.constant "BELOW" _ (by decide +kernel), ?_, u, ?_⟩
  · have hhigh : Naming.pascalCase "high" = "High" := by decide +kernel
    rw [← hhigh]
    exact hall.enumCase "Level" "Level" _ (by decide +kernel) rfl "high" _ (by decide +kernel)
  · exact hswitches .u64 _ rfl ⟨.named "last", by simp [limitRegistrations.slot]⟩

/-- A constant of more than 64 bits, a case above the range of `i32`, and a negative switch value
where the discriminant stands for an unsigned type. -/
def oversizedRegistrations : List Registration :=
  [.constant "BIG" (.number 9223372036854775808),
   .enum "Kind" (Table.ofList [("huge", 2147483648)]),
   .typeAlias "Word" .uint,
   .union "Choice" (some
     { switchOn := .reference "Word"
       switchName := "word"
       switches := [(.number (-1), .empty)]
       arms := .empty
       defaultArm := none })]
where
  /-- What the enum is compiled to. -/
  kind : EnumDecl := ⟨"Kind", [⟨"Huge", 2147483648⟩]⟩
  /-- What the union is compiled to. -/
  choice : UnionDecl :=
    { name := "Choice"
      discriminant := .named "Word"
      variants := [⟨"VNeg1", .number (-1), none⟩]
      hasDefault := true
      referred := .ofList ["Word"]
      held := .ofList ["Word"] }

/-- All of these are built and written, and none of them fits. -/
theorem oversized_integers_written :
    ∃ schema source, (Builder.afterAll [] oversizedRegistrations).build.2 = .ok schema ∧
      assemble ⟨"2024-02-29", "oversized", defaultFeature⟩ schema .empty = .ok source ∧
      HasLine "pub const BIG: i64 = 9223372036854775808;" source ∧
      ¬LiteralFits "i64" "9223372036854775808" ∧
      HasLine "        let enum_value = i32::from_xdr_buffered(read_stream)?;" source ∧
      HasLine "            2147483648 => Ok(Kind::Huge)," source ∧
      ¬LiteralFits "i32" "2147483648" ∧
      resolveDiscriminant schema.types (.reference "Word") = .ok .uint ∧
      HasLine "            Choice::VNeg1 => (-1 as Word).to_xdr_buffered(write_stream)," source ∧
      HasLine "            -1 => Ok(Choice::VNeg1)," source ∧
      ¬LiteralFits "u32" "-1" := by
  obtain ⟨source, hrun⟩ := exists_eq_ok_of_toBool
    (x := (Builder.afterAll [] oversizedRegistrations).build.2.bind fun schema =>
      assemble ⟨"2024-02-29", "oversized", defaultFeature⟩ schema .empty) (by decide +kernel)
  obtain ⟨schema, hschema, hsource⟩ := bind_eq_ok_iff.mp hrun
  have hbuilt : (Builder.afterAll [] oversizedRegistrations).build.2.map (fun schema =>
      (schema.constants.get? "BIG", schema.types.get? "Kind", schema.types.get? "Choice",
        resolveDiscriminant schema.types (.reference "Word"))) =
      .ok (some (.number 9223372036854775808), some (.enum oversizedRegistrations.kind),
        some (.union oversizedRegistrations.choice), .ok .uint) := by
    decide +kernel
  obtain ⟨schema', hschema', hentries⟩ := map_eq_ok_iff.mp hbuilt
  obtain rfl := Except.ok.inj (hschema.symm.trans hschema')
  simp only [Prod.mk.injEq] at hentries
  obtain ⟨hbig, hkind, hchoice, hword⟩ := hentries
  have hconstant := (constantWritten hsource hbig).line
  have hname : Naming.constantCase "BIG" = "BIG" := by decide +kernel
  rw [hname] at hconstant
  have hcase := caseWritten hsource hkind (c := ⟨"Huge", 2147483648⟩) List.mem_cons_self
  have hcodec := (occurs_of_itemText hsource hchoice rfl).2
  refine ⟨schema, source, hschema, hsource, hconstant, ?_, ?_, ?_, ?_, hword, ?_, ?_, ?_⟩
  · exact (literalFits_iff .i64 9223372036854775808).not.mpr (by decide)
  · exact hcase.decoder.trans hcase.implementation
  · exact hcase.arm.trans hcase.implementation
  · exact (literalFits_iff .i32 2147483648).not.mpr (by decide)
  · exact (oversizedRegistrations.choice.hasLine_writer List.mem_cons_self).trans hcodec
  · exact (oversizedRegistrations.choice.hasLine_reader List.mem_cons_self).trans hcodec
  · exact (literalFits_iff .u32 (-1)).not.mpr (by decide)

end XdrCompiler
