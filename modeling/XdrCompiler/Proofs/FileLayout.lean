/-
# XdrCompiler.Proofs.FileLayout -- the file as a sequence of lines

The generated text is put together from lines, cleared of newlines at its end
and given one back. Every part of the file ends with a line that does not end in
a newline, followed by an empty one (`Closed`). Hence clearing the end changes
nothing, and the file is its lines, joined (`assemble_eq_ok_iff`). Groups of lines
may be joined one by one before they are joined with each other, so that the file
can be read block by block.
-/
import XdrCompiler.Proofs.Results
import XdrCompiler.Source.File

namespace XdrCompiler

open Text (joinLines lines)

/-! ## Joined lines -/

namespace Text

theorem joinLines_append {a b : List String} (ha : a ≠ []) (hb : b ≠ []) :
    joinLines (a ++ b) = joinLines a ++ "\n" ++ joinLines b := by
  induction a with
  | nil => exact absurd rfl ha
  | cons line rest ih =>
    cases rest with
    | nil => rw [List.singleton_append, joinLines_cons hb, joinLines]
    | cons next others =>
      have hrest : next :: others ≠ [] := List.cons_ne_nil next others
      have hne : next :: others ++ b ≠ [] := by simp
      rw [List.cons_append, joinLines_cons hne, ih hrest, joinLines_cons hrest]
      simp only [String.append_assoc]

/-- Joining lines group by group, and then the groups, is joining all lines. -/
theorem joinLines_flatten {groups : List (List String)} (h : ∀ g ∈ groups, g ≠ []) :
    joinLines groups.flatten = joinLines (groups.map joinLines) := by
  induction groups with
  | nil => rfl
  | cons g rest ih =>
    have hg : g ≠ [] := h g List.mem_cons_self
    have hrest : ∀ g ∈ rest, g ≠ [] := fun g' hg' => h g' (List.mem_cons_of_mem g hg')
    cases rest with
    | nil => simp [joinLines]
    | cons g' others =>
      have hflat : (g' :: others).flatten ≠ [] := by
        have hg' := hrest g' List.mem_cons_self
        simp [hg']
      rw [List.flatten_cons, joinLines_append hg hflat, ih hrest]
      exact (joinLines_cons (List.cons_ne_nil _ _)).symm

theorem joinLines_append_flatten {groups : List (List String)} (h : ∀ g ∈ groups, g ≠ [])
    (before : List String) :
    joinLines (before ++ groups.flatten) = joinLines (before ++ groups.map joinLines) := by
  cases groups with
  | nil => rfl
  | cons g rest =>
    cases before with
    | nil => exact joinLines_flatten h
    | cons line others =>
      have hbefore : line :: others ≠ [] := List.cons_ne_nil line others
      have hg : g ≠ [] := h g List.mem_cons_self
      have hflat : (g :: rest).flatten ≠ [] := by simp [hg]
      rw [joinLines_append hbefore hflat, joinLines_append hbefore (by simp), joinLines_flatten h]

/-- The lines of a text, among other lines, may stand as the one text. -/
theorem joinLines_append_lines (before after : List String) (s : String) :
    joinLines (before ++ (lines s ++ after)) = joinLines (before ++ s :: after) := by
  have hlines : lines s ≠ [] := by
    simpa [lines] using cutLines_ne_nil s.toList
  have hafter : joinLines (lines s ++ after) = joinLines (s :: after) := by
    cases after with
    | nil => rw [List.append_nil, joinLines_lines, joinLines]
    | cons line rest =>
      have hrest : line :: rest ≠ [] := List.cons_ne_nil line rest
      rw [joinLines_append hlines hrest, joinLines_lines, joinLines_cons hrest]
  cases before with
  | nil => exact hafter
  | cons line rest =>
    have hbefore : line :: rest ≠ [] := List.cons_ne_nil line rest
    have hne : lines s ++ after ≠ [] := List.append_ne_nil_of_left_ne_nil hlines after
    rw [joinLines_append hbefore hne, joinLines_append hbefore (List.cons_ne_nil s after), hafter]

/-- A line that ends in something, and not in a newline. -/
def EndsInText (line : String) : Prop := ∃ c, line.toList.getLast? = some c ∧ c ≠ '\n'

theorem EndsInText.append {line : String} (h : EndsInText line) (before : String) :
    EndsInText (before ++ line) := by
  obtain ⟨c, hlast, hc⟩ := h
  refine ⟨c, ?_, hc⟩
  rw [String.toList_append, List.getLast?_append, hlast, Option.some_or]

theorem EndsInText.dropFinalNewlines {line : String} (h : EndsInText line) :
    Text.dropFinalNewlines (line ++ "\n") = line := by
  obtain ⟨c, hlast, hc⟩ := h
  obtain ⟨rest, hrest⟩ := List.getLast?_eq_some_iff.mp hlast
  have hnewline : ("\n" : String).toList = ['\n'] := rfl
  have hdrop : (rest ++ [c] ++ ['\n']).reverse.dropWhile (· = '\n') = (rest ++ [c]).reverse := by
    simp [hc]
  unfold Text.dropFinalNewlines
  rw [String.toList_append, hrest, hnewline, hdrop, List.reverse_reverse, ← hrest,
    String.ofList_toList]

/-- The last lines are one that ends in text and an empty one. -/
def Closed (ls : List String) : Prop := ∃ init line, ls = init ++ [line, ""] ∧ EndsInText line

theorem Closed.append {ls : List String} (h : Closed ls) (before : List String) :
    Closed (before ++ ls) := by
  obtain ⟨init, line, rfl, hline⟩ := h
  exact ⟨before ++ init, line, (List.append_assoc _ _ _).symm, hline⟩

/-- Closed lines, joined, end in exactly one newline. -/
theorem Closed.exists_body {ls : List String} (h : Closed ls) :
    ∃ body, joinLines ls = body ++ "\n" ∧ EndsInText body := by
  obtain ⟨init, line, rfl, hline⟩ := h
  cases init with
  | nil => exact ⟨line, by simp [joinLines], hline⟩
  | cons first rest =>
    refine ⟨joinLines (first :: rest) ++ "\n" ++ line, ?_, hline.append _⟩
    rw [joinLines_append (List.cons_ne_nil _ _) (List.cons_ne_nil _ _)]
    simp [joinLines, String.append_assoc]

/-- So they already end the way a file ends. -/
theorem Closed.dropFinalNewlines {ls : List String} (h : Closed ls) :
    Text.dropFinalNewlines (joinLines ls) ++ "\n" = joinLines ls := by
  obtain ⟨body, hbody, hends⟩ := h.exists_body
  rw [hbody, hends.dropFinalNewlines]

end Text

open Text (Closed EndsInText)

/-! ## Parts of the file -/

theorem endsInText_semicolon : EndsInText ";" := ⟨';', rfl, by decide⟩

theorem endsInText_brace_semicolon : EndsInText "\x7d;" := ⟨';', rfl, by decide⟩

theorem endsInText_brace : EndsInText "\x7d" := ⟨'\x7d', rfl, by decide⟩

/-- Every import ends in a semicolon. -/
theorem Import.exists_of_lines {i : Import} {ls : List String} (h : i.lines = .ok ls) :
    ∃ init line, ls = init ++ [line] ∧ EndsInText line := by
  unfold Import.lines at h
  split at h
  · cases h
  · obtain rfl := Except.ok.inj h
    exact ⟨["#[allow(unused_imports)]"], _, rfl, endsInText_semicolon.append _⟩
  · obtain rfl := Except.ok.inj h
    exact ⟨["#[allow(unused_imports)]"], _, rfl, endsInText_brace_semicolon.append _⟩

theorem exists_of_importLines {imports : List Import} {ls : List String} (hne : imports ≠ [])
    (h : importLines imports = .ok ls) : ∃ init line, ls = init ++ [line] ∧ EndsInText line := by
  induction imports generalizing ls with
  | nil => exact absurd rfl hne
  | cons i rest ih =>
    obtain ⟨first, hfirst, h⟩ := bind_eq_ok_iff.mp h
    obtain ⟨others, hothers, h⟩ := bind_eq_ok_iff.mp h
    cases h
    cases rest with
    | nil =>
      cases hothers
      rw [List.append_nil]
      exact Import.exists_of_lines hfirst
    | cons j more =>
      obtain ⟨init, line, rfl, hline⟩ := ih (List.cons_ne_nil j more) hothers
      exact ⟨first ++ init, line, (List.append_assoc _ _ _).symm, hline⟩

theorem closed_constantSection {constants : Table String ConstantValue}
    (h : constantSection constants ≠ []) : Closed (constantSection constants) := by
  unfold constantSection at h ⊢
  rcases List.eq_nil_or_concat constants.entries with hnil | ⟨init, c, hentries⟩
  · simp [hnil] at h
  · have hempty : constants.entries.isEmpty = false := by simp [hentries]
    have hlines : constantLines constants =
        (init.flatMap fun c => constantBlock c.1 c.2) ++ constantBlock c.1 c.2 := by
      simp [constantLines, hentries]
    rw [hempty, if_neg Bool.false_ne_true, hlines, List.append_assoc]
    apply Closed.append
    unfold constantBlock
    exact ⟨[_, _], _, rfl, endsInText_semicolon.append _⟩

/-- Every block ends with a closing line and an empty one. -/
theorem closed_typeLines {name feature : String} {type : XdrType} {gated : Bool}
    {ls : List String} (h : typeLines name type gated feature = .ok ls) : Closed ls := by
  obtain ⟨item, -, rfl⟩ := map_eq_ok_iff.mp h
  cases item with
  | synonym target =>
    refine ⟨_, _, List.append_assoc _ _ _, endsInText_semicolon.append _⟩
  | declaration derives definition implementation =>
    rw [List.append_assoc]
    apply Closed.append
    rw [itemLines, List.append_assoc]
    apply Closed.append
    exact ⟨[], "\x7d", rfl, endsInText_brace⟩

/-- The blocks of a list of entries, one group of lines for each. -/
theorem typeBlocks_eq_ok_iff {main : NameSet} {feature : String}
    {entries : List (String × XdrType)} {blocks : List String} :
    typeBlocks main feature entries = .ok blocks ↔
      ∃ groups, blocks = groups.flatten ∧ List.Forall₂ (fun entry group =>
        typeLines entry.1 entry.2 (decide (entry.1 ∉ main)) feature = .ok group) entries groups := by
  induction entries generalizing blocks with
  | nil =>
    constructor
    · intro h
      cases h
      exact ⟨[], rfl, .nil⟩
    · rintro ⟨groups, rfl, hgroups⟩
      cases hgroups
      rfl
  | cons entry rest ih =>
    constructor
    · intro h
      obtain ⟨first, hfirst, h⟩ := bind_eq_ok_iff.mp h
      obtain ⟨others, hothers, h⟩ := bind_eq_ok_iff.mp h
      cases h
      obtain ⟨groups, rfl, hgroups⟩ := ih.mp hothers
      exact ⟨first :: groups, rfl, .cons hfirst hgroups⟩
    · rintro ⟨groups, rfl, hgroups⟩
      cases hgroups with
      | cons hfirst hrest =>
        exact bind_eq_ok_iff.mpr ⟨_, hfirst, bind_eq_ok_iff.mpr ⟨_, ih.mpr ⟨_, rfl, hrest⟩, rfl⟩⟩

theorem closed_of_typeBlocks {main : NameSet} {feature : String}
    {entries : List (String × XdrType)} {blocks : List String} (hne : blocks ≠ [])
    (h : typeBlocks main feature entries = .ok blocks) : Closed blocks := by
  obtain ⟨groups, rfl, hgroups⟩ := typeBlocks_eq_ok_iff.mp h
  rcases List.eq_nil_or_concat groups with rfl | ⟨init, last, rfl⟩
  · exact absurd rfl hne
  · have hlast : Closed last := by
      obtain ⟨entry, -, hentry⟩ := exists_source_of_mem hgroups (by simp : last ∈ init.concat last)
      exact closed_typeLines hentry
    rw [List.concat_eq_append, List.flatten_append, List.flatten_singleton]
    exact hlast.append _

/-- In the block of a declared type, the definition and the codec may stand as one line each. -/
theorem joinLines_itemLines (before gate after : List String)
    (name derives definition implementation : String) :
    joinLines (before ++ itemLines name gate (.declaration derives definition implementation) ++
        after) =
      joinLines (before ++ ["#[derive(" ++ derives ++ ")]", definition, ""] ++ gate ++
        ["impl XdrCodec for " ++ name ++ " \x7b", implementation, "\x7d"] ++ after) := by
  have hdefinition := Text.joinLines_append_lines (before ++ ["#[derive(" ++ derives ++ ")]"])
    ([""] ++ gate ++ ["impl XdrCodec for " ++ name ++ " \x7b"] ++ lines implementation ++
      ["\x7d"] ++ after) definition
  have himplementation := Text.joinLines_append_lines
    (before ++ ["#[derive(" ++ derives ++ ")]", definition, ""] ++ gate ++
      ["impl XdrCodec for " ++ name ++ " \x7b"]) (["\x7d"] ++ after) implementation
  simp only [itemLines, List.append_assoc, List.cons_append, List.nil_append]
    at hdefinition himplementation ⊢
  rw [hdefinition, himplementation]

/-! ## The whole file -/

section

variable {p : Provenance} {schema : Schema} {main : NameSet} {imports blocks : List String}

/-- The last of the parts that is not empty ends in text and an empty line. -/
theorem closed_parts (himports : importLines defaultImports = .ok imports)
    (hblocks : typeBlocks main p.feature schema.types.entries = .ok blocks)
    (header : List String) :
    Closed (header ++ [""] ++ imports ++ [""] ++ constantSection schema.constants ++ blocks) := by
  by_cases hb : blocks = []
  · by_cases hc : constantSection schema.constants = []
    · obtain ⟨init, line, rfl, hline⟩ := exists_of_importLines (List.cons_ne_nil _ _) himports
      exact ⟨header ++ [""] ++ init, line, by simp [hb, hc], hline⟩
    · rw [hb, List.append_nil]
      exact (closed_constantSection hc).append _
  · exact (closed_of_typeBlocks hb hblocks).append _

/-- The file is the lines of its parts, joined. The newlines at the end are replaced by one, and
there is one already. -/
theorem assemble_eq_ok_iff {source : String} :
    assemble p schema main = .ok source ↔
      ∃ header imports blocks, headerLines p = .ok header ∧
        importLines defaultImports = .ok imports ∧
        typeBlocks main p.feature schema.types.entries = .ok blocks ∧
        source = joinLines (header ++ [""] ++ imports ++ [""] ++
          constantSection schema.constants ++ blocks) := by
  constructor
  · intro h
    obtain ⟨header, hheader, h⟩ := bind_eq_ok_iff.mp h
    obtain ⟨imports, himports, h⟩ := bind_eq_ok_iff.mp h
    obtain ⟨blocks, hblocks, h⟩ := bind_eq_ok_iff.mp h
    obtain rfl := Except.ok.inj h
    exact ⟨header, imports, blocks, hheader, himports, hblocks,
      (closed_parts himports hblocks header).dropFinalNewlines⟩
  · rintro ⟨header, imports, blocks, hheader, himports, hblocks, rfl⟩
    refine bind_eq_ok_iff.mpr ⟨header, hheader, bind_eq_ok_iff.mpr ⟨imports, himports,
      bind_eq_ok_iff.mpr ⟨blocks, hblocks, ?_⟩⟩⟩
    exact congrArg Except.ok (closed_parts himports hblocks header).dropFinalNewlines

end

end XdrCompiler
