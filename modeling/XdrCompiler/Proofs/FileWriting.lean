/-
# XdrCompiler.Proofs.FileWriting -- what writing changes in a file tree

Making a directory adds directories and nothing else, also where it stops half
way, and only such as the path passes; where it succeeds, the path leads to a
directory (`makes_makeDirectories`).
Writing the generated file adds directories and then, if nothing was refused so
far, sets the one file that the path designates (`writes_writeSource`). A refusal
comes either before the file is set, or after it because the absolute path is too
long to look the file up again.
-/
import XdrCompiler.Files.Write
import XdrCompiler.Proofs.Results

namespace XdrCompiler

namespace Tree

variable {t t' t'' : Tree} {loc place : Location} {p : Path}

/-! ## Nodes and files -/

@[simp] theorem node?_root (t : Tree) : t.node? .root = some .directory := if_pos rfl

theorem node?_setNode_self (h : loc ≠ .root) (node : Node) :
    (t.setNode loc node).node? loc = some node := by
  rw [node?, if_neg h, setNode, Table.get?_insert_self]

theorem node?_setNode_of_ne {other : Location} (h : other ≠ loc) (node : Node) :
    (t.setNode loc node).node? other = t.node? other := by
  have hget : (t.nodes.insert loc node).get? other = t.nodes.get? other :=
    Table.get?_insert_of_ne h t.nodes node
  simp only [node?, setNode, hget]

theorem content?_congr (h : t'.node? loc = t.node? loc) : t'.content? loc = t.content? loc := by
  rw [content?, content?, h]

theorem content?_setNode_self (h : loc ≠ .root) (content : Content) :
    (t.setNode loc (.file content)).content? loc = some content := by
  rw [content?, node?_setNode_self h]

/-- The files of two trees are the same. -/
def SameFiles (t t' : Tree) : Prop := ∀ loc, t'.content? loc = t.content? loc

/-! ## Added directories -/

/-- `t'` has the nodes of `t`, and otherwise only further directories. -/
structure AddsDirectories (t t' : Tree) : Prop where
  workingDirectory : t'.workingDirectory = t.workingDirectory
  kept : ∀ loc node, t.node? loc = some node → t'.node? loc = some node
  added : ∀ loc node, t.node? loc = none → t'.node? loc = some node → node = .directory

namespace AddsDirectories

theorem refl (t : Tree) : t.AddsDirectories t where
  workingDirectory := rfl
  kept _ _ h := h
  added _ _ hnone hsome := by rw [hnone] at hsome; cases hsome

theorem trans (h : t.AddsDirectories t') (h' : t'.AddsDirectories t'') : t.AddsDirectories t'' where
  workingDirectory := h'.workingDirectory.trans h.workingDirectory
  kept loc node hnode := h'.kept loc node (h.kept loc node hnode)
  added loc node hnone hnode := by
    cases hmiddle : t'.node? loc with
    | none => exact h'.added loc node hmiddle hnode
    | some middle =>
      rw [h'.kept loc middle hmiddle, Option.some_inj] at hnode
      rw [← hnode]
      exact h.added loc middle hnone hmiddle

theorem setNode (h : t.node? loc = none) : t.AddsDirectories (t.setNode loc .directory) where
  workingDirectory := rfl
  kept other node hnode := by
    have hne : other ≠ loc := by
      rintro rfl
      rw [h] at hnode
      cases hnode
    rw [node?_setNode_of_ne hne, hnode]
  added other node hnone hnode := by
    by_cases heq : other = loc
    · have hroot : loc ≠ .root := by
        rintro rfl
        rw [node?_root] at h
        cases h
      rw [heq, node?_setNode_self hroot, Option.some_inj] at hnode
      exact hnode.symm
    · rw [node?_setNode_of_ne heq, hnone] at hnode
      cases hnode

theorem sameFiles (h : t.AddsDirectories t') : t.SameFiles t' := by
  intro loc
  cases hnode : t.node? loc with
  | some node =>
    apply content?_congr
    rw [hnode, h.kept loc node hnode]
  | none =>
    cases hnode' : t'.node? loc with
    | none =>
      apply content?_congr
      rw [hnode, hnode']
    | some node =>
      cases h.added loc node hnode hnode'
      rw [content?, content?, hnode, hnode']

end AddsDirectories

/-! ## Walks -/

/-- Where the walk of a path begins. -/
def start (t : Tree) (anchor : Anchor) : Location :=
  if anchor = .relative then t.workingDirectory else .root

theorem locate_eq_ok_iff :
    t.locate p = .ok loc ↔
      p.isOverlong = false ∧ t.walk (t.start p.anchor) p.components = .ok loc := by
  unfold locate start
  cases p.isOverlong <;> simp

theorem walk_concat (t : Tree) (loc : Location) (components : List String) (last : String) :
    t.walk loc (components ++ [last]) = (t.walk loc components).bind (t.step · last) := by
  induction components generalizing loc with
  | nil =>
    show (t.step loc last).bind Except.ok = t.step loc last
    cases t.step loc last <;> rfl
  | cons component rest ih =>
    show (t.step loc component).bind (t.walk · (rest ++ [last])) =
      ((t.step loc component).bind (t.walk · rest)).bind (t.step · last)
    cases t.step loc component with
    | error e => rfl
    | ok next => exact ih next

theorem step_eq_ok_iff {component : String} :
    t.step loc component = .ok place ↔
      t.node? loc = some .directory ∧
        (component = ".." ∧ place = loc.parent ∨
          component ≠ ".." ∧ Path.isOverlongName component = false ∧
            place = loc.child component) := by
  unfold step
  split
  · next hnode =>
    by_cases hup : component = ".."
    · simp [hnode, hup, eq_comm (a := place)]
    · cases hlong : Path.isOverlongName component <;> simp [hnode, hup, eq_comm (a := place)]
  · next hnode => simp [hnode]
  · next hnode => simp [hnode]

/-- A tree in which the directories of `t` are directories still. -/
structure KeepsDirectories (t t' : Tree) : Prop where
  workingDirectory : t'.workingDirectory = t.workingDirectory
  directory : ∀ loc, t.node? loc = some .directory → t'.node? loc = some .directory

namespace KeepsDirectories

/-- A step that can be taken can still be taken, and ends where it did. -/
theorem step (h : t.KeepsDirectories t') {component : String}
    (hstep : t.step loc component = .ok place) : t'.step loc component = .ok place := by
  rw [step_eq_ok_iff] at hstep ⊢
  exact hstep.imp_left (h.directory loc)

theorem walk (h : t.KeepsDirectories t') {components : List String}
    (hwalk : t.walk loc components = .ok place) : t'.walk loc components = .ok place := by
  induction components generalizing loc with
  | nil => exact hwalk
  | cons component rest ih =>
    obtain ⟨next, hstep, hrest⟩ := bind_eq_ok_iff.mp hwalk
    exact bind_eq_ok_iff.mpr ⟨next, h.step hstep, ih hrest⟩

theorem locate (h : t.KeepsDirectories t') (hlocate : t.locate p = .ok loc) :
    t'.locate p = .ok loc := by
  obtain ⟨hlong, hwalk⟩ := locate_eq_ok_iff.mp hlocate
  refine locate_eq_ok_iff.mpr ⟨hlong, ?_⟩
  rw [start, h.workingDirectory]
  exact h.walk hwalk

end KeepsDirectories

theorem AddsDirectories.keepsDirectories (h : t.AddsDirectories t') : t.KeepsDirectories t' :=
  ⟨h.workingDirectory, fun loc => h.kept loc .directory⟩

theorem keepsDirectories_setNode (h : t.node? loc ≠ some .directory) (node : Node) :
    t.KeepsDirectories (t.setNode loc node) := by
  refine ⟨rfl, ?_⟩
  intro other hother
  have hne : other ≠ loc := by
    rintro rfl
    exact h hother
  rw [node?_setNode_of_ne hne, hother]

/-! ## Making directories -/

/-- The path leads to the location, or passes it on its way. -/
def PassedBy (t : Tree) (p : Path) (loc : Location) : Prop :=
  ∃ above, above <+: p.components ∧ t.walk (t.start p.anchor) above = .ok loc

theorem passedBy_of_locate (h : t.locate p = .ok loc) : t.PassedBy p loc :=
  ⟨p.components, List.prefix_rfl, (locate_eq_ok_iff.mp h).2⟩

/-- `t'` has the nodes of `t`, and otherwise only further directories that the path passes. -/
structure AddsDirectoriesOf (t : Tree) (p : Path) (t' : Tree) : Prop extends
    AddsDirectories t t' where
  passed : ∀ loc, t.node? loc = none → t'.node? loc ≠ none → t'.PassedBy p loc

namespace AddsDirectoriesOf

theorem refl (t : Tree) (p : Path) : t.AddsDirectoriesOf p t where
  toAddsDirectories := .refl t
  passed _ hnone hsome := absurd hnone hsome

/-- First those of a path above, then those of the path itself. -/
theorem trans {above : List String} (h : t.AddsDirectoriesOf ⟨p.anchor, above⟩ t')
    (habove : above <+: p.components) (h' : t'.AddsDirectoriesOf p t'') :
    t.AddsDirectoriesOf p t'' where
  toAddsDirectories := h.toAddsDirectories.trans h'.toAddsDirectories
  passed loc hnone hsome := by
    by_cases hmiddle : t'.node? loc = none
    · exact h'.passed loc hmiddle hsome
    · obtain ⟨way, hway, hwalk⟩ := h.passed loc hnone hmiddle
      refine ⟨way, hway.trans habove, ?_⟩
      rw [start, h'.workingDirectory]
      exact h'.keepsDirectories.walk hwalk

theorem setNode (hnone : t.node? loc = none)
    (hlocate : (t.setNode loc .directory).locate p = .ok loc) :
    t.AddsDirectoriesOf p (t.setNode loc .directory) where
  toAddsDirectories := .setNode hnone
  passed other hother hsome := by
    by_cases heq : other = loc
    · rw [heq]
      exact passedBy_of_locate hlocate
    · rw [node?_setNode_of_ne heq] at hsome
      exact absurd hother hsome

end AddsDirectoriesOf

/-- What making a directory may do: add directories on its way, and on success have the path
lead to one. -/
structure Makes (t : Tree) (p : Path) (result : Tree × Except SystemError Location) : Prop where
  adds : t.AddsDirectoriesOf p result.1
  leads : ∀ loc, result.2 = .ok loc →
    result.1.locate p = .ok loc ∧ result.1.node? loc = some .directory

theorem makes_settle (t : Tree) (p : Path) (errno : Errno) : t.Makes p (t.settle p errno) := by
  unfold settle
  split
  · next loc hlocate =>
    split
    · next hnode =>
      refine ⟨.refl t p, ?_⟩
      rintro loc' ⟨⟩
      exact ⟨hlocate, hnode⟩
    · exact ⟨.refl t p, fun _ h => by cases h⟩
  · exact ⟨.refl t p, fun _ h => by cases h⟩

theorem Makes.of_setNode (hnone : t.node? loc = none)
    (hlocate : (t.setNode loc .directory).locate p = .ok loc) :
    t.Makes p (t.setNode loc .directory, .ok loc) := by
  refine ⟨.setNode hnone hlocate, ?_⟩
  rintro loc' ⟨⟩
  refine ⟨hlocate, node?_setNode_self ?_ _⟩
  rintro rfl
  rw [node?_root] at hnone
  cases hnone

theorem makes_of_makeDirectory (h : t.makeDirectory p = .ok (t', loc)) :
    t.Makes p (t', .ok loc) := by
  obtain ⟨place, hlocate, h⟩ := bind_eq_ok_iff.mp h
  split at h
  · cases h
  · next hnone =>
    cases h
    exact .of_setNode hnone ((AddsDirectories.setNode hnone).keepsDirectories.locate hlocate)

theorem not_isOverlong_of_makeDirectory (h : t.makeDirectory p = .error .notFound) :
    p.isOverlong = false := by
  by_contra hlong
  have hlocate : t.locate p = .error .nameTooLong := by
    rw [locate, if_pos (by simpa using hlong)]
  rw [makeDirectory, hlocate] at h
  cases h

/-- The same for the last directory of a path, where the one above it has been made. -/
theorem makes_of_makeDirectoryIn {anchor : Anchor} {above : List String} {last : String}
    {parent : Location} (hlong : Path.isOverlong ⟨anchor, above ++ [last]⟩ = false)
    (hparent : t.locate ⟨anchor, above⟩ = .ok parent)
    (h : t.makeDirectoryIn parent last = .ok (t', loc)) :
    t.Makes ⟨anchor, above ++ [last]⟩ (t', .ok loc) := by
  obtain ⟨place, hstep, h⟩ := bind_eq_ok_iff.mp h
  split at h
  · cases h
  · next hnone =>
    cases h
    have hkeeps := (AddsDirectories.setNode hnone).keepsDirectories
    refine .of_setNode hnone (locate_eq_ok_iff.mpr ⟨hlong, ?_⟩)
    obtain ⟨-, hwalk⟩ := locate_eq_ok_iff.mp (hkeeps.locate hparent)
    rw [walk_concat]
    exact bind_eq_ok_iff.mpr ⟨parent, hwalk, hkeeps.step hstep⟩

theorem Makes.after {result : Tree × Except SystemError Location} {above : List String}
    (h : t.AddsDirectoriesOf ⟨p.anchor, above⟩ t') (habove : above <+: p.components)
    (h' : t'.Makes p result) : t.Makes p result :=
  ⟨h.trans habove h'.adds, h'.leads⟩

theorem makes_makeDirectoriesUp (t : Tree) (anchor : Anchor) (components : List String) :
    t.Makes ⟨anchor, components.reverse⟩ (t.makeDirectoriesUp anchor components) := by
  induction components with
  | nil =>
    unfold makeDirectoriesUp
    simp only
    split
    · next h => exact makes_of_makeDirectory h
    · exact makes_settle t _ _
  | cons last above ih =>
    unfold makeDirectoriesUp
    simp only
    split
    · next h => exact makes_of_makeDirectory h
    · next h =>
      have hlong := not_isOverlong_of_makeDirectory h
      rw [List.reverse_cons] at hlong ⊢
      have habove : above.reverse <+: above.reverse ++ [last] := List.prefix_append _ _
      split
      · next t' e hup =>
        rw [hup] at ih
        exact ⟨ih.adds.trans habove (.refl t' _), fun _ h => by cases h⟩
      · next t' parent hup =>
        rw [hup] at ih
        split
        · next hin =>
          exact .after ih.adds habove (makes_of_makeDirectoryIn hlong (ih.leads parent rfl).1 hin)
        · exact .after ih.adds habove (makes_settle t' _ _)
    · exact makes_settle t _ _

theorem makes_makeDirectories (t : Tree) (p : Path) : t.Makes p (t.makeDirectories p) := by
  have h := makes_makeDirectoriesUp t p.anchor p.components.reverse
  rwa [List.reverse_reverse] at h

/-! ## Setting the file -/

/-- `t'` is `t` with directories added, so that `dir` leads to one, and then `text` as the
content of the file that `fileName` designates there. -/
structure SetsFile (t : Tree) (dir : Path) (fileName text : String) (t' : Tree)
    (loc : Location) : Prop where
  exists_made : ∃ made place, t.AddsDirectoriesOf dir made ∧ made.locate dir = .ok place ∧
    made.locate (dir.join (Path.ofString fileName)) = .ok loc ∧
    made.node? loc ≠ some .directory ∧ t' = made.setNode loc (.file (.text text))

namespace SetsFile

variable {dir : Path} {fileName text : String}

theorem content?_self (h : t.SetsFile dir fileName text t' loc) :
    t'.content? loc = some (.text text) := by
  obtain ⟨made, place, -, -, -, hnode, rfl⟩ := h.exists_made
  apply content?_setNode_self
  rintro rfl
  exact hnode (node?_root made)

theorem content?_of_ne (h : t.SetsFile dir fileName text t' loc) {other : Location}
    (hne : other ≠ loc) : t'.content? other = t.content? other := by
  obtain ⟨made, place, hadds, -, -, -, rfl⟩ := h.exists_made
  rw [content?_congr (node?_setNode_of_ne hne _), hadds.sameFiles other]

/-- A plain name designates a file of the directory itself. -/
theorem exists_place (h : t.SetsFile dir fileName text t' loc)
    (hplain : Path.ofString fileName = ⟨.relative, [fileName]⟩) (hup : fileName ≠ "..") :
    ∃ place, t'.locate dir = .ok place ∧ loc = place.child fileName := by
  obtain ⟨made, place, -, hdir, hfile, hnode, rfl⟩ := h.exists_made
  refine ⟨place, (keepsDirectories_setNode hnode _).locate hdir, ?_⟩
  obtain ⟨-, hwalk⟩ := locate_eq_ok_iff.mp hdir
  rw [hplain] at hfile
  obtain ⟨-, hfile⟩ := locate_eq_ok_iff.mp hfile
  have hwalks : made.walk (made.start dir.anchor) (dir.components ++ [fileName]) = .ok loc := hfile
  rw [walk_concat, hwalk] at hwalks
  obtain ⟨-, ⟨rfl, -⟩ | ⟨-, -, hchild⟩⟩ := step_eq_ok_iff.mp hwalks
  · exact absurd rfl hup
  · exact hchild

end SetsFile

/-- What writing `text` to the file `fileName` in the directory `dir` may do. -/
inductive Writes (t : Tree) (dir : Path) (fileName text : String) :
    Tree × Except Failure Written → Prop
  /-- It is refused before the file is set. -/
  | refused {t' : Tree} {failure : Failure} :
    t.AddsDirectoriesOf dir t' → Writes t dir fileName text (t', .error failure)
  /-- The file is set and found again. -/
  | written {t' : Tree} {loc : Location} :
    t.SetsFile dir fileName text t' loc → Path.isOverlongText loc.text = false →
    Writes t dir fileName text (t', .ok {
      fileName := fileName
      path := loc.text
      lineCount := Text.countNewlines text
      byteCount := text.utf8ByteSize })
  /-- The file is set, but its absolute path is too long. -/
  | lost {t' : Tree} {loc : Location} :
    t.SetsFile dir fileName text t' loc → Path.isOverlongText loc.text = true →
    Writes t dir fileName text (t', .error (.system (.refused .nameTooLong loc.text)))

theorem writeText_eq_ok_iff {text : String} :
    t.writeText p text = .ok (t', loc) ↔
      t.locate p = .ok loc ∧ t.node? loc ≠ some .directory ∧
        t' = t.setNode loc (.file (.text text)) := by
  unfold writeText
  split
  · next hlocate => simp [hlocate]
  · next place hlocate =>
    rw [hlocate]
    split
    · next hnode =>
      constructor
      · intro h
        cases h
      · rintro ⟨⟨⟩, hfile, -⟩
        exact absurd hnode hfile
    · next hnode =>
      constructor
      · rintro ⟨⟩
        exact ⟨rfl, hnode, rfl⟩
      · rintro ⟨⟨⟩, -, rfl⟩
        rfl

theorem writes_writeSource (t : Tree) (dir : Path) (fileName text : String) :
    t.Writes dir fileName text (t.writeSource dir fileName text) := by
  have hmakes := makes_makeDirectories t dir
  unfold writeSource
  split
  · exact .refused (.refl t dir)
  · split
    · next t' e hmade =>
      rw [hmade] at hmakes
      exact .refused hmakes.adds
    · next t' place hmade =>
      rw [hmade] at hmakes
      simp only
      split
      · exact .refused hmakes.adds
      · split
        · exact .refused hmakes.adds
        · next t'' loc hwrite =>
          obtain ⟨hlocate, hnode, htree⟩ := writeText_eq_ok_iff.mp hwrite
          have hsets : t.SetsFile dir fileName text t'' loc :=
            ⟨t', place, hmakes.adds, (hmakes.leads place rfl).1, hlocate, hnode, htree⟩
          split
          · next hlong => exact .lost hsets hlong
          · next hlong => exact .written hsets (by simpa using hlong)

end Tree

end XdrCompiler
