/-
# XdrCompiler.Proofs.RepeatedWrites -- what a sequence of writes leaves behind

A write that succeeds leaves its text in the file that it designates and every
other file as it was, and says where the file is, how many lines it has and how
many bytes. A write that is refused leaves all files as they were; it may have made
directories, but only such as its own directory's path passes. So after any sequence
of writes a file holds the text of the last write to it, and if there was none, what
it held before (`writes_framed`).

There is one exception. The file is looked up once more after it has been written,
and where its absolute path is too long for that the write is refused although the
file has been set (`refused_write_stored`).
-/
import XdrCompiler.Proofs.FileWriting
import XdrCompiler.Proofs.OutputFile

namespace XdrCompiler

/-- A text that is to be written to a file in a directory. -/
structure WriteRequest where
  dir : Path
  fileName : String
  text : String

namespace WriteRequest

/-- The path of the file. -/
def target (w : WriteRequest) : Path := w.dir.join (Path.ofString w.fileName)

/-- Writes the text. -/
def carryOut (w : WriteRequest) (t : Tree) : Tree × Except Failure Written :=
  t.writeSource w.dir w.fileName w.text

/-- The files after the write. -/
def tree (w : WriteRequest) (t : Tree) : Tree := (w.carryOut t).1

end WriteRequest

/-- The files after writes that are carried out one after the other. -/
def Tree.afterWrites (t : Tree) (writes : List WriteRequest) : Tree :=
  writes.foldl (fun t w => w.tree t) t

/-! ## One write -/

/-- The file that is to be written holds the text, and every other file is as it was. -/
structure StoredAt (t : Tree) (w : WriteRequest) (t' : Tree) (loc : Location) : Prop where
  place : t'.locate w.target = .ok loc
  content : t'.content? loc = some (.text w.text)
  others : ∀ other, other ≠ loc → t'.content? other = t.content? other

/-- What is said about the written file: its name as it was given, where it is, its lines and
its bytes. -/
structure Reports (w : WriteRequest) (loc : Location) (report : Written) : Prop where
  fileName : report.fileName = w.fileName
  path : report.path = loc.text
  lineCount : report.lineCount = w.text.toList.count '\n'
  byteCount : report.byteCount = w.text.toList.utf8Encode.size

/-- The files are as they were, and what is new is directories that the path passes. -/
structure LeftAlone (t : Tree) (dir : Path) (t' : Tree) : Prop where
  files : t.SameFiles t'
  directories : ∀ loc node, t.node? loc = none → t'.node? loc = some node →
    node = .directory ∧ t'.PassedBy dir loc

/-- What a write may do. -/
inductive Framed (t : Tree) (w : WriteRequest) : Tree × Except Failure Written → Prop
  | written {t' : Tree} {loc : Location} {report : Written} : StoredAt t w t' loc →
    Reports w loc report → Framed t w (t', .ok report)
  | refused {t' : Tree} {failure : Failure} : LeftAlone t w.dir t' →
    Framed t w (t', .error failure)
  /-- It is refused after the file has been set. -/
  | lost {t' : Tree} {loc : Location} : StoredAt t w t' loc →
    Path.isOverlongText loc.text = true →
    Framed t w (t', .error (.system (.refused .nameTooLong loc.text)))

theorem Tree.SetsFile.storedAt {t t' : Tree} {w : WriteRequest} {loc : Location}
    (h : t.SetsFile w.dir w.fileName w.text t' loc) : StoredAt t w t' loc where
  place := by
    obtain ⟨made, place, -, -, hlocate, hnode, rfl⟩ := h.exists_made
    exact (Tree.keepsDirectories_setNode hnode _).locate hlocate
  content := h.content?_self
  others _ := h.content?_of_ne

theorem Tree.AddsDirectoriesOf.leftAlone {t t' : Tree} {dir : Path}
    (h : t.AddsDirectoriesOf dir t') : LeftAlone t dir t' where
  files := h.sameFiles
  directories loc node hnone hsome :=
    ⟨h.added loc node hnone hsome, h.passed loc hnone (by simp [hsome])⟩

theorem framed_carryOut (t : Tree) (w : WriteRequest) : Framed t w (w.carryOut t) := by
  have hwrites := t.writes_writeSource w.dir w.fileName w.text
  unfold WriteRequest.carryOut
  generalize t.writeSource w.dir w.fileName w.text = result at hwrites ⊢
  cases hwrites with
  | refused hadds => exact .refused hadds.leftAlone
  | written hsets _ =>
    refine .written hsets.storedAt ⟨rfl, rfl, rfl, ?_⟩
    rw [String.utf8Encode_toList, String.size_toByteArray]
  | lost hsets hlong => exact .lost hsets.storedAt hlong

/-! ## Sequences of writes -/

/-- Carried out on `t`, the write sets the file at a location. -/
def Stores (t : Tree) (w : WriteRequest) (loc : Location) : Prop := StoredAt t w (w.tree t) loc

/-- A write that does not set a file leaves it as it was. -/
theorem content?_tree {t : Tree} {w : WriteRequest} {loc : Location} (h : ¬Stores t w loc) :
    (w.tree t).content? loc = t.content? loc := by
  have hframed := framed_carryOut t w
  unfold Stores at h
  unfold WriteRequest.tree at h ⊢
  generalize w.carryOut t = result at hframed h ⊢
  cases hframed with
  | refused halone => exact halone.files loc
  | written hstored _ => exact hstored.others loc fun heq => h (heq ▸ hstored)
  | lost hstored _ => exact hstored.others loc fun heq => h (heq ▸ hstored)

/-- No write of the sequence sets the file at a location. -/
def NeverStores (t : Tree) (writes : List WriteRequest) (loc : Location) : Prop :=
  ∀ before w after, writes = before ++ w :: after → ¬Stores (t.afterWrites before) w loc

theorem content?_afterWrites {t : Tree} {writes : List WriteRequest} {loc : Location}
    (h : NeverStores t writes loc) : (t.afterWrites writes).content? loc = t.content? loc := by
  induction writes generalizing t with
  | nil => rfl
  | cons w rest ih =>
    have hfirst : ¬Stores t w loc := h [] w rest rfl
    have hrest : NeverStores (w.tree t) rest loc := by
      rintro before w' after rfl
      exact h (w :: before) w' after rfl
    show ((w.tree t).afterWrites rest).content? loc = t.content? loc
    rw [ih hrest, content?_tree hfirst]

theorem afterWrites_append (t : Tree) (before after : List WriteRequest) :
    t.afterWrites (before ++ after) = (t.afterWrites before).afterWrites after :=
  List.foldl_append

/-- What a sequence of writes does to the files. -/
structure FramedWrites (t : Tree) (writes : List WriteRequest) : Prop where
  each : ∀ before w after, writes = before ++ w :: after →
    Framed (t.afterWrites before) w (w.carryOut (t.afterWrites before))
  unset : ∀ loc, NeverStores t writes loc → (t.afterWrites writes).content? loc = t.content? loc
  last : ∀ before w after loc, writes = before ++ w :: after →
    Stores (t.afterWrites before) w loc → NeverStores (w.tree (t.afterWrites before)) after loc →
    (t.afterWrites writes).content? loc = some (.text w.text)

/-- Whatever the files are and whatever is written. -/
theorem writes_framed (t : Tree) (writes : List WriteRequest) : FramedWrites t writes where
  each before w _ _ := framed_carryOut (t.afterWrites before) w
  unset _ := content?_afterWrites
  last before w after loc hwrites hstores hafter := by
    have hrest := content?_afterWrites hafter
    rw [hwrites, afterWrites_append]
    show ((w.tree (t.afterWrites before)).afterWrites after).content? loc = _
    rw [hrest, hstores.content]

-- The directories `d`, `d/e` and `d/f` are made, and the file is in the last of them.
example :
    (WriteRequest.carryOut ⟨Path.ofString "d/e/../f", "c.rs", "one\ntwo"⟩
      ⟨.ofNames ["work"], Table.ofList [(.ofNames ["work"], .directory)]⟩).2 =
        .ok ⟨"c.rs", "/work/d/f/c.rs", 1, 7⟩ := by
  decide +kernel

/-! ## A path that is too long -/

/-- A write to the directory whose files have a path that is just too long. -/
def deepWrite : WriteRequest := ⟨Path.ofString "generated", "xdr.rs", "one\n"⟩

/-- The write is refused, and there is a new file. -/
theorem refused_write_stored :
    (deepWrite.carryOut deepTree).2.toBool = false ∧
      (deepTree.content? deepTarget).isNone = true ∧
      ((deepWrite.tree deepTree).content? deepTarget).isSome = true := by
  decide +kernel

end XdrCompiler
