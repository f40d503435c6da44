/-
# XdrCompiler.Proofs.OutputFile -- what a run does to the files

The main statement is `files_after_run`. A generating run that succeeds sets one
file, named in the output directory itself, to the whole source text of its
schema, and leaves every other file as it was. Every other run leaves all files
as they were, whatever stopped it, with one exception: a file whose absolute path
is too long to be looked up is written first and refused afterwards
(`refused_output_written`).
-/
import XdrCompiler.Command.Run
import XdrCompiler.Proofs.AcceptedNames
import XdrCompiler.Proofs.FileWriting
import XdrCompiler.Proofs.NameCharacters

namespace XdrCompiler

/-! ## Accepted file names -/

namespace Naming

theorem mem_chomp_or {cs : List Char} {c : Char} (h : c ∈ cs) : c ∈ chomp cs ∨ c = '\n' := by
  unfold chomp
  split
  · next hlast =>
    obtain ⟨init, rfl⟩ := List.getLast?_eq_some_iff.mp hlast
    simpa using h
  · exact Or.inl h

theorem mem_of_mem_chomp {cs : List Char} {c : Char} (h : c ∈ chomp cs) : c ∈ cs := by
  unfold chomp at h
  split at h
  · exact List.mem_of_mem_dropLast h
  · exact h

theorem of_mem_startsAndContinues {first other : Char → Bool} {cs : List Char} {c : Char}
    (h : startsAndContinues first other cs = true) (hc : c ∈ cs) :
    first c = true ∨ other c = true := by
  cases cs with
  | nil => exact absurd hc List.not_mem_nil
  | cons c' rest =>
    rw [startsAndContinues, Bool.and_eq_true] at h
    rcases List.mem_cons.mp hc with rfl | hc
    · exact Or.inl h.1
    · exact Or.inr (List.all_eq_true.mp h.2 c hc)

/-- The alphabet of accepted file names. -/
theorem char_of_isFileName {name : String} (h : isFileName name = true) {c : Char}
    (hc : c ∈ name.toList) : isIdentChar c = true ∨ c ∈ ['.', '-', '\n'] := by
  unfold isFileName at h
  split at h
  · next stem hstem =>
    rcases mem_chomp_or hc with hc | rfl
    · rw [stem?_eq_some_iff.mp hstem] at hc
      rcases List.mem_append.mp hc with hc | hc
      · rcases of_mem_startsAndContinues h hc with hfirst | hother
        · exact Or.inl hfirst
        · simp only [Bool.or_eq_true, beq_iff_eq] at hother
          rcases hother with (hident | rfl) | rfl
          · exact Or.inl hident
          · exact Or.inr (by decide)
          · exact Or.inr (by decide)
      · simp only [List.mem_cons, List.not_mem_nil, or_false] at hc
        rcases hc with rfl | rfl | rfl <;> decide
    · exact Or.inr (by decide)
  · cases h

/-- An accepted file name ends in `.rs`, but for a newline, and has no slash. -/
theorem chars_of_isFileName {name : String} (h : isFileName name = true) :
    's' ∈ name.toList ∧ '/' ∉ name.toList := by
  refine ⟨?_, fun hslash => absurd (char_of_isFileName h hslash) (by decide)⟩
  unfold isFileName at h
  split at h
  · next stem hstem => exact mem_of_mem_chomp (by simp [stem?_eq_some_iff.mp hstem])
  · cases h

end Naming

namespace Path

theorem cutSlashes_of_notMem {cs : List Char} (h : '/' ∉ cs) : cutSlashes cs = [cs] := by
  induction cs with
  | nil => rfl
  | cons c rest ih =>
    obtain ⟨hc, hrest⟩ := List.ne_and_not_mem_of_not_mem_cons h
    rw [cutSlashes, if_neg (Ne.symm hc), ih hrest]

theorem readAnchor_of_notMem {cs : List Char} (h : '/' ∉ cs) : readAnchor cs = .relative := by
  cases cs with
  | nil => rfl
  | cons c rest =>
    have hc : c ≠ '/' := Ne.symm (List.ne_of_not_mem_cons h)
    rw [readAnchor, List.takeWhile_cons_of_neg (by simpa using hc)]
    rfl

/-- A name is read as the path that consists of it. -/
theorem ofString_of_notMem {name : String} (hslash : '/' ∉ name.toList) (hempty : name ≠ "")
    (hdot : name ≠ ".") : ofString name = ⟨.relative, [name]⟩ := by
  have hempty' : name.toList ≠ [] := by simpa using hempty
  have hdot' : name.toList ≠ ['.'] := by
    intro h
    apply hdot
    rw [← String.ofList_toList (s := name), h]
  rw [ofString, readAnchor_of_notMem hslash, cutSlashes_of_notMem hslash]
  simp [hempty', hdot']

end Path

/-- A name that stands for a file of the directory it is looked up in. -/
structure PlainName (name : String) : Prop where
  no_slash : '/' ∉ name.toList
  ne_empty : name ≠ ""
  ne_dot : name ≠ "."
  ne_dots : name ≠ ".."

theorem plainName_of_isFileName {name : String} (h : Naming.isFileName name = true) :
    PlainName name := by
  obtain ⟨hs, hslash⟩ := Naming.chars_of_isFileName h
  refine ⟨hslash, ?_, ?_, ?_⟩
  all_goals
    rintro rfl
    exact absurd hs (by decide)

/-! ## Configurations -/

theorem isFileName_of_checkFileName {name fileName : String}
    (h : checkFileName name = .ok fileName) : Naming.isFileName fileName = true := by
  unfold checkFileName at h
  split at h
  · next haccepted =>
    cases h
    exact haccepted
  · cases h

/-- The configuration of a generating run has an accepted file name. -/
theorem isFileName_of_check {options : Options} {tree : Tree} {config : GenerateConfig}
    (h : options.check tree = .ok (.generate config)) :
    Naming.isFileName config.fileName = true := by
  unfold Options.check at h
  cases hfilter : options.hasFilter && !options.listTypes with
  | true =>
    simp only [hfilter, if_true] at h
    cases h
  | false =>
    simp only [hfilter, Bool.false_eq_true, if_false] at h
    obtain ⟨schema, -, h⟩ := bind_eq_ok_iff.mp h
    obtain ⟨roots, -, h⟩ := bind_eq_ok_iff.mp h
    obtain ⟨beginnings, -, h⟩ := bind_eq_ok_iff.mp h
    split at h
    · cases h
    · obtain ⟨fileName, hfileName, h⟩ := bind_eq_ok_iff.mp h
      obtain ⟨feature, -, h⟩ := bind_eq_ok_iff.mp h
      cases h
      obtain ⟨name, -, hchecked⟩ := bind_eq_ok_iff.mp hfileName
      exact isFileName_of_checkFileName hchecked

/-- The command line asks for a generating run with the given configuration. -/
def Generates (arguments : List String) (tree : Tree) (config : GenerateConfig) : Prop :=
  ∃ options, readArguments arguments = .ok (.run options) ∧
    options.check tree = .ok (.generate config)

theorem Generates.unique {arguments : List String} {tree : Tree} {config config' : GenerateConfig}
    (h : Generates arguments tree config) (h' : Generates arguments tree config') :
    config = config' := by
  obtain ⟨options, hread, hcheck⟩ := h
  obtain ⟨options', hread', hcheck'⟩ := h'
  cases hread.symm.trans hread'
  cases hcheck.symm.trans hcheck'
  rfl

/-! ## Runs -/

/-- The files of the two trees differ in the file at `target`, which holds the whole source
text of the configured schema, and in nothing else. -/
structure WroteOutput (config : GenerateConfig) (today : String) (tree tree' : Tree)
    (target : Location) : Prop where
  source : ∃ schema reach provenance text,
    tree.loadSchema config.schema config.boxedBeginnings = .ok schema ∧
    reachable schema.types config.roots = .ok reach ∧
    Provenance.make today config.schema.name config.feature = .ok provenance ∧
    assemble provenance schema reach.reached = .ok text ∧
    tree'.content? target = some (.text text)
  place : ∃ dir place, config.outputDir = some dir ∧ tree'.locate dir = .ok place ∧
    target = place.child config.fileName
  name : PlainName config.fileName
  others : ∀ loc, loc ≠ target → tree'.content? loc = tree.content? loc

theorem Tree.SetsFile.wroteOutput {config : GenerateConfig} {today : String} {tree tree' : Tree}
    {dir : Path} {target : Location} {schema : Schema} {reach : Reach} {source : String}
    (hschema : tree.loadSchema config.schema config.boxedBeginnings = .ok schema)
    (hreach : reachable schema.types config.roots = .ok reach)
    (hsource : generatedSource config today schema reach.reached = .ok source)
    (hdir : config.outputDir = some dir) (hname : PlainName config.fileName)
    (h : tree.SetsFile dir config.fileName source tree' target) :
    WroteOutput config today tree tree' target := by
  obtain ⟨provenance, hprovenance, hassemble⟩ := bind_eq_ok_iff.mp hsource
  obtain ⟨place, hplace, htarget⟩ := h.exists_place
    (Path.ofString_of_notMem hname.no_slash hname.ne_empty hname.ne_dot) hname.ne_dots
  exact {
    source := ⟨schema, reach, provenance, source, hschema, hreach, hprovenance, hassemble,
      h.content?_self⟩
    place := ⟨dir, place, hdir, hplace, htarget⟩
    name := hname
    others := fun _ => h.content?_of_ne }

/-- What a generating run may do. -/
inductive GenerateEffect (config : GenerateConfig) (today : String) (tree : Tree) :
    Transcript → Prop
  | failed {printed : String} {tree' : Tree} {failure : Failure} :
    tree.SameFiles tree' → GenerateEffect config today tree ⟨printed, tree', some failure⟩
  | wrote {printed : String} {tree' : Tree} {target : Location} :
    WroteOutput config today tree tree' target → Path.isOverlongText target.text = false →
    GenerateEffect config today tree ⟨printed, tree', none⟩
  | lost {printed : String} {tree' : Tree} {target : Location} :
    WroteOutput config today tree tree' target → Path.isOverlongText target.text = true →
    GenerateEffect config today tree
      ⟨printed, tree', some (.system (.refused .nameTooLong target.text))⟩

theorem generateEffect_run {config : GenerateConfig} (hname : PlainName config.fileName)
    (today : String) (tree : Tree) :
    GenerateEffect config today tree (config.run today tree) := by
  have hsame : tree.SameFiles tree := fun _ => rfl
  unfold GenerateConfig.run
  simp only
  split
  · exact .failed hsame
  · next schema hschema =>
    split
    · exact .failed hsame
    · next reach hreach =>
      split
      · exact .failed hsame
      · next source hsource =>
        cases hdir : config.outputDir with
        | none =>
          simp only [writeOutput, hdir]
          exact .failed hsame
        | some dir =>
          simp only [writeOutput, hdir]
          have hwrites := tree.writes_writeSource dir config.fileName source
          generalize tree.writeSource dir config.fileName source = result at hwrites ⊢
          cases hwrites with
          | refused hadds => exact .failed hadds.sameFiles
          | written hsets hlong =>
            exact .wrote (hsets.wroteOutput hschema hreach hsource hdir hname) hlong
          | lost hsets hlong =>
            exact .lost (hsets.wroteOutput hschema hreach hsource hdir hname) hlong

theorem tree_outcome (t : Transcript) : t.outcome.tree = t.tree := by
  unfold Transcript.outcome
  split
  · rfl
  · split <;> rfl

theorem ending_outcome_eq_zero_iff (t : Transcript) :
    t.outcome.ending = .exit 0 ↔ t.failure = none := by
  unfold Transcript.outcome
  split
  · next h => simp [h]
  · next h =>
    rw [h]
    split <;> simp

theorem tree_discovery (config : DiscoveryConfig) (tree : Tree) :
    (config.run tree).tree = tree := by
  unfold DiscoveryConfig.run
  simp only
  split <;> rfl

/-- What a run of the command does to the files. -/
structure FilesAfter (arguments : List String) (today : String) (tree : Tree)
    (outcome : Outcome) : Prop where
  /-- A generating run that succeeds sets its output and nothing else. -/
  success : ∀ config, Generates arguments tree config → outcome.ending = .exit 0 →
    ∃ target, WroteOutput config today tree outcome.tree target ∧
      Path.isOverlongText target.text = false
  /-- Every other run leaves the files alone, unless the output is set and cannot be looked up. -/
  otherwise : (∀ config, Generates arguments tree config → outcome.ending ≠ .exit 0) →
    tree.SameFiles outcome.tree ∨
      outcome.ending = .exit 1 ∧ ∃ config target, Generates arguments tree config ∧
        WroteOutput config today tree outcome.tree target ∧
        Path.isOverlongText target.text = true

theorem FilesAfter.of_tree_eq {arguments : List String} {today : String} {tree : Tree}
    {outcome : Outcome} (hnot : ∀ config, ¬Generates arguments tree config)
    (h : outcome.tree = tree) : FilesAfter arguments today tree outcome where
  success config hgenerates := absurd hgenerates (hnot config)
  otherwise _ := Or.inl fun loc => by rw [h]

theorem FilesAfter.of_generateEffect {arguments : List String} {today : String} {tree : Tree}
    {config : GenerateConfig} {transcript : Transcript}
    (hgenerates : Generates arguments tree config)
    (h : GenerateEffect config today tree transcript) :
    FilesAfter arguments today tree transcript.outcome := by
  cases h with
  | @failed printed tree' failure hsame =>
    have htree := tree_outcome ⟨printed, tree', some failure⟩
    refine ⟨?_, ?_⟩
    · intro config' _ hzero
      cases (ending_outcome_eq_zero_iff _).mp hzero
    · intro _
      left
      rwa [htree]
  | wrote hwrote hlong =>
    refine ⟨?_, ?_⟩
    · intro config' hgenerates' _
      cases hgenerates.unique hgenerates'
      exact ⟨_, hwrote, hlong⟩
    · intro hfails
      exact absurd ((ending_outcome_eq_zero_iff _).mpr rfl) (hfails config hgenerates)
  | lost hwrote hlong =>
    refine ⟨?_, ?_⟩
    · intro config' _ hzero
      cases (ending_outcome_eq_zero_iff _).mp hzero
    · intro _
      exact Or.inr ⟨rfl, config, _, hgenerates, hwrote, hlong⟩

/-- Whatever the command line, the date and the files are. -/
theorem files_after_run (arguments : List String) (today : String) (tree : Tree) :
    FilesAfter arguments today tree (runCommand arguments today tree) := by
  unfold runCommand
  split
  · next hread =>
    refine .of_tree_eq ?_ rfl
    rintro config ⟨options, hrun, -⟩
    cases hread.symm.trans hrun
  · next hread =>
    refine .of_tree_eq ?_ rfl
    rintro config ⟨options, hrun, -⟩
    cases hread.symm.trans hrun
  · next options hread =>
    -- The command line is read once, so a generating run is one with these options.
    have hchecked : ∀ config, Generates arguments tree config →
        options.check tree = .ok (.generate config) := by
      rintro config ⟨options', hrun, hcheck⟩
      cases hread.symm.trans hrun
      exact hcheck
    split
    · next hcheck =>
      refine .of_tree_eq ?_ (tree_outcome _)
      intro config hgenerates
      cases hcheck.symm.trans (hchecked config hgenerates)
    · next hcheck =>
      refine .of_tree_eq ?_ rfl
      intro config hgenerates
      cases hcheck.symm.trans (hchecked config hgenerates)
    · next config hcheck =>
      cases config with
      | discovery config =>
        refine .of_tree_eq ?_ ((tree_outcome _).trans (tree_discovery config tree))
        intro config' hgenerates
        cases hcheck.symm.trans (hchecked config' hgenerates)
      | generate config =>
        have hname := plainName_of_isFileName (isFileName_of_check hcheck)
        exact .of_generateEffect ⟨options, hread, hcheck⟩ (generateEffect_run hname today tree)

/-! ## A path that is too long -/

/-- A directory whose text has 4090 bytes. -/
def deepDirectory : Location :=
  .ofNames (List.replicate 16 (String.ofList (List.replicate 254 'a')) ++ ["bbbbbbbbb"])

/-- A schema module in that directory. Its own path is just short enough. -/
def deepTree : Tree where
  workingDirectory := deepDirectory
  nodes := Table.ofList
    [(deepDirectory, .directory),
      (deepDirectory.child "s.py", .file (.schema (.defining [.typeAlias "N" .int])))]

/-- A generating run in that directory. -/
def deepRun : Outcome := runCommand ["--schema", "s.py", "--root", "N"] "2024-02-29" deepTree

/-- Where its output goes. -/
def deepTarget : Location := (deepDirectory.child "generated").child "xdr.rs"

theorem refused_output_written :
    deepRun.ending = .exit 1 ∧ (deepTree.content? deepTarget).isNone = true ∧
      (deepRun.tree.content? deepTarget).isSome = true := by
  decide +kernel

end XdrCompiler
