/-
# XdrCompiler.Proofs.ReportedFailures -- failures that the user is told of

The command is meant to end with status 0, or with status 1 and a message that says
what stopped it. For a well-typed schema module it does so, with exceptions that all
lie in the command line: an operand that was dropped, or a path of the schema that is
too long to be looked up. Both are met while the options are checked, or when the
output directory turns out to be missing, and there is nothing to catch them
(`Options.slips`). Whatever else goes wrong is reported (`failures_reported`), and
nothing that the schema module does can make the command fall over.

Messages about an internal error are for declarations that stand where a name should.
A schema module that has none does not cause any; the one way left to get such a
message is an output directory that no path can name.
-/
import XdrCompiler.Command.Run
import XdrCompiler.Proofs.FailureKinds
import XdrCompiler.Proofs.LeastClosure
import XdrCompiler.Proofs.OutputFile

namespace XdrCompiler

/-! ## The stages of a run -/

namespace Config

def schema : Config → Path
  | .generate c => c.schema
  | .discovery c => c.schema

def roots : Config → List String
  | .generate c => c.roots
  | .discovery c => c.roots

def boxedBeginnings : Config → List String
  | .generate c => c.boxedBeginnings
  | .discovery c => c.boxedBeginnings

/-- The stages of a run, up to the first that fails. A listing run ends with the search. -/
def stages (config : Config) (today : String) (tree : Tree) : Except Failure Unit :=
  (tree.loadSchema config.schema config.boxedBeginnings).bind fun schema =>
    (reachable schema.types config.roots).bind fun reach =>
      match config with
      | .discovery _ => .ok ()
      | .generate c =>
        (generatedSource c today schema reach.reached).bind fun source =>
          (writeOutput c tree source).2.map fun _ => ()

/-- A run has failed exactly if one of its stages has, and then for the same reason. -/
theorem failure_run (config : Config) (today : String) (tree : Tree) :
    (config.run today tree).failure =
      match config.stages today tree with
      | .ok () => none
      | .error failure => some failure := by
  cases config with
  | discovery c =>
    simp only [stages, run, DiscoveryConfig.run, schema, boxedBeginnings, roots]
    cases tree.loadSchema c.schema c.boxedBeginnings with
    | error failure => rfl
    | ok s =>
      simp only [Except.bind, bind]
      cases reachable s.types c.roots with
      | error failure => rfl
      | ok reach => rfl
  | generate c =>
    simp only [stages, run, GenerateConfig.run, schema, boxedBeginnings, roots]
    cases tree.loadSchema c.schema c.boxedBeginnings with
    | error failure => rfl
    | ok s =>
      simp only [Except.bind]
      cases reachable s.types c.roots with
      | error failure => rfl
      | ok reach =>
        simp only
        cases generatedSource c today s reach.reached with
        | error failure => rfl
        | ok source =>
          simp only
          cases writeOutput c tree source with
          | mk tree' written => cases written <;> rfl

end Config

/-! ## Checking the options -/

namespace Options

/-- The path that the options give for the schema module. -/
def schemaPath? (o : Options) : Option Path :=
  match o.schema with
  | some (.text s) => some (Path.ofString s)
  | _ => none

/-- The operands that a run looks at and cannot do without. -/
def operands (o : Options) : List Operand :=
  o.schema.toList ++ o.roots ++ o.boxedBeginnings ++
    if o.listTypes then [] else [o.fileName, o.feature, o.outputDir]

/-- Whether an operand was dropped, or the path of the schema cannot be looked up. -/
def slips (o : Options) (tree : Tree) : Bool :=
  o.operands.contains .dropped || o.schemaPath?.any fun p => !(tree.contains p).toBool

/-- Whether no path can name the output directory. -/
def outputHasNul (o : Options) : Bool :=
  match o.outputDir with
  | .text s => (Path.ofString s).hasNul
  | .dropped => false

end Options

def Failure.IsConfig (failure : Failure) : Prop := ∃ e, failure = .config e

theorem Operand.exists_eq_text {operand : Operand} (h : operand ≠ .dropped) :
    ∃ s, operand = .text s := by
  cases operand with
  | text s => exact ⟨s, rfl⟩
  | dropped => exact absurd rfl h

theorem Operand.ends_get {operand : Operand} (h : operand ≠ .dropped) :
    Ends Failure.IsConfig (fun _ => True) operand.get := by
  obtain ⟨s, rfl⟩ := exists_eq_text h
  exact .ok trivial

/-- A name is returned if it is accepted, and refused by a configuration error if not. -/
theorem ends_accepted (accepts : String → Bool) (name : String) (e : ConfigError) :
    Ends Failure.IsConfig (fun n => accepts n = true)
      (if accepts name then .ok name else .error (.config e)) := by
  split
  · next haccepted => exact .ok haccepted
  · exact .error ⟨e, rfl⟩

theorem ends_checkTypeNames {operands : List Operand} (h : .dropped ∉ operands) :
    Ends Failure.IsConfig (fun _ => True) (checkTypeNames operands) := by
  induction operands with
  | nil => exact .ok trivial
  | cons operand rest ih =>
    rw [List.mem_cons, not_or] at h
    exact (Operand.ends_get (Ne.symm h.1)).bind fun name _ =>
      (ends_accepted Naming.isTypeName name _).bind fun _ _ =>
        (ih h.2).bind fun _ _ => .ok trivial

theorem ends_namesOr (defaults : List String) {operands : List Operand}
    (h : .dropped ∉ operands) :
    Ends Failure.IsConfig (fun _ => True) (namesOr defaults operands) := by
  unfold namesOr
  split
  · exact .ok trivial
  · exact (ends_checkTypeNames h).map fun _ _ => trivial

/-- A configuration as the options give it. -/
structure Config.ReadFrom (o : Options) (config : Config) : Prop where
  schema : o.schemaPath? = some config.schema
  output : ∀ c, config = .generate c →
    (∃ s, o.outputDir = .text s ∧ c.outputDir = some (Path.ofString s)) ∧
      Naming.isFileName c.fileName = true

namespace Options

variable {o : Options} {tree : Tree}

theorem dropped_notMem (h : o.slips tree = false) : .dropped ∉ o.operands := by
  rw [slips, Bool.or_eq_false_iff] at h
  simpa using h.1

theorem exists_contains (h : o.slips tree = false) {p : Path} (hp : o.schemaPath? = some p) :
    ∃ found, tree.contains p = .ok found := by
  rw [slips, Bool.or_eq_false_iff, hp, Option.any_some, Bool.not_eq_false'] at h
  exact exists_eq_ok_of_toBool h.2

theorem ends_checkSchema (h : o.slips tree = false) :
    Ends Failure.IsConfig (fun p => o.schemaPath? = some p) (o.checkSchema tree) := by
  have hdropped := dropped_notMem h
  unfold checkSchema
  split
  · exact .error ⟨_, rfl⟩
  · next hschema => exact absurd (by simp [operands, hschema]) hdropped
  · next s hschema =>
    have hpath : o.schemaPath? = some (Path.ofString s) := by rw [schemaPath?, hschema]
    obtain ⟨found, hfound⟩ := exists_contains h hpath
    simp only [checkPath, hfound]
    cases found with
    | true => exact .ok hpath
    | false => exact .error ⟨_, rfl⟩

theorem ends_check (h : o.slips tree = false) :
    Ends Failure.IsConfig (Config.ReadFrom o) (o.check tree) := by
  have hdropped := dropped_notMem h
  rw [operands, List.mem_append, List.mem_append, List.mem_append, not_or, not_or, not_or]
    at hdropped
  obtain ⟨⟨⟨-, hroots⟩, hbeginnings⟩, hgenerating⟩ := hdropped
  unfold check
  cases hfilter : o.hasFilter && !o.listTypes with
  | true => exact .error ⟨_, rfl⟩
  | false =>
    simp only [Bool.false_eq_true, if_false]
    refine (ends_checkSchema h).bind fun schema hschema => ?_
    refine (ends_namesOr defaultRoots hroots).bind fun roots _ => ?_
    refine (ends_namesOr defaultBoxedBeginnings hbeginnings).bind fun beginnings _ => ?_
    split
    · exact .ok ⟨hschema, fun c hc => nomatch hc⟩
    · next hlist =>
      rw [if_neg hlist] at hgenerating
      simp only [List.mem_cons, List.not_mem_nil, or_false, not_or] at hgenerating
      obtain ⟨hfileName, hfeature, houtputDir⟩ := hgenerating
      have hname := (Operand.ends_get (Ne.symm hfileName)).bind fun name _ =>
        ends_accepted Naming.isFileName name (.fileName name)
      have hgate := (Operand.ends_get (Ne.symm hfeature)).bind fun name _ =>
        ends_accepted Naming.isFeatureName name (.featureName name)
      refine hname.bind fun fileName haccepted => hgate.bind fun feature _ => .ok ⟨hschema, ?_⟩
      intro c hc
      cases hc
      obtain ⟨s, hs⟩ := Operand.exists_eq_text (Ne.symm houtputDir)
      exact ⟨⟨s, hs, by rw [hs]⟩, haccepted⟩

end Options

/-! ## Loading and writing -/

/-- Whether a schema module raises nothing itself and registers well-typed things. -/
def SchemaModule.genuine (bundles : Bool) : SchemaModule → Bool
  | .defining registrations => registrations.all (Registration.genuine bundles)
  | .withoutDefinition => true
  | .failing _ => false

/-- The schema module that the options designate. -/
def Options.schemaModule? (o : Options) (tree : Tree) : Option SchemaModule :=
  o.schemaPath?.bind fun p =>
    match tree.nodeAt p with
    | some (.file (.schema m)) => some m
    | _ => none

/-- The failures that a message is for. With `internal`, this includes internal errors. -/
def Failure.Expected (internal : Bool) : Failure → Prop
  | .config _ => True
  | .schema _ => True
  | .system _ => True
  | .internal _ => internal = true
  | .defect _ => False

namespace Failure

variable {internal : Bool} {failure : Failure}

theorem OfTypes.expected (h : failure.OfTypes internal) : failure.Expected internal := by
  cases failure with
  | schema e => trivial
  | internal e =>
    cases e with
    | unnamed kind name => exact h
    | _ => exact h.elim
  | _ => exact h.elim

theorem IsConfig.expected (h : failure.IsConfig) : failure.Expected internal := by
  obtain ⟨e, rfl⟩ := h
  trivial

/-- An expected failure has a message. -/
theorem Expected.exists_report? (h : failure.Expected internal) :
    ∃ report, failure.report? = some report := by
  cases failure with
  | config e =>
    simp only [report?]
    split <;> exact ⟨_, rfl⟩
  | defect d => exact h.elim
  | _ => exact ⟨_, rfl⟩

end Failure

variable {internal : Bool}

theorem ends_loadModule {o : Options} {tree : Tree} {p : Path} (hp : o.schemaPath? = some p)
    (h : (o.schemaModule? tree).all (SchemaModule.genuine internal) = true) :
    Ends (Failure.Expected internal) (fun registrations => ∀ r ∈ registrations,
      r.genuine internal = true) (tree.loadModule p) := by
  unfold Tree.loadModule
  split
  · exact .error trivial
  · split
    · exact .error trivial
    · split
      · exact .error trivial
      · exact .error trivial
      · exact .error trivial
      · next m hnode =>
        have hm : m.genuine internal = true := by
          simpa [Options.schemaModule?, hp, hnode] using h
        cases m with
        | defining registrations => exact .ok (List.all_eq_true.mp hm)
        | withoutDefinition => exact .error trivial
        | failing failure => cases hm

theorem Path.hasNul_join {dir : Path} (hdir : dir.hasNul = false) {name : String}
    (hname : Naming.isFileName name = true) : (dir.join (ofString name)).hasNul = false := by
  have hplain := plainName_of_isFileName hname
  have hnul : '\x00' ∉ name.toList := fun h =>
    absurd (Naming.char_of_isFileName hname h) (by decide)
  rw [ofString_of_notMem hplain.no_slash hplain.ne_empty hplain.ne_dot, join, if_pos rfl]
  simpa [hasNul, hnul] using hdir

/-- Writing is refused by the file system, unless the directory has no name to begin with. -/
theorem ends_writeSource (tree : Tree) {dir : Path} (text : String) {fileName : String}
    (hname : Naming.isFileName fileName = true) (hdir : internal = false → dir.hasNul = false) :
    Ends (Failure.Expected internal) (fun _ => True) (tree.writeSource dir fileName text).2 := by
  unfold Tree.writeSource
  cases hnul : dir.hasNul with
  | true =>
    cases internal with
    | true => exact .error rfl
    | false => exact absurd (hdir rfl) (by simp [hnul])
  | false =>
    -- An accepted file name adds no such character, so the second test is passed, too.
    simp only [Bool.false_eq_true, if_false, Path.hasNul_join hnul hname]
    split
    · exact .error trivial
    · split
      · exact .error trivial
      · split
        · exact .error trivial
        · exact .ok trivial

theorem ends_generatedSource (config : GenerateConfig) {today : String}
    (hdate : internal = false → today ≠ "") {schema : Schema} (h : schema.Genuine internal)
    (main : NameSet) :
    Ends (Failure.Expected internal) (fun _ => True)
      (generatedSource config today schema main) := by
  unfold generatedSource Provenance.make
  by_cases htoday : today = ""
  · rw [if_pos htoday]
    cases internal with
    | true => exact .error rfl
    | false => exact absurd htoday (hdate rfl)
  · rw [if_neg htoday]
    exact (ends_assemble htoday h main).imp_error fun _ => Failure.OfTypes.expected

theorem ends_reachable (types : Table String XdrType) (roots : List String) :
    Ends (Failure.Expected internal) (fun _ => True) (reachable types roots) := by
  cases hreach : reachable types roots with
  | ok reach => exact .ok trivial
  | error failure =>
    obtain ⟨n, rfl, -⟩ := reachable_error hreach
    exact .error trivial

/-! ## All stages -/

/-- The conditions under which no stage of a run is to blame for an internal error. -/
structure Options.Clean (o : Options) (today : String) : Prop where
  date : today ≠ ""
  output : o.outputHasNul = false

theorem Config.ends_stages {o : Options} {config : Config} (hconfig : config.ReadFrom o)
    {tree : Tree} {today : String}
    (h : (o.schemaModule? tree).all (SchemaModule.genuine internal) = true)
    (hclean : internal = false → o.Clean today) :
    Ends (Failure.Expected internal) (fun _ => True) (config.stages today tree) := by
  have hloaded : Ends (Failure.Expected internal) (Schema.Genuine internal)
      (tree.loadSchema config.schema config.boxedBeginnings) :=
    (ends_loadModule hconfig.schema h).bind fun registrations hall =>
      (ends_ofRegistrations _ hall).imp_error fun _ => Failure.OfTypes.expected
  refine hloaded.bind fun schema hschema => ?_
  refine (ends_reachable schema.types config.roots).bind fun reach _ => ?_
  cases config with
  | discovery c => exact .ok trivial
  | generate c =>
    obtain ⟨⟨s, hs, hdir⟩, hname⟩ := hconfig.output c rfl
    have hwritten : ∀ source, Ends (Failure.Expected internal) (fun _ => True)
        (writeOutput c tree source).2 := by
      intro source
      simp only [writeOutput, hdir]
      refine ends_writeSource tree source hname fun hinternal => ?_
      simpa [Options.outputHasNul, hs] using (hclean hinternal).output
    refine (ends_generatedSource c (fun hinternal => (hclean hinternal).date) hschema
      reach.reached).bind fun source _ => ?_
    exact (hwritten source).map fun _ _ => trivial

/-! ## The command -/

/-- The options of a command line that asks for a run. -/
def optionsOf? (arguments : List String) : Option Options :=
  match readArguments arguments with
  | .ok (.run o) => some o
  | _ => none

/-- The schema module that a command line designates. -/
def schemaModuleOf? (arguments : List String) (tree : Tree) : Option SchemaModule :=
  (optionsOf? arguments).bind fun o => o.schemaModule? tree

/-- Whether the command line drops an operand, or names a schema that cannot be looked up. -/
def commandSlips (arguments : List String) (tree : Tree) : Bool :=
  (optionsOf? arguments).any fun o => o.slips tree

/-- The stages of the command, from the check of its options on. -/
def commandStages (arguments : List String) (today : String) (tree : Tree) :
    Except Failure Unit :=
  match optionsOf? arguments with
  | none => .ok ()
  | some o => (o.check tree).bind fun config => config.stages today tree

/-- How a command ends whose failures are reported: with status 0 after the last stage, or with
status 1 and the message of the failure that stopped it. -/
inductive Reported (stages : Except Failure Unit) (outcome : Outcome) : Prop
  | succeeded : stages = .ok () → outcome.ending = .exit 0 → Reported stages outcome
  | failed {failure : Failure} {before report : String} : stages = .error failure →
      failure.report? = some report → outcome.ending = .exit 1 →
      outcome.printed = before ++ report → Reported stages outcome

theorem Reported.exit_one_iff {stages : Except Failure Unit} {outcome : Outcome}
    (h : Reported stages outcome) :
    outcome.ending = .exit 1 ↔ ∃ failure, stages = .error failure := by
  cases h with
  | succeeded hstages hending => simp [hstages, hending]
  | failed hstages _ hending _ => simp [hstages, hending]

theorem Transcript.outcome_of_eq_some {t : Transcript} {failure : Failure} {report : String}
    (h : t.failure = some failure) (hreport : failure.report? = some report) :
    t.outcome = ⟨.exit 1, t.printed ++ report, none, t.tree⟩ := by
  simp only [outcome, h, hreport]

/-- The stages of a run that the check of the options lets through. -/
theorem reported_run {config : Config} {today : String} {tree : Tree}
    (h : Ends (Failure.Expected internal) (fun _ => True) (config.stages today tree)) :
    Reported (config.stages today tree) (config.run today tree).outcome := by
  have hfailure := config.failure_run today tree
  cases hstages : config.stages today tree with
  | ok done =>
    rw [hstages] at hfailure
    exact .succeeded rfl ((ending_outcome_eq_zero_iff _).mpr hfailure)
  | error failure =>
    rw [hstages] at hfailure
    obtain ⟨report, hreport⟩ := (h.of_error hstages).exists_report?
    have houtcome := Transcript.outcome_of_eq_some hfailure hreport
    exact .failed rfl hreport (by rw [houtcome]) (by rw [houtcome])

theorem ends_commandStages {arguments : List String} (today : String) {tree : Tree}
    (hslips : commandSlips arguments tree = false)
    (hmodule : (schemaModuleOf? arguments tree).all (SchemaModule.genuine internal) = true)
    (hclean : internal = false → ∀ o, optionsOf? arguments = some o → o.Clean today) :
    Ends (Failure.Expected internal) (fun _ => True) (commandStages arguments today tree) := by
  unfold commandStages
  cases hoptions : optionsOf? arguments with
  | none => exact .ok trivial
  | some o =>
    rw [commandSlips, hoptions, Option.any_some] at hslips
    rw [schemaModuleOf?, hoptions, Option.bind_some] at hmodule
    have hcheck : Ends (Failure.Expected internal) (Config.ReadFrom o) (o.check tree) :=
      (o.ends_check hslips).imp_error fun _ => Failure.IsConfig.expected
    exact hcheck.bind fun config hconfig =>
      config.ends_stages hconfig hmodule fun hinternal => hclean hinternal o hoptions

theorem readArguments_of_optionsOf? {arguments : List String} {o : Options}
    (h : optionsOf? arguments = some o) : readArguments arguments = .ok (.run o) := by
  unfold optionsOf? at h
  split at h
  · next hread =>
    cases h
    exact hread
  · cases h

theorem commandStages_of_optionsOf? {arguments : List String} {o : Options}
    (h : optionsOf? arguments = some o) (today : String) (tree : Tree) :
    commandStages arguments today tree =
      (o.check tree).bind fun config => config.stages today tree := by
  simp only [commandStages, h]

/-- A command line that asks for no run is one for help. -/
theorem ending_of_help {arguments : List String} (h : optionsOf? arguments = none)
    (haccepted : (readArguments arguments).toBool = true) (today : String) (tree : Tree) :
    (runCommand arguments today tree).ending = .exit 0 := by
  unfold optionsOf? at h
  unfold runCommand
  cases hread : readArguments arguments with
  | error e =>
    rw [hread] at haccepted
    cases haccepted
  | ok request =>
    cases request with
    | help => rfl
    | run o =>
      rw [hread] at h
      cases h

theorem reported_runCommand {arguments : List String} (today : String) {tree : Tree}
    (haccepted : (readArguments arguments).toBool = true)
    (hmodule : (schemaModuleOf? arguments tree).all (SchemaModule.genuine true) = true)
    (hslips : commandSlips arguments tree = false) :
    Reported (commandStages arguments today tree) (runCommand arguments today tree) := by
  have hends := ends_commandStages today hslips hmodule fun hinternal => nomatch hinternal
  cases hoptions : optionsOf? arguments with
  | none =>
    have hstages : commandStages arguments today tree = .ok () := by rw [commandStages, hoptions]
    exact .succeeded hstages (ending_of_help hoptions haccepted today tree)
  | some o =>
    rw [commandSlips, hoptions, Option.any_some] at hslips
    have hread := readArguments_of_optionsOf? hoptions
    rw [commandStages_of_optionsOf? hoptions] at hends ⊢
    cases hcheck : o.check tree with
    | error failure =>
      -- Only a configuration error is caught at this point, and there is no other.
      obtain ⟨e, rfl⟩ := (o.ends_check hslips).of_error hcheck
      rw [hcheck] at hends
      obtain ⟨report, hreport⟩ := (hends.of_error rfl).exists_report?
      have houtcome : runCommand arguments today tree = ⟨.exit 1, "" ++ report, none, tree⟩ := by
        simp only [runCommand, hread, hcheck]
        exact Transcript.outcome_of_eq_some rfl hreport
      exact .failed rfl hreport (by rw [houtcome]) (by rw [houtcome])
    | ok config =>
      rw [hcheck] at hends
      simp only [runCommand, hread, hcheck]
      exact reported_run hends

theorem failure_of_escaped {t : Transcript} {failure : Failure}
    (h : t.outcome.ending = .escaped failure) : t.failure = some failure := by
  unfold Transcript.outcome at h
  split at h
  · cases h
  · next failure' hfailure =>
    split at h
    · cases h
    · cases h
      exact hfailure

/-- What escapes is the failure of a stage. -/
theorem stages_of_escaped {arguments : List String} {today : String} {tree : Tree}
    {failure : Failure} (h : (runCommand arguments today tree).ending = .escaped failure) :
    commandStages arguments today tree = .error failure := by
  cases hoptions : optionsOf? arguments with
  | none =>
    unfold optionsOf? at hoptions
    unfold runCommand at h
    split at h
    · cases h
    · cases h
    · next o hread =>
      rw [hread] at hoptions
      cases hoptions
  | some o =>
    have hread := readArguments_of_optionsOf? hoptions
    rw [commandStages_of_optionsOf? hoptions]
    cases hcheck : o.check tree with
    | error failure' =>
      simp only [runCommand, hread, hcheck] at h
      cases failure' with
      | config e => exact congrArg Except.error (Option.some_inj.mp (failure_of_escaped h))
      | _ =>
        cases h
        rfl
    | ok config =>
      simp only [runCommand, hread, hcheck] at h
      have hfailure := config.failure_run today tree
      rw [failure_of_escaped h] at hfailure
      cases hstages : config.stages today tree with
      | ok done =>
        rw [hstages] at hfailure
        cases hfailure
      | error failure' =>
        rw [hstages] at hfailure
        cases hfailure
        exact hstages

/-- What is reported and what is not when the command is run with a well-typed schema module. -/
structure FailuresReported (arguments : List String) (today : String) (tree : Tree) : Prop where
  /-- Unless the command line slips, every failure is told and ends the command with status 1. -/
  reported : commandSlips arguments tree = false →
    Reported (commandStages arguments today tree) (runCommand arguments today tree)
  exit_one : commandSlips arguments tree = false →
    ((runCommand arguments today tree).ending = .exit 1 ↔
      ∃ failure, commandStages arguments today tree = .error failure)
  escaped : ∀ failure, (runCommand arguments today tree).ending = .escaped failure →
    commandStages arguments today tree = .error failure ∧ commandSlips arguments tree = true
  /-- Building the schema never reads a property of a value that has none. -/
  building : ∀ beginnings registrations,
    schemaModuleOf? arguments tree = some (.defining registrations) →
    ∀ d, Schema.ofRegistrations beginnings registrations ≠ .error (.defect d)
  /-- Without declarations in the place of names, no failure is an internal one. -/
  never_internal : commandSlips arguments tree = false →
    (optionsOf? arguments).any Options.outputHasNul = false → today ≠ "" →
    (schemaModuleOf? arguments tree).all (SchemaModule.genuine false) = true →
    ∀ failure, commandStages arguments today tree = .error failure →
      (∃ e, failure = .config e) ∨ (∃ e, failure = .schema e) ∨ ∃ e, failure = .system e

theorem Failure.Expected.named {failure : Failure} (h : failure.Expected false) :
    (∃ e, failure = .config e) ∨ (∃ e, failure = .schema e) ∨ ∃ e, failure = .system e := by
  cases failure with
  | config e => exact Or.inl ⟨e, rfl⟩
  | schema e => exact Or.inr (Or.inl ⟨e, rfl⟩)
  | system e => exact Or.inr (Or.inr ⟨e, rfl⟩)
  | internal e => cases h
  | defect d => exact h.elim

/-- For every command line that is accepted, every date and all files: if the schema module that
the command line designates is well typed, the command does not fall over because of it. -/
theorem failures_reported {arguments : List String} {tree : Tree} (today : String)
    (haccepted : (readArguments arguments).toBool = true)
    (hmodule : (schemaModuleOf? arguments tree).all (SchemaModule.genuine true) = true) :
    FailuresReported arguments today tree where
  reported hslips := reported_runCommand today haccepted hmodule hslips
  exit_one hslips := (reported_runCommand today haccepted hmodule hslips).exit_one_iff
  escaped failure h := by
    refine ⟨stages_of_escaped h, ?_⟩
    -- Otherwise the failure would have been reported, with status 1.
    by_contra hslips
    rw [Bool.not_eq_true] at hslips
    cases reported_runCommand today haccepted hmodule hslips with
    | succeeded _ hending => cases hending.symm.trans h
    | failed _ _ hending _ => cases hending.symm.trans h
  building beginnings registrations hdefining d herror := by
    rw [hdefining, Option.all_some] at hmodule
    exact (ends_ofRegistrations beginnings (List.all_eq_true.mp hmodule)).of_error herror
  never_internal hslips houtput hdate hstrict failure hfailure := by
    refine ((ends_commandStages today hslips hstrict fun _ o ho => ?_).of_error hfailure).named
    rw [ho, Option.any_some] at houtput
    exact ⟨hdate, houtput⟩

/-- A working directory with a schema module `s.py`. -/
def moduleTree (registrations : List Registration) : Tree where
  workingDirectory := .ofNames ["work"]
  nodes := Table.ofList
    [(.ofNames ["work"], .directory),
      (.ofNames ["work", "s.py"], .file (.schema (.defining registrations)))]

/-- A union that switches on text, which is refused by name. -/
def textSwitch : List Registration :=
  [.union "Choice" (some
    { switchOn := .string none
      switchName := "text"
      switches := [(.label "open", .empty)]
      arms := .empty
      defaultArm := none })]

/-- The command line that asks for it, in good order. -/
def textSwitchArguments : List String := ["--schema", "s.py", "--root", "Choice"]

theorem failures_reported_textSwitch :
    FailuresReported textSwitchArguments "2024-02-29" (moduleTree textSwitch) ∧
      commandSlips textSwitchArguments (moduleTree textSwitch) = false ∧
      (runCommand textSwitchArguments "2024-02-29" (moduleTree textSwitch)).ending = .exit 1 :=
  ⟨failures_reported "2024-02-29" (by decide +kernel) (by decide +kernel), by decide +kernel,
    by decide +kernel⟩

/-! ## Command lines that slip -/

theorem classify_of_notMem {s : String} (h : '-' ∉ s.toList) : classify s = .ok (.operand s) := by
  unfold classify
  split
  · next hs => exact absurd (by simp [hs]) h
  · next hs => exact absurd (by simp [hs]) h
  · rfl

theorem readArguments_schema {s : String} (h : '-' ∉ s.toList) :
    readArguments ["--schema", s] = .ok (.run { schema := some (.text s) }) := by
  have hschema : classify "--schema" = .ok (.long .schema none) := rfl
  have hflag : "--schema" ≠ "--" := by decide
  have hs : s ≠ "--" := by
    rintro rfl
    exact h (by decide)
  rw [readArguments, classifyAll, if_neg hflag, hschema, classifyAll, if_neg hs,
    classify_of_notMem h]
  rfl

/-- A name that is longer than that of a file, and has nothing else in it to stumble over. -/
structure OverlongName (name : String) : Prop where
  overlong : Path.isOverlongName name = true
  no_dash : '-' ∉ name.toList
  no_slash : '/' ∉ name.toList
  no_nul : '\x00' ∉ name.toList

namespace OverlongName

variable {name : String} {tree : Tree}

theorem ne_of_short (h : OverlongName name) {s : String} (hs : Path.isOverlongName s = false) :
    name ≠ s := by
  rintro rfl
  exact absurd h.overlong (by simp [hs])

theorem ofString_eq (h : OverlongName name) : Path.ofString name = ⟨.relative, [name]⟩ :=
  Path.ofString_of_notMem h.no_slash (h.ne_of_short (by decide)) (h.ne_of_short (by decide))

/-- Whether by the step or by the whole, it is too long. -/
theorem locate (h : OverlongName name) (hdir : tree.node? tree.workingDirectory = some .directory) :
    tree.locate (Path.ofString name) = .error .nameTooLong := by
  have hstep : tree.step tree.workingDirectory name = .error .nameTooLong := by
    simp [Tree.step, hdir, h.ne_of_short (s := "..") (by decide), h.overlong]
  rw [h.ofString_eq, Tree.locate]
  split
  · rfl
  · rw [if_pos rfl, Tree.walk, hstep]
    rfl

theorem contains (h : OverlongName name)
    (hdir : tree.node? tree.workingDirectory = some .directory) :
    tree.contains (Path.ofString name) = .error .nameTooLong := by
  have hnul : (Path.ofString name).hasNul = false := by
    simp [h.ofString_eq, Path.hasNul, h.no_nul]
  simp [Tree.contains, hnul, h.locate hdir]

theorem check (h : OverlongName name) (hdir : tree.node? tree.workingDirectory = some .directory) :
    Options.check { schema := some (.text name) } tree =
      .error (.system (.refused .nameTooLong name)) := by
  have htext : (Path.ofString name).text = name := by
    simp [h.ofString_eq, Path.text, Path.Anchor.text]
  have hschema : Options.checkSchema { schema := some (.text name) } tree =
      .error (.system (.refused .nameTooLong name)) := by
    simp only [Options.checkSchema, checkPath, h.contains hdir, htext]
  rw [Options.check, hschema]
  rfl

/-- The file system refuses to look for the schema, and nothing reports its refusal. -/
theorem escapes (h : OverlongName name)
    (hdir : tree.node? tree.workingDirectory = some .directory) (today : String) :
    (runCommand ["--schema", name] today tree).ending =
      .escaped (.system (.refused .nameTooLong name)) := by
  simp [runCommand, readArguments_schema h.no_dash, h.check hdir]

theorem schemaModuleOf?_eq_none (h : OverlongName name)
    (hdir : tree.node? tree.workingDirectory = some .directory) :
    schemaModuleOf? ["--schema", name] tree = none := by
  simp [schemaModuleOf?, optionsOf?, readArguments_schema h.no_dash, Options.schemaModule?,
    Options.schemaPath?, Tree.nodeAt, h.locate hdir]

end OverlongName

/-- A name of 256 letters. -/
def longName : String := String.ofList (List.replicate 256 'a')

theorem overlongName_longName : OverlongName longName := by
  have hchars : longName.toList = List.replicate 256 'a' := String.toList_ofList
  refine ⟨by decide +kernel, ?_, ?_, ?_⟩
  all_goals
    rw [hchars]
    decide

/-- The command line is accepted and there is no schema module to blame, and yet the failure
escapes, though there is a message for failures of its kind. -/
theorem overlong_schema_escapes :
    (readArguments ["--schema", longName]).toBool = true ∧
      schemaModuleOf? ["--schema", longName] (moduleTree []) = none ∧
      (runCommand ["--schema", longName] "2024-02-29" (moduleTree [])).ending =
        .escaped (.system (.refused .nameTooLong longName)) := by
  have hdir : (moduleTree []).node? (moduleTree []).workingDirectory = some .directory := rfl
  refine ⟨?_, overlongName_longName.schemaModuleOf?_eq_none hdir,
    overlongName_longName.escapes hdir "2024-02-29"⟩
  rw [readArguments_schema overlongName_longName.no_dash]
  rfl

-- The separator in the place of a root is dropped, and with it what a root should have been.
example :
    (runCommand ["--schema", "s.py", "--root=--"] "2024-02-29"
      (moduleTree [.typeAlias "N" .int])).ending = .escaped (.defect .wrongShape) := by
  decide +kernel

-- The schema is in order here, and still the message is about an internal error.
example :
    (commandStages ["--schema", "s.py", "--root", "N", "--output-dir", "out\x00"] "2024-02-29"
      (moduleTree [.typeAlias "N" .int])) = .error (.internal .nulInPath) := by
  decide +kernel

end XdrCompiler
