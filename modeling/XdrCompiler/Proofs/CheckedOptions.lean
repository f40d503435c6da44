/-
# XdrCompiler.Proofs.CheckedOptions -- what checking the options comes to

The options are checked in a fixed order, and the first thing that is wrong with
them decides the outcome: a filter without the list, the schema, the roots, the
boxed beginnings, and for a generating run the file name and the feature. `Verdict`
says what each of these comes to without saying how it is found out, and
`options_checked_in_order` that it is the outcome, for all options and files. Roots
and boxed beginnings end up as a list of distinct names, in the order in which they
were first given.

Two of the outcomes are not meant to be there. An operand that was dropped is a
defect wherever a text is needed. And a schema whose path is too long to be looked
up is not reported as missing: the refusal of the file system gets through
(`overlong_schema_not_missing`).
-/
import XdrCompiler.Proofs.ReportedFailures

namespace XdrCompiler

/-! ## The schema -/

namespace Tree

variable {t : Tree} {p : Path}

/-- The path leads to a file or a directory. -/
def Designates (t : Tree) (p : Path) : Prop :=
  p.hasNul = false ∧ ∃ loc node, t.locate p = .ok loc ∧ t.node? loc = some node

/-- The path, or a name on its way, is too long to be looked up. -/
def Overlong (t : Tree) (p : Path) : Prop :=
  p.hasNul = false ∧ t.locate p = .error .nameTooLong

theorem contains_eq_true_iff : t.contains p = .ok true ↔ t.Designates p := by
  unfold contains Designates
  cases p.hasNul with
  | true => simp
  | false =>
    cases t.locate p with
    | error errno => cases errno <;> simp
    | ok loc => simp [Option.isSome_iff_exists]

theorem contains_eq_error_iff {errno : Errno} :
    t.contains p = .error errno ↔ t.Overlong p ∧ errno = .nameTooLong := by
  unfold contains Overlong
  cases p.hasNul with
  | true => simp
  | false =>
    cases t.locate p with
    | error errno' => cases errno' <;> simp [eq_comm]
    | ok loc => simp

theorem contains_eq_false_iff : t.contains p = .ok false ↔ ¬t.Designates p ∧ ¬t.Overlong p := by
  rw [← contains_eq_true_iff]
  cases hcontains : t.contains p with
  | error errno =>
    obtain ⟨hlong, -⟩ := contains_eq_error_iff.mp hcontains
    simp [hlong]
  | ok found =>
    have hlong : ¬t.Overlong p := by
      intro hlong
      rw [contains_eq_error_iff.mpr ⟨hlong, rfl⟩] at hcontains
      cases hcontains
    simp [hlong]

end Tree

/-- What looking for the schema comes to. -/
inductive SchemaLookup (o : Options) (tree : Tree) : Except Failure Path → Prop
  | notGiven : o.schema = none →
    SchemaLookup o tree (.error (.config (.pathRequired "--schema" (some schemaHint))))
  | missing {s : String} : o.schema = some (.text s) →
    ¬tree.Designates (Path.ofString s) ∧ ¬tree.Overlong (Path.ofString s) →
    SchemaLookup o tree (.error (.config
      (.pathMissing "--schema" (Path.ofString s).text (some schemaHint))))
  | found {s : String} : o.schema = some (.text s) → tree.Designates (Path.ofString s) →
    SchemaLookup o tree (.ok (Path.ofString s))
  | overlong {s : String} : o.schema = some (.text s) → tree.Overlong (Path.ofString s) →
    SchemaLookup o tree (.error (.system (.refused .nameTooLong (Path.ofString s).text)))
  | dropped : o.schema = some .dropped → SchemaLookup o tree (.error (.defect .noProperty))

theorem schemaLookup_iff {o : Options} {tree : Tree} {r : Except Failure Path} :
    o.checkSchema tree = r ↔ SchemaLookup o tree r := by
  constructor
  · rintro rfl
    unfold Options.checkSchema
    split
    · next hschema => exact .notGiven hschema
    · next hschema => exact .dropped hschema
    · next s hschema =>
      simp only [checkPath]
      split
      · next hcontains => exact .found hschema (Tree.contains_eq_true_iff.mp hcontains)
      · next hcontains => exact .missing hschema (Tree.contains_eq_false_iff.mp hcontains)
      · next errno hcontains =>
        obtain ⟨hlong, rfl⟩ := Tree.contains_eq_error_iff.mp hcontains
        exact .overlong hschema hlong
  · intro h
    cases h with
    | notGiven hschema => simp [Options.checkSchema, hschema, checkPath]
    | missing hschema hmissing =>
      simp [Options.checkSchema, hschema, checkPath, Tree.contains_eq_false_iff.mpr hmissing]
    | found hschema hfound =>
      simp [Options.checkSchema, hschema, checkPath, Tree.contains_eq_true_iff.mpr hfound]
    | overlong hschema hlong =>
      simp [Options.checkSchema, hschema, checkPath, Tree.contains_eq_error_iff.mpr ⟨hlong, rfl⟩]
    | dropped hschema => simp [Options.checkSchema, hschema]

/-! ## Names -/

/-- The names of a list without repetition, in the order in which each occurs first. -/
structure FirstGiven (given names : List String) : Prop where
  mem_iff : ∀ name, name ∈ names ↔ name ∈ given
  ordered : names.Pairwise fun a b => given.idxOf a < given.idxOf b

theorem pairwise_idxOf_firstOccurrences (given : List String) :
    (firstOccurrences given).Pairwise fun a b => given.idxOf a < given.idxOf b := by
  induction given with
  | nil => exact List.Pairwise.nil
  | cons name rest ih =>
    have hidx : ∀ a ∈ (firstOccurrences rest).filter (· ≠ name),
        (name :: rest).idxOf a = rest.idxOf a + 1 := by
      intro a ha
      have hne : a ≠ name := by simpa using (List.mem_filter.mp ha).2
      exact List.idxOf_cons_ne rest hne.symm
    rw [firstOccurrences]
    refine List.pairwise_cons.mpr ⟨?_, ?_⟩
    · intro b hb
      rw [List.idxOf_cons_self, hidx b hb]
      omega
    · refine (ih.filter _).imp_of_mem ?_
      intro a b ha hb hab
      rw [hidx a ha, hidx b hb]
      omega

theorem FirstGiven.nodup {given names : List String} (h : FirstGiven given names) :
    names.Nodup := by
  refine h.ordered.imp ?_
  rintro a b hab rfl
  omega

theorem firstGiven_iff {given names : List String} :
    FirstGiven given names ↔ names = firstOccurrences given := by
  have hfirst : FirstGiven given (firstOccurrences given) :=
    ⟨fun _ => mem_firstOccurrences, pairwise_idxOf_firstOccurrences given⟩
  constructor
  · intro h
    have hperm : names.Perm (firstOccurrences given) :=
      (List.perm_ext_iff_of_nodup h.nodup hfirst.nodup).mpr fun name =>
        (h.mem_iff name).trans (hfirst.mem_iff name).symm
    refine hperm.eq_of_pairwise ?_ h.ordered hfirst.ordered
    intro a b _ _ hab hba
    omega
  · rintro rfl
    exact hfirst

/-- What reading names comes to that have defaults. -/
inductive NamesRead (defaults : List String) (operands : List Operand) :
    Except Failure (List String) → Prop
  | notGiven : operands = [] → NamesRead defaults operands (.ok defaults)
  | taken {given names : List String} : operands = given.map .text → given ≠ [] →
    (∀ name ∈ given, Naming.isTypeName name = true) → FirstGiven given names →
    NamesRead defaults operands (.ok names)
  | refused {before : List String} {name : String} {after : List Operand} :
    operands = before.map .text ++ .text name :: after →
    (∀ name ∈ before, Naming.isTypeName name = true) → Naming.isTypeName name = false →
    NamesRead defaults operands (.error (.config (.typeName name)))
  | dropped {before : List String} {after : List Operand} :
    operands = before.map .text ++ .dropped :: after →
    (∀ name ∈ before, Naming.isTypeName name = true) →
    NamesRead defaults operands (.error (.defect .wrongShape))

theorem checkTypeNames_text {name : String} (h : Naming.isTypeName name = true)
    (rest : List Operand) :
    checkTypeNames (.text name :: rest) = (checkTypeNames rest).map (name :: ·) := by
  show ((checkTypeName name).bind fun first =>
    (checkTypeNames rest).bind fun others => .ok (first :: others)) = _
  rw [checkTypeName, if_pos h]
  cases checkTypeNames rest <;> rfl

theorem checkTypeNames_refused {name : String} (h : Naming.isTypeName name = false)
    (rest : List Operand) :
    checkTypeNames (.text name :: rest) = .error (.config (.typeName name)) := by
  show (checkTypeName name).bind _ = _
  rw [checkTypeName, if_neg (by simp [h])]
  rfl

/-- Accepted names in front only add to the result. -/
theorem checkTypeNames_append {before : List String}
    (h : ∀ name ∈ before, Naming.isTypeName name = true) (rest : List Operand) :
    checkTypeNames (before.map .text ++ rest) = (checkTypeNames rest).map (before ++ ·) := by
  induction before with
  | nil =>
    rw [List.map_nil, List.nil_append]
    cases checkTypeNames rest <;> rfl
  | cons name others ih =>
    obtain ⟨hname, hothers⟩ := List.forall_mem_cons.mp h
    rw [List.map_cons, List.cons_append, checkTypeNames_text hname, ih hothers]
    cases checkTypeNames rest <;> rfl

/-- Where reading the operands stops: behind the last of them, or at the first that is not an
accepted name. -/
theorem exists_accepted_part (operands : List Operand) :
    ∃ (before : List String) (rest : List Operand), operands = before.map .text ++ rest ∧
      (∀ name ∈ before, Naming.isTypeName name = true) ∧
      (rest = [] ∨ (∃ name after, rest = .text name :: after ∧ Naming.isTypeName name = false) ∨
        ∃ after, rest = .dropped :: after) := by
  induction operands with
  | nil => exact ⟨[], [], rfl, by simp, Or.inl rfl⟩
  | cons operand others ih =>
    cases operand with
    | dropped => exact ⟨[], _, rfl, by simp, Or.inr (Or.inr ⟨others, rfl⟩)⟩
    | text name =>
      cases hname : Naming.isTypeName name with
      | false => exact ⟨[], _, rfl, by simp, Or.inr (Or.inl ⟨name, others, rfl, hname⟩)⟩
      | true =>
        obtain ⟨before, rest, rfl, hbefore, hrest⟩ := ih
        exact ⟨name :: before, rest, rfl, List.forall_mem_cons.mpr ⟨hname, hbefore⟩, hrest⟩

theorem namesRead_iff {defaults : List String} {operands : List Operand}
    {r : Except Failure (List String)} :
    namesOr defaults operands = r ↔ NamesRead defaults operands r := by
  constructor
  · rintro rfl
    by_cases hempty : operands = []
    · rw [namesOr, if_pos (by simp [hempty])]
      exact .notGiven hempty
    · rw [namesOr, if_neg (by simpa using hempty)]
      obtain ⟨before, rest, rfl, hbefore, rfl | ⟨name, after, rfl, hname⟩ | ⟨after, rfl⟩⟩ :=
        exists_accepted_part operands
      · rw [checkTypeNames_append hbefore]
        refine .taken (by simp) (by simpa using hempty) hbefore (firstGiven_iff.mpr ?_)
        exact congrArg firstOccurrences (List.append_nil before)
      · rw [checkTypeNames_append hbefore, checkTypeNames_refused hname]
        exact .refused rfl hbefore hname
      · rw [checkTypeNames_append hbefore]
        exact .dropped rfl hbefore
  · intro h
    cases h with
    | notGiven hempty => rw [namesOr, if_pos (by simp [hempty])]
    | @taken given names hoperands hne hgiven hfirst =>
      have hchecked := checkTypeNames_append hgiven []
      rw [List.append_nil, ← hoperands] at hchecked
      rw [namesOr, if_neg (by simp [hoperands, hne]), hchecked, firstGiven_iff.mp hfirst]
      exact congrArg (Except.ok ∘ firstOccurrences) (List.append_nil given)
    | refused hoperands hbefore hname =>
      rw [namesOr, if_neg (by simp [hoperands]), hoperands, checkTypeNames_append hbefore,
        checkTypeNames_refused hname]
      rfl
    | dropped hoperands hbefore =>
      rw [namesOr, if_neg (by simp [hoperands]), hoperands, checkTypeNames_append hbefore]
      rfl

theorem NamesRead.ne_nil {defaults names : List String} {operands : List Operand}
    (h : NamesRead defaults operands (.ok names)) (hdefaults : defaults ≠ []) : names ≠ [] := by
  cases h with
  | notGiven => exact hdefaults
  | @taken given names hoperands hne hgiven hfirst =>
    obtain ⟨name, hname⟩ := List.exists_mem_of_ne_nil given hne
    exact List.ne_nil_of_mem ((hfirst.mem_iff name).mpr hname)

theorem NamesRead.nodup {defaults names : List String} {operands : List Operand}
    (h : NamesRead defaults operands (.ok names)) (hdefaults : defaults.Nodup) : names.Nodup := by
  cases h with
  | notGiven => exact hdefaults
  | taken _ _ _ hfirst => exact hfirst.nodup

/-! ## Single operands -/

/-- What reading a name comes to that is not a type's. -/
inductive NameRead (accepted : String → Bool) (complaint : String → ConfigError)
    (operand : Operand) : Except Failure String → Prop
  | taken {name : String} : operand = .text name → accepted name = true →
    NameRead accepted complaint operand (.ok name)
  | refused {name : String} : operand = .text name → accepted name = false →
    NameRead accepted complaint operand (.error (.config (complaint name)))
  | dropped : operand = .dropped → NameRead accepted complaint operand (.error (.defect .wrongShape))

theorem nameRead_iff (accepted : String → Bool) (complaint : String → ConfigError)
    {operand : Operand} {r : Except Failure String} :
    (operand.get.bind fun name =>
      if accepted name then .ok name else .error (.config (complaint name))) = r ↔
      NameRead accepted complaint operand r := by
  constructor
  · rintro rfl
    cases operand with
    | dropped => exact .dropped rfl
    | text name =>
      cases haccepted : accepted name with
      | true =>
        show NameRead accepted complaint (.text name) (if accepted name then _ else _)
        rw [if_pos haccepted]
        exact .taken rfl haccepted
      | false =>
        show NameRead accepted complaint (.text name) (if accepted name then _ else _)
        rw [if_neg (by simp [haccepted])]
        exact .refused rfl haccepted
  · intro h
    cases h with
    | taken hoperand haccepted => simp [hoperand, Operand.get, Except.bind, haccepted]
    | refused hoperand haccepted => simp [hoperand, Operand.get, Except.bind, haccepted]
    | dropped hoperand => simp [hoperand, Operand.get, Except.bind]

theorem fileNameRead_iff {operand : Operand} {r : Except Failure String} :
    operand.get.bind checkFileName = r ↔ NameRead Naming.isFileName .fileName operand r :=
  nameRead_iff Naming.isFileName .fileName

theorem featureNameRead_iff {operand : Operand} {r : Except Failure String} :
    operand.get.bind checkFeatureName = r ↔ NameRead Naming.isFeatureName .featureName operand r :=
  nameRead_iff Naming.isFeatureName .featureName

/-! ## All checks -/

/-- A filter is given that would filter, and there is no list to be filtered. -/
def FilterUnused (o : Options) : Prop :=
  (∃ s, o.filter = some (.text s) ∧ s ≠ "") ∧ o.listTypes = false

/-- The output directory that an operand stands for. -/
def outputPath : Operand → Option Path
  | .text s => some (Path.ofString s)
  | .dropped => none

/-- The options pass what is checked for both kinds of run. -/
structure Passes (o : Options) (tree : Tree) (schema : Path) (roots beginnings : List String) :
    Prop where
  filter : ¬FilterUnused o
  schema : SchemaLookup o tree (.ok schema)
  roots : NamesRead defaultRoots o.roots (.ok roots)
  beginnings : NamesRead defaultBoxedBeginnings o.boxedBeginnings (.ok beginnings)

/-- What checking the options comes to. Each outcome supposes that the checks before it are
passed. -/
inductive Verdict (o : Options) (tree : Tree) : Except Failure Config → Prop
  | filter : FilterUnused o → Verdict o tree (.error (.config .filterWithoutList))
  | schema {failure : Failure} : ¬FilterUnused o → SchemaLookup o tree (.error failure) →
    Verdict o tree (.error failure)
  | root {schema : Path} {failure : Failure} : ¬FilterUnused o →
    SchemaLookup o tree (.ok schema) → NamesRead defaultRoots o.roots (.error failure) →
    Verdict o tree (.error failure)
  | beginning {schema : Path} {roots : List String} {failure : Failure} : ¬FilterUnused o →
    SchemaLookup o tree (.ok schema) → NamesRead defaultRoots o.roots (.ok roots) →
    NamesRead defaultBoxedBeginnings o.boxedBeginnings (.error failure) →
    Verdict o tree (.error failure)
  | discovery {schema : Path} {roots beginnings : List String} :
    Passes o tree schema roots beginnings → o.listTypes = true →
    Verdict o tree (.ok (.discovery ⟨schema, roots, beginnings, o.filter⟩))
  | fileName {schema : Path} {roots beginnings : List String} {failure : Failure} :
    Passes o tree schema roots beginnings → o.listTypes = false →
    NameRead Naming.isFileName .fileName o.fileName (.error failure) →
    Verdict o tree (.error failure)
  | feature {schema : Path} {roots beginnings : List String} {fileName : String}
    {failure : Failure} : Passes o tree schema roots beginnings → o.listTypes = false →
    NameRead Naming.isFileName .fileName o.fileName (.ok fileName) →
    NameRead Naming.isFeatureName .featureName o.feature (.error failure) →
    Verdict o tree (.error failure)
  | generate {schema : Path} {roots beginnings : List String} {fileName feature : String} :
    Passes o tree schema roots beginnings → o.listTypes = false →
    NameRead Naming.isFileName .fileName o.fileName (.ok fileName) →
    NameRead Naming.isFeatureName .featureName o.feature (.ok feature) →
    Verdict o tree (.ok (.generate
      ⟨schema, outputPath o.outputDir, fileName, roots, feature, beginnings⟩))

variable {o : Options} {tree : Tree}

theorem filterUnused_iff : (o.hasFilter && !o.listTypes) = true ↔ FilterUnused o := by
  unfold Options.hasFilter FilterUnused
  cases o.filter with
  | none => simp
  | some operand => cases operand <;> simp

theorem check_of_filterUnused (h : FilterUnused o) :
    o.check tree = .error (.config .filterWithoutList) := by
  rw [Options.check, if_pos (filterUnused_iff.mpr h)]
  rfl

/-- Without that complaint, the checks are made one after the other. -/
theorem check_of_not_filterUnused (h : ¬FilterUnused o) :
    o.check tree = (o.checkSchema tree).bind fun schema =>
      (namesOr defaultRoots o.roots).bind fun roots =>
        (namesOr defaultBoxedBeginnings o.boxedBeginnings).bind fun beginnings =>
          if o.listTypes then .ok (.discovery ⟨schema, roots, beginnings, o.filter⟩)
          else (o.fileName.get.bind checkFileName).bind fun fileName =>
            (o.feature.get.bind checkFeatureName).bind fun feature =>
              .ok (.generate
                ⟨schema, outputPath o.outputDir, fileName, roots, feature, beginnings⟩) := by
  rw [Options.check, if_neg fun hfilter => h (filterUnused_iff.mp hfilter)]
  rfl

theorem verdict_check (o : Options) (tree : Tree) : Verdict o tree (o.check tree) := by
  by_cases hfilter : FilterUnused o
  · rw [check_of_filterUnused hfilter]
    exact .filter hfilter
  · rw [check_of_not_filterUnused hfilter]
    cases hschema : o.checkSchema tree with
    | error failure => exact .schema hfilter (schemaLookup_iff.mp hschema)
    | ok schema =>
      have hfound := schemaLookup_iff.mp hschema
      cases hroots : namesOr defaultRoots o.roots with
      | error failure => exact .root hfilter hfound (namesRead_iff.mp hroots)
      | ok roots =>
        have htaken := namesRead_iff.mp hroots
        cases hbeginnings : namesOr defaultBoxedBeginnings o.boxedBeginnings with
        | error failure => exact .beginning hfilter hfound htaken (namesRead_iff.mp hbeginnings)
        | ok beginnings =>
          have hpasses : Passes o tree schema roots beginnings :=
            ⟨hfilter, hfound, htaken, namesRead_iff.mp hbeginnings⟩
          cases hlist : o.listTypes with
          | true => exact .discovery hpasses hlist
          | false =>
            cases hfileName : o.fileName.get.bind checkFileName with
            | error failure => exact .fileName hpasses hlist (fileNameRead_iff.mp hfileName)
            | ok fileName =>
              have hname := fileNameRead_iff.mp hfileName
              cases hfeature : o.feature.get.bind checkFeatureName with
              | error failure =>
                exact .feature hpasses hlist hname (featureNameRead_iff.mp hfeature)
              | ok feature =>
                exact .generate hpasses hlist hname (featureNameRead_iff.mp hfeature)

theorem Passes.check {schema : Path} {roots beginnings : List String}
    (h : Passes o tree schema roots beginnings) :
    o.check tree = if o.listTypes then .ok (.discovery ⟨schema, roots, beginnings, o.filter⟩)
      else (o.fileName.get.bind checkFileName).bind fun fileName =>
        (o.feature.get.bind checkFeatureName).bind fun feature =>
          .ok (.generate ⟨schema, outputPath o.outputDir, fileName, roots, feature, beginnings⟩) := by
  rw [check_of_not_filterUnused h.filter, schemaLookup_iff.mpr h.schema,
    namesRead_iff.mpr h.roots, namesRead_iff.mpr h.beginnings]
  rfl

theorem Verdict.check_eq {r : Except Failure Config} (h : Verdict o tree r) :
    o.check tree = r := by
  cases h with
  | filter hfilter => exact check_of_filterUnused hfilter
  | schema hfilter hschema =>
    rw [check_of_not_filterUnused hfilter, schemaLookup_iff.mpr hschema]
    rfl
  | root hfilter hschema hroots =>
    rw [check_of_not_filterUnused hfilter, schemaLookup_iff.mpr hschema,
      namesRead_iff.mpr hroots]
    rfl
  | beginning hfilter hschema hroots hbeginnings =>
    rw [check_of_not_filterUnused hfilter, schemaLookup_iff.mpr hschema,
      namesRead_iff.mpr hroots, namesRead_iff.mpr hbeginnings]
    rfl
  | discovery hpasses hlist => rw [hpasses.check, if_pos hlist]
  | fileName hpasses hlist hname =>
    rw [hpasses.check, if_neg (by simp [hlist]), fileNameRead_iff.mpr hname]
    rfl
  | feature hpasses hlist hname hfeature =>
    rw [hpasses.check, if_neg (by simp [hlist]), fileNameRead_iff.mpr hname,
      featureNameRead_iff.mpr hfeature]
    rfl
  | generate hpasses hlist hname hfeature =>
    rw [hpasses.check, if_neg (by simp [hlist]), fileNameRead_iff.mpr hname,
      featureNameRead_iff.mpr hfeature]
    rfl

/-- There is at least one root and one boxed beginning, and none of them is there twice. -/
structure Config.Normalised (config : Config) : Prop where
  roots_ne_nil : config.roots ≠ []
  roots_nodup : config.roots.Nodup
  beginnings_ne_nil : config.boxedBeginnings ≠ []
  beginnings_nodup : config.boxedBeginnings.Nodup

theorem Passes.normalised {schema : Path} {roots beginnings : List String}
    (h : Passes o tree schema roots beginnings) {config : Config} (hroots : config.roots = roots)
    (hbeginnings : config.boxedBeginnings = beginnings) : config.Normalised where
  roots_ne_nil := hroots ▸ h.roots.ne_nil (by decide)
  roots_nodup := hroots ▸ h.roots.nodup (by decide)
  beginnings_ne_nil := hbeginnings ▸ h.beginnings.ne_nil (by decide)
  beginnings_nodup := hbeginnings ▸ h.beginnings.nodup (by decide)

theorem Verdict.normalised {config : Config} (h : Verdict o tree (.ok config)) :
    config.Normalised := by
  cases h with
  | discovery hpasses => exact hpasses.normalised rfl rfl
  | generate hpasses => exact hpasses.normalised rfl rfl

/-- Whatever the options and the files are, the first check that is not passed decides. -/
theorem options_checked_in_order (o : Options) (tree : Tree) :
    (∀ r, o.check tree = r ↔ Verdict o tree r) ∧
      ∀ config, o.check tree = .ok config → config.Normalised := by
  refine ⟨?_, ?_⟩
  · intro r
    constructor
    · rintro rfl
      exact verdict_check o tree
    · exact Verdict.check_eq
  · intro config hconfig
    have hverdict := verdict_check o tree
    rw [hconfig] at hverdict
    exact hverdict.normalised

-- The filter, the schema, a root and the file name are all at fault.
example :
    Options.check
      { filter := some (.text "memo"), roots := [.text "9Lives"], fileName := .text "xdr.py" }
      (moduleTree []) = .error (.config .filterWithoutList) :=
  rfl

/-! ## A schema that is not reported as missing -/

/-- The path leads nowhere, and yet the failure is not that the path is missing. -/
theorem overlong_schema_not_missing :
    ¬(moduleTree []).Designates (Path.ofString longName) ∧
      Options.check { schema := some (.text longName) } (moduleTree []) =
        .error (.system (.refused .nameTooLong longName)) := by
  have hdir : (moduleTree []).node? (moduleTree []).workingDirectory = some .directory := rfl
  refine ⟨?_, overlongName_longName.check hdir⟩
  rintro ⟨-, loc, node, hlocate, -⟩
  cases hlocate.symm.trans (overlongName_longName.locate hdir)

end XdrCompiler
