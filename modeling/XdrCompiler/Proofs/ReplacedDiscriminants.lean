/-
# XdrCompiler.Proofs.ReplacedDiscriminants -- discriminants seen from the finished table

A union is compiled for the type that its discriminant stands for at that time,
and this type decides on the default variant. The build goes on, and later unions
may replace entries of the table that the discriminant refers to.

In the finished table the discriminant therefore stands for the same type, or it
leads to a union, which nothing can switch on. The second happens exactly if the
way of the discriminant passes through a name that is also registered as a union
(`discriminant_kept_unless_replaced`), and it does happen
(`replaced_discriminant_unusable`). A different type never comes out.
-/
import XdrCompiler.Proofs.BuiltTable
import XdrCompiler.Proofs.Compiled

namespace XdrCompiler

/-! ## Ways in another table -/

namespace Leads

variable {types types' fresh : Table String XdrType} {t r : XdrType} {path done : List String}

/-- Tables that hold the same on the way have the same way. -/
theorem congr_path (h : Leads types t path r)
    (hsame : ∀ n ∈ path, types'.get? n = types.get? n) : Leads types' t path r := by
  induction h with
  | here hr => exact .here hr
  | @next name target r path htarget hrest ih =>
    obtain ⟨hname, hsame⟩ := List.forall_mem_cons.mp hsame
    refine .next ?_ (ih hsame)
    rwa [Table.defined?, hname]

/-- Where some names on the way have been replaced by unions, the search stops at the first of
them. -/
theorem resolveThrough_of_union (h : Leads types t path r) (hfresh : Remains types' done fresh)
    (hdone : ∀ n ∈ path, n ∉ done)
    (hsame : ∀ n ∈ path, types'.get? n = types.get? n ∨ ∃ u, types'.get? n = some (.union u))
    (hunion : ∃ n ∈ path, ∃ u, types'.get? n = some (.union u)) :
    XdrCompiler.resolveThrough types' fresh t = .error (.schema (.notDiscriminant "union")) := by
  have hnodup := h.nodup
  induction h generalizing fresh done with
  | here _ =>
    obtain ⟨n, hn, -⟩ := hunion
    exact absurd hn List.not_mem_nil
  | @next name target r path htarget hrest ih =>
    obtain ⟨hname, hnodup⟩ := List.nodup_cons.mp hnodup
    obtain ⟨hfirst, hsame⟩ := List.forall_mem_cons.mp hsame
    have hget : fresh.get? name = types'.get? name := by
      rw [hfresh name, if_neg (hdone name List.mem_cons_self)]
    by_cases hreplaced : ∃ u, types'.get? name = some (.union u)
    · obtain ⟨u, hu⟩ := hreplaced
      rw [resolveThrough_reference (hget.trans hu) rfl, XdrCompiler.resolveThrough]
      · rfl
      · intro name' hname'
        cases hname'
    · -- The entry is the old one, so the search goes on along the way.
      obtain ⟨entry, hentry, hdefined⟩ := Option.bind_eq_some_iff.mp htarget
      have hold : types'.get? name = some entry := (hfirst.resolve_right hreplaced).trans hentry
      rw [resolveThrough_reference (hget.trans hold) hdefined]
      refine ih (hfresh.erase name) ?_ hsame ?_ hnodup
      · intro n hn hmem
        rcases List.mem_cons.mp hmem with rfl | hmem
        · exact hname hn
        · exact hdone n (List.mem_cons_of_mem name hn) hmem
      · obtain ⟨n, hn, hu⟩ := hunion
        rcases List.mem_cons.mp hn with rfl | hn
        · exact absurd hu hreplaced
        · exact ⟨n, hn, hu⟩

end Leads

/-! ## The build up to one of the unions -/

namespace Builder

variable {beginnings : List String} {types : Table String XdrType}
  {pending earlier later : List (String × Option UnionDefinition)}

/-- A build that succeeds is the build of the first unions, followed by that of the others. -/
theorem compilePending_append (h : (compilePending beginnings types (earlier ++ later)).2 = none) :
    compilePending beginnings types (earlier ++ later) =
      compilePending beginnings (compilePending beginnings types earlier).1 later := by
  induction earlier generalizing types with
  | nil => rfl
  | cons q rest ih =>
    rw [List.cons_append] at h ⊢
    cases hq : compileUnion beginnings types q.1 q.2 with
    | error failure =>
      rw [compilePending_cons_error hq] at h
      cases h
    | ok u =>
      rw [compilePending_cons_ok hq] at h
      rw [compilePending_cons_ok hq, compilePending_cons_ok hq, ih h]

/-- Whether it succeeds or not, a build leaves no entry new but unions. -/
theorem basesIn_compilePending : BasesIn (compilePending beginnings types pending).1 types := by
  induction pending generalizing types with
  | nil => exact fun n t _ hget => hget
  | cons q rest ih =>
    cases hq : compileUnion beginnings types q.1 q.2 with
    | error failure =>
      rw [compilePending_cons_error hq]
      exact fun n t _ hget => hget
    | ok u =>
      rw [compilePending_cons_ok hq]
      intro n t ht hget
      exact basesIn_of_insert_union types q.1 u n t ht (ih n t ht hget)

/-- A union has been compiled against the table that the unions before it have left. -/
theorem compileUnion_of_append {q : String × Option UnionDefinition}
    (h : (compilePending beginnings types (earlier ++ q :: later)).2 = none) :
    ∃ u, compileUnion beginnings (compilePending beginnings types earlier).1 q.1 q.2 = .ok u := by
  rw [compilePending_append h] at h
  cases hq : compileUnion beginnings (compilePending beginnings types earlier).1 q.1 q.2 with
  | error failure =>
    rw [compilePending_cons_error hq] at h
    cases h
  | ok u => exact ⟨u, rfl⟩

/-- After a build, there is a union under each name that waited. -/
theorem exists_union_of_mem (h : (compilePending beginnings types pending).2 = none) {n : String}
    (hn : n ∈ pending.map Prod.fst) :
    ∃ u, (compilePending beginnings types pending).1.get? n = some (.union u) := by
  cases hlast : Pairs.findLast? n pending with
  | none => exact absurd hn (Pairs.findLast?_eq_none_iff.mp hlast)
  | some definition =>
    obtain ⟨u, -, hu⟩ := get?_compilePending_of_findLast? h hlast
    exact ⟨u, hu⟩

end Builder

/-! ## The discriminants of a finished schema -/

/-- What a finished schema makes of the discriminant of a union `name`, defined by `d`, which
waited in `b` behind the unions `earlier`. -/
structure DiscriminantKept (b : Builder) (schema : Schema)
    (earlier : List (String × Option UnionDefinition)) (name : String) (d : UnionDefinition)
    (resolved : XdrType) (u : UnionDecl) : Prop where
  /-- When its turn came the discriminant stood for `resolved`. -/
  used : resolveDiscriminant (Builder.compilePending b.boxedBeginnings b.types earlier).1
    d.switchOn = .ok resolved
  compiled : UnionDecl.compile b.boxedBeginnings name d resolved = .ok u
  default : u.hasDefault = d.needsDefault resolved
  /-- In the end it still does, or its way leads to a union. -/
  finished : ∃ path, Leads b.types d.switchOn path resolved ∧
    ((∀ n ∈ path, n ∉ b.pending.map Prod.fst) →
      resolveDiscriminant schema.types d.switchOn = .ok resolved) ∧
    ((∃ n ∈ path, n ∈ b.pending.map Prod.fst) →
      resolveDiscriminant schema.types d.switchOn = .error (.schema (.notDiscriminant "union")))

/-- Whatever was registered, the discriminant of each union stands in the finished schema for the
type that the union was compiled for, unless a name on its way is that of a union. -/
theorem discriminant_kept_unless_replaced {b : Builder} {schema : Schema}
    (hbuild : b.build.2 = .ok schema)
    {earlier later : List (String × Option UnionDefinition)} {name : String}
    {definition : Option UnionDefinition}
    (hpending : b.pending = earlier ++ (name, definition) :: later) :
    ∃ d resolved u, definition = some d ∧ DiscriminantKept b schema earlier name d resolved u := by
  have hdone := Builder.build_eq_ok_iff.mp ⟨schema, hbuild⟩
  have htypes : schema.types =
      (Builder.compilePending b.boxedBeginnings b.types b.pending).1 := by
    rw [Builder.build_of_eq_none hdone] at hbuild
    exact congrArg Schema.types (Except.ok.inj hbuild).symm
  obtain ⟨u, hu⟩ := Builder.compileUnion_of_append (hpending ▸ hdone)
  cases definition with
  | none => cases hu
  | some d =>
    obtain ⟨resolved, hresolved, hcompile⟩ := bind_eq_ok_iff.mp hu
    obtain ⟨path, hpath⟩ := resolveDiscriminant_eq_ok_iff.mp
      (resolveDiscriminant_mono Builder.basesIn_compilePending hresolved)
    have hkept : ∀ n, n ∉ b.pending.map Prod.fst → schema.types.get? n = b.types.get? n := by
      intro n hn
      rw [htypes, Builder.get?_compilePending_of_notMem hn]
    have hreplaced : ∀ n, n ∈ b.pending.map Prod.fst →
        ∃ u, schema.types.get? n = some (.union u) := by
      intro n hn
      rw [htypes]
      exact Builder.exists_union_of_mem hdone hn
    refine ⟨d, resolved, u, rfl, ⟨hresolved, hcompile, ?_, path, hpath, ?_, ?_⟩⟩
    · obtain ⟨discriminant, compiled, -, -, -, -, rfl⟩ := UnionDecl.compile_eq_ok_iff.mp hcompile
      rfl
    · intro hnone
      refine resolveDiscriminant_eq_ok_iff.mpr ⟨path, hpath.congr_path ?_⟩
      exact fun n hn => hkept n (hnone n hn)
    · rintro ⟨n, hn, hmem⟩
      refine hpath.resolveThrough_of_union (Remains.start schema.types)
        (fun n _ => List.not_mem_nil) ?_ ⟨n, hn, hreplaced n hmem⟩
      intro n' _
      by_cases hmem' : n' ∈ b.pending.map Prod.fst
      · exact Or.inr (hreplaced n' hmem')
      · exact Or.inl (hkept n' hmem')

/-- A union that switches on an enum by way of an alias, and one of the name of the enum. -/
def replacedColor : List Registration :=
  [.enum "Color" (Table.ofList [("RED", 0), ("GREEN", 1)]),
   .typeAlias "Hue" (.reference "Color"),
   .union "Paint" (some paint),
   .union "Color" (some shade)]
where
  paint : UnionDefinition :=
    { switchOn := .reference "Hue"
      switchName := "hue"
      switches := [(.label "RED", .empty), (.label "GREEN", .empty)]
      arms := .empty
      defaultArm := none }
  shade : UnionDefinition :=
    { switchOn := .int
      switchName := "level"
      switches := [(.number 0, .empty)]
      arms := .empty
      defaultArm := none }

theorem discriminant_kept_unless_replaced_color :
    ∃ schema, (Builder.afterAll [] replacedColor).build.2 = .ok schema ∧
      (∃ d resolved u, some replacedColor.paint = some d ∧
        DiscriminantKept (Builder.afterAll [] replacedColor) schema [] "Paint" d resolved u) ∧
      ∃ d resolved u, some replacedColor.shade = some d ∧
        DiscriminantKept (Builder.afterAll [] replacedColor) schema
          [("Paint", some replacedColor.paint)] "Color" d resolved u := by
  obtain ⟨schema, hschema⟩ := exists_eq_ok_of_toBool
    (x := (Builder.afterAll [] replacedColor).build.2) (by decide +kernel)
  have hpaint : (Builder.afterAll [] replacedColor).pending =
      [] ++ ("Paint", some replacedColor.paint) :: [("Color", some replacedColor.shade)] := rfl
  have hshade : (Builder.afterAll [] replacedColor).pending =
      [("Paint", some replacedColor.paint)] ++ ("Color", some replacedColor.shade) :: [] := rfl
  exact ⟨schema, hschema, discriminant_kept_unless_replaced hschema hpaint,
    discriminant_kept_unless_replaced hschema hshade⟩

/-- The enum that `Paint` was compiled for, without a default variant, is gone in the end. -/
theorem replaced_discriminant_unusable :
    ∃ schema resolved u, (Builder.afterAll [] replacedColor).build.2 = .ok schema ∧
      ("Paint", some replacedColor.paint) ∈ (Builder.afterAll [] replacedColor).pending ∧
      resolveDiscriminant (Builder.afterAll [] replacedColor).types replacedColor.paint.switchOn =
        .ok resolved ∧
      UnionDecl.compile [] "Paint" replacedColor.paint resolved = .ok u ∧ u.hasDefault = false ∧
      schema.types.get? "Paint" = some (.union u) ∧
      resolveDiscriminant schema.types replacedColor.paint.switchOn =
        .error (.schema (.notDiscriminant "union")) := by
  have hrun : (Builder.afterAll [] replacedColor).build.2.map (fun schema =>
      resolveDiscriminant schema.types replacedColor.paint.switchOn) =
        .ok (.error (.schema (.notDiscriminant "union"))) := by
    decide +kernel
  have hcompile : (Builder.compileUnion [] (Builder.afterAll [] replacedColor).types "Paint"
      (some replacedColor.paint)).map UnionDecl.hasDefault = .ok false := by
    decide +kernel
  obtain ⟨schema, hschema, hfinished⟩ := map_eq_ok_iff.mp hrun
  obtain ⟨u, hu, hdefault⟩ := map_eq_ok_iff.mp hcompile
  obtain ⟨resolved, hresolved, hdecl⟩ := bind_eq_ok_iff.mp hu
  have hdone := Builder.build_eq_ok_iff.mp ⟨schema, hschema⟩
  have hlast : Pairs.findLast? "Paint" (Builder.afterAll [] replacedColor).pending =
      some (some replacedColor.paint) := rfl
  obtain ⟨u', hu', hget⟩ := Builder.get?_compilePending_of_findLast? hdone hlast
  obtain rfl : u = u' := Except.ok.inj (hu.symm.trans hu')
  refine ⟨schema, resolved, u, hschema, List.mem_cons_self, hresolved, hdecl, hdefault, ?_,
    hfinished⟩
  rw [Builder.build_of_eq_none hdone] at hschema
  obtain rfl := Except.ok.inj hschema
  exact hget

end XdrCompiler
