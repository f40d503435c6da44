/-
# XdrCompiler.Proofs.Resolution -- where the aliases of a discriminant lead

A discriminant is followed from alias to alias until it is no reference any more.
`Leads` says what there is to follow, without a bound on the number of steps and
without a memory of the names visited. The search of the compiler keeps such a
memory to notice loops, and finds exactly what there is
(`resolveDiscriminant_eq_ok_iff`). The reason is that the way from a name is the
only one, so that a way which comes back to a name never ends.

Where the way ends is no union, and neither is anything on it. So it depends on
the entries that are no unions only (`Leads.mono`), whatever else a table holds.
-/
import XdrCompiler.Proofs.Results
import XdrCompiler.Proofs.Search
import XdrCompiler.Schema.Discriminant

namespace XdrCompiler

/-! ## Types that a union can switch on -/

namespace XdrType

theorem asDiscriminant_reference_ne (name : String) (r : XdrType) :
    (reference name).asDiscriminant ≠ .ok r := by
  intro h
  cases h

theorem asDiscriminant_union_ne (decl : UnionDecl) (r : XdrType) :
    (union decl).asDiscriminant ≠ .ok r := by
  intro h
  cases h

end XdrType

/-! ## Ways through a table -/

/-- The type `t` leads through the aliases `path`, in order, to the discriminant `r`. -/
inductive Leads (types : Table String XdrType) : XdrType → List String → XdrType → Prop
  | here {t r : XdrType} : t.asDiscriminant = .ok r → Leads types t [] r
  | next {name : String} {target r : XdrType} {path : List String} :
      types.defined? name = some target → Leads types target path r →
      Leads types (.reference name) (name :: path) r

namespace Leads

variable {types types' : Table String XdrType} {t r r' : XdrType} {path path' : List String}

/-- There is one way only. -/
theorem unique (h : Leads types t path r) (h' : Leads types t path' r') :
    path = path' ∧ r = r' := by
  induction h generalizing path' with
  | here hr =>
    cases h' with
    | here hr' => exact ⟨rfl, Except.ok.inj (hr.symm.trans hr')⟩
    | next _ _ => exact absurd hr (XdrType.asDiscriminant_reference_ne _ _)
  | next htarget _ ih =>
    cases h' with
    | here hr' => exact absurd hr' (XdrType.asDiscriminant_reference_ne _ _)
    | next htarget' hrest' =>
      obtain rfl := Option.some_inj.mp (htarget.symm.trans htarget')
      obtain ⟨rfl, rfl⟩ := ih hrest'
      exact ⟨rfl, rfl⟩

/-- The way goes on from each name on it. -/
theorem exists_suffix (h : Leads types t path r) {n : String} (hn : n ∈ path) :
    ∃ before after, path = before ++ n :: after ∧ Leads types (.reference n) (n :: after) r := by
  induction h with
  | here _ => exact absurd hn List.not_mem_nil
  | @next name target r path htarget hrest ih =>
    rcases List.mem_cons.mp hn with rfl | hn
    · exact ⟨[], path, rfl, .next htarget hrest⟩
    · obtain ⟨before, after, rfl, hsuffix⟩ := ih hn
      exact ⟨name :: before, after, rfl, hsuffix⟩

/-- No name is on the way twice: the two ways from it would differ in length. -/
theorem nodup (h : Leads types t path r) : path.Nodup := by
  induction h with
  | here _ => exact List.nodup_nil
  | @next name target r path htarget hrest ih =>
    refine List.nodup_cons.mpr ⟨?_, ih⟩
    intro hname
    obtain ⟨before, after, hpath, hsuffix⟩ := hrest.exists_suffix hname
    obtain ⟨hsame, -⟩ := hsuffix.unique (.next htarget hrest)
    have hlength := congrArg List.length hsame
    rw [hpath] at hlength
    simp only [List.length_cons, List.length_append] at hlength
    omega

theorem ne_union (h : Leads types t path r) (decl : UnionDecl) : t ≠ .union decl := by
  rintro rfl
  cases h with
  | here hr => exact XdrType.asDiscriminant_union_ne _ _ hr

end Leads

/-! ## The search finds the way -/

theorem leads_of_resolveThrough {types fresh : Table String XdrType} {t r : XdrType}
    {done : List String} (hfresh : Remains types done fresh)
    (h : resolveThrough types fresh t = .ok r) : ∃ path, Leads types t path r := by
  fun_induction resolveThrough types fresh t generalizing done with
  | case1 fresh name entry hentry target htarget ih =>
    obtain ⟨-, hget⟩ := hfresh.get?_eq_some hentry
    obtain ⟨path, hpath⟩ := ih (hfresh.erase name) h
    refine ⟨name :: path, .next ?_ hpath⟩
    rw [Table.defined?, hget, Option.bind_some, htarget]
  | case2 fresh name entry hentry hnone => cases h
  | case3 fresh name hentry entry hget => cases h
  | case4 fresh name hentry hget => cases h
  | case5 fresh t ht => exact ⟨[], .here h⟩

theorem resolveThrough_reference {types fresh : Table String XdrType} {name : String}
    {entry target : XdrType} (hentry : fresh.get? name = some entry)
    (htarget : entry.defined? = some target) :
    resolveThrough types fresh (.reference name) =
      resolveThrough types (fresh.erase name) target := by
  rw [resolveThrough]
  split
  · next entry' hentry' =>
    obtain rfl := Option.some_inj.mp (hentry.symm.trans hentry')
    simp only [htarget]
  · next hnone => exact absurd (hentry.symm.trans hnone) (by simp)

theorem Leads.resolveThrough {types fresh : Table String XdrType} {t r : XdrType}
    {path done : List String} (h : Leads types t path r) (hfresh : Remains types done fresh)
    (hdone : ∀ n ∈ path, n ∉ done) : XdrCompiler.resolveThrough types fresh t = .ok r := by
  have hnodup := h.nodup
  induction h generalizing fresh done with
  | @here t r hr =>
    cases t with
    | reference name => exact absurd hr (XdrType.asDiscriminant_reference_ne _ _)
    | _ =>
      rw [XdrCompiler.resolveThrough]
      · exact hr
      · intro name hname
        cases hname
  | @next name target r path htarget hrest ih =>
    obtain ⟨hname, hnodup⟩ := List.nodup_cons.mp hnodup
    obtain ⟨entry, hentry, hdefined⟩ := Option.bind_eq_some_iff.mp htarget
    have hget : fresh.get? name = some entry := by
      rw [hfresh name, if_neg (hdone name List.mem_cons_self)]
      exact hentry
    rw [resolveThrough_reference hget hdefined]
    refine ih (hfresh.erase name) ?_ hnodup
    intro n hn hmem
    rcases List.mem_cons.mp hmem with rfl | hmem
    · exact hname hn
    · exact hdone n (List.mem_cons_of_mem name hn) hmem

/-- A discriminant resolves exactly if some way leads from it. -/
theorem resolveDiscriminant_eq_ok_iff {types : Table String XdrType} {t r : XdrType} :
    resolveDiscriminant types t = .ok r ↔ ∃ path, Leads types t path r := by
  constructor
  · exact leads_of_resolveThrough (Remains.start types)
  · rintro ⟨path, h⟩
    exact h.resolveThrough (Remains.start types) fun n _ => List.not_mem_nil

/-! ## Tables with the same entries besides unions -/

/-- Every entry of the first table that is no union is an entry of the second. -/
def BasesIn (types types' : Table String XdrType) : Prop :=
  ∀ n t, (∀ decl, t ≠ .union decl) → types.get? n = some t → types'.get? n = some t

theorem Leads.mono {types types' : Table String XdrType} {t r : XdrType} {path : List String}
    (h : Leads types t path r) (hbases : BasesIn types types') : Leads types' t path r := by
  induction h with
  | here hr => exact .here hr
  | @next name target r path htarget hrest ih =>
    obtain ⟨entry, hentry, hdefined⟩ := Option.bind_eq_some_iff.mp htarget
    obtain rfl := XdrType.eq_of_defined?_eq_some hdefined
    refine .next ?_ ih
    rw [Table.defined?, hbases name _ hrest.ne_union hentry, Option.bind_some, hdefined]

theorem resolveDiscriminant_mono {types types' : Table String XdrType} {t r : XdrType}
    (hbases : BasesIn types types') (h : resolveDiscriminant types t = .ok r) :
    resolveDiscriminant types' t = .ok r := by
  obtain ⟨path, hpath⟩ := resolveDiscriminant_eq_ok_iff.mp h
  exact resolveDiscriminant_eq_ok_iff.mpr ⟨path, hpath.mono hbases⟩

end XdrCompiler
