/-
# XdrCompiler.Proofs.MoreBoxing -- boxing more types does no harm

Two builders that differ in their boxed beginnings only, the second boxing
whatever the first does, stay side by side through all registrations and through
the build. They fail at the same place with the same failure, and what they put
under a name differs at most in what is behind a pointer: it needs the same names,
and what boxes more holds less (`BoxedMore`). Nothing in the compiler asks a
declaration for more than that, so no later step can tell the two runs apart.

Hence the search for main types cannot either, and every step by value that is
left with more boxes was there with fewer. The types that contain each other do so
already with fewer boxes, and are in one group there (`more_boxing_harmless`).
-/
import XdrCompiler.Proofs.Building
import XdrCompiler.Proofs.Compiled
import XdrCompiler.Proofs.CyclicComponents
import XdrCompiler.Proofs.LeastClosure

namespace XdrCompiler

open Relation (TransGen)

/-! ## Two attempts side by side -/

section Alike

variable {ε α β γ δ : Type} {R : α → β → Prop} {S : γ → δ → Prop}
  {x : Except ε α} {y : Except ε β}

/-- Both attempts fail for the same reason, or both succeed with related results. -/
inductive Alike (R : α → β → Prop) : Except ε α → Except ε β → Prop
  | error (e : ε) : Alike R (.error e) (.error e)
  | ok {a : α} {b : β} : R a b → Alike R (.ok a) (.ok b)

theorem Alike.of_eq {R : α → α → Prop} (hR : ∀ a, R a a) (x : Except ε α) : Alike R x x := by
  cases x with
  | error e => exact .error e
  | ok a => exact .ok (hR a)

theorem Alike.bind {f : α → Except ε γ} {g : β → Except ε δ} (h : Alike R x y)
    (hfg : ∀ a b, R a b → Alike S (f a) (g b)) : Alike S (x.bind f) (y.bind g) := by
  cases h with
  | error e => exact .error e
  | ok hab => exact hfg _ _ hab

theorem Alike.map {f : α → γ} {g : β → δ} (h : Alike R x y) (hfg : ∀ a b, R a b → S (f a) (g b)) :
    Alike S (x.map f) (y.map g) := by
  cases h with
  | error e => exact .error e
  | ok hab => exact .ok (hfg _ _ hab)

theorem Alike.error_iff (h : Alike R x y) (e : ε) : x = .error e ↔ y = .error e := by
  cases h with
  | error e' => rw [Except.error.injEq, Except.error.injEq]
  | ok _ => exact iff_of_false (by simp) (by simp)

theorem Alike.exists_ok_iff (h : Alike R x y) : (∃ a, x = .ok a) ↔ ∃ b, y = .ok b := by
  cases h with
  | error e => exact iff_of_false (by simp) (by simp)
  | ok _ => exact iff_of_true ⟨_, rfl⟩ ⟨_, rfl⟩

theorem Alike.of_ok {a : α} {b : β} (h : Alike R x y) (hx : x = .ok a) (hy : y = .ok b) : R a b := by
  cases h with
  | error e => cases hx
  | ok hab =>
    cases hx
    cases hy
    exact hab

end Alike

/-! ## Entries and tables -/

/-- What is in the first set is in the second. -/
def NameSet.Within (s t : NameSet) : Prop := ∀ n ∈ s, n ∈ t

/-- The second entry is the first with more of it behind pointers. -/
inductive BoxedMore : XdrType → XdrType → Prop
  | same (t : XdrType) : BoxedMore t t
  | struct {s s' : StructDecl} (referred : s'.referred = s.referred)
      (held : s'.held.Within s.held) : BoxedMore (.struct s) (.struct s')
  | union {u u' : UnionDecl} (referred : u'.referred = u.referred)
      (held : u'.held.Within u.held) : BoxedMore (.union u) (.union u')

namespace BoxedMore

variable {t t' : XdrType}

theorem dependencies (h : BoxedMore t t') : t'.dependencies = t.dependencies := by
  cases h with
  | same t => rfl
  | struct referred _ => exact referred
  | union referred _ => exact referred

theorem heldDependencies (h : BoxedMore t t') : t'.heldDependencies.Within t.heldDependencies := by
  cases h with
  | same t => exact fun n hn => hn
  | struct _ held => exact held
  | union _ held => exact held

/-- Neither a struct nor a union is something to switch on, whatever it boxes. -/
theorem asDiscriminant (h : BoxedMore t t') : t'.asDiscriminant = t.asDiscriminant := by
  cases h <;> rfl

theorem defined?_eq_none (h : BoxedMore t t') (ht : t.defined? = none) : t'.defined? = none := by
  cases h with
  | same t => exact ht
  | struct _ _ => cases ht
  | union _ _ => cases ht

theorem defined?_eq_some (h : BoxedMore t t') (ht : t.defined? = some t) :
    t'.defined? = some t' := by
  cases h with
  | same t => exact ht
  | struct _ _ => rfl
  | union _ _ => rfl

theorem eq_of_reference {name : String} (h : BoxedMore (.reference name) t') :
    t' = .reference name := by
  cases h
  rfl

theorem ne_reference (h : BoxedMore t t') (ht : ∀ name, t = .reference name → False) :
    ∀ name, t' = .reference name → False := by
  cases h with
  | same t => exact ht
  | struct _ _ => exact fun name hname => nomatch hname
  | union _ _ => exact fun name hname => nomatch hname

end BoxedMore

/-- Under each name, both tables have nothing or related entries. -/
def EntriesBoxedMore (types types' : Table String XdrType) : Prop :=
  ∀ name, Option.Rel BoxedMore (types.get? name) (types'.get? name)

namespace EntriesBoxedMore

variable {types types' : Table String XdrType} {name : String}

theorem insert (h : EntriesBoxedMore types types') (name : String) {t t' : XdrType}
    (ht : BoxedMore t t') : EntriesBoxedMore (types.insert name t) (types'.insert name t') := by
  intro n
  by_cases hn : n = name
  · subst hn
    rw [Table.get?_insert_self, Table.get?_insert_self]
    exact .some ht
  · rw [Table.get?_insert_of_ne hn, Table.get?_insert_of_ne hn]
    exact h n

theorem erase (h : EntriesBoxedMore types types') (name : String) :
    EntriesBoxedMore (types.erase name) (types'.erase name) := by
  intro n
  by_cases hn : n = name
  · subst hn
    rw [Table.get?_erase_self, Table.get?_erase_self]
    exact .none
  · rw [Table.get?_erase_of_ne hn, Table.get?_erase_of_ne hn]
    exact h n

theorem get?_eq_none (h : EntriesBoxedMore types types') (hname : types.get? name = none) :
    types'.get? name = none := by
  have hrel := h name
  rw [hname] at hrel
  cases hget : types'.get? name with
  | none => rfl
  | some t' =>
    rw [hget] at hrel
    cases hrel

theorem get?_eq_some (h : EntriesBoxedMore types types') {t : XdrType}
    (hname : types.get? name = some t) : ∃ t', types'.get? name = some t' ∧ BoxedMore t t' := by
  have hrel := h name
  rw [hname] at hrel
  cases hget : types'.get? name with
  | none =>
    rw [hget] at hrel
    cases hrel
  | some t' =>
    rw [hget] at hrel
    cases hrel with
    | some hrel => exact ⟨t', rfl, hrel⟩

end EntriesBoxedMore

/-! ## Searches do not see what is boxed -/

/-- A name is taken off the stack: it has a definition, or the search ends. -/
theorem reachFrom_cons (fresh : Table String XdrType) (name : String) (rest reached : List String) :
    reachFrom fresh (name :: rest) reached =
      match fresh.defined? name with
      | none => .error (.schema (.undefinedType name))
      | some type =>
        reachFrom (fresh.erase name) (pushFresh (name :: reached) rest type.dependencies.toList)
          (name :: reached) := by
  rw [reachFrom]
  split
  · next hname => simp only [Table.defined?, hname, Option.bind_none]
  · next entry hentry =>
    have hdefined := Table.defined?_of_get? hentry
    cases htype : entry.defined? with
    | none => simp only [hdefined, htype]
    | some type => simp only [hdefined, htype]

theorem reachFrom_boxedMore {fresh fresh' : Table String XdrType}
    (h : EntriesBoxedMore fresh fresh') (stack reached : List String) :
    reachFrom fresh' stack reached = reachFrom fresh stack reached := by
  -- Along the run with fewer boxes; stack and names reached are the same in both.
  fun_induction reachFrom fresh stack reached generalizing fresh' with
  | case1 => rw [reachFrom]
  | case2 fresh reached name rest hname =>
    rw [reachFrom_cons, Table.defined?, h.get?_eq_none hname, Option.bind_none]
  | case3 fresh reached name rest entry hentry hnone =>
    obtain ⟨entry', hentry', hboxed⟩ := h.get?_eq_some hentry
    rw [reachFrom_cons, Table.defined?_of_get? hentry', hboxed.defined?_eq_none hnone]
  | case4 fresh reached name rest entry hentry type htype ih =>
    obtain ⟨entry', hentry', hboxed⟩ := h.get?_eq_some hentry
    obtain rfl := XdrType.eq_of_defined?_eq_some htype
    rw [reachFrom_cons, Table.defined?_of_get? hentry', hboxed.defined?_eq_some htype]
    simp only [hboxed.dependencies]
    exact ih (h.erase name)

theorem reachable_boxedMore {types types' : Table String XdrType}
    (h : EntriesBoxedMore types types') (roots : List String) :
    reachable types' roots = reachable types roots := by
  rw [reachable, reachFrom_boxedMore h, reachable]

theorem resolveThrough_boxedMore {types types' fresh fresh' : Table String XdrType}
    (htypes : EntriesBoxedMore types types') (hfresh : EntriesBoxedMore fresh fresh')
    {t t' : XdrType} (ht : BoxedMore t t') :
    resolveThrough types' fresh' t' = resolveThrough types fresh t := by
  -- The entries that the two runs are at may differ, but only where both of them stop.
  fun_induction resolveThrough types fresh t generalizing fresh' t' with
  | case1 fresh name entry hentry target htarget ih =>
    obtain ⟨entry', hentry', hboxed⟩ := hfresh.get?_eq_some hentry
    obtain rfl := XdrType.eq_of_defined?_eq_some htarget
    rw [ht.eq_of_reference, resolveThrough_reference hentry' (hboxed.defined?_eq_some htarget)]
    exact ih (hfresh.erase name) hboxed
  | case2 fresh name entry hentry hnone =>
    obtain ⟨entry', hentry', hboxed⟩ := hfresh.get?_eq_some hentry
    rw [ht.eq_of_reference, resolveThrough]
    split
    · next e he =>
      obtain rfl := Option.some_inj.mp (hentry'.symm.trans he)
      rw [hboxed.defined?_eq_none hnone]
    · next he => exact absurd (hentry'.symm.trans he) (by simp)
  | case3 fresh name hentry entry hget =>
    obtain ⟨entry', hget', -⟩ := htypes.get?_eq_some hget
    rw [ht.eq_of_reference, resolveThrough]
    split
    · next e he => exact absurd (hfresh.get?_eq_none hentry) (by simp [he])
    · rw [hget']
  | case4 fresh name hentry hget =>
    rw [ht.eq_of_reference, resolveThrough]
    split
    · next e he => exact absurd (hfresh.get?_eq_none hentry) (by simp [he])
    · rw [htypes.get?_eq_none hget]
  | case5 fresh t hreference =>
    rw [resolveThrough, ht.asDiscriminant]
    exact ht.ne_reference hreference

theorem resolveDiscriminant_boxedMore {types types' : Table String XdrType}
    (h : EntriesBoxedMore types types') (switchOn : XdrType) :
    resolveDiscriminant types' switchOn = resolveDiscriminant types switchOn :=
  resolveThrough_boxedMore h h (.same switchOn)

/-! ## Compiling side by side -/

theorem startsWithAny_mono {beginnings beginnings' : List String} (h : beginnings ⊆ beginnings')
    {s : String} (hs : startsWithAny beginnings s = true) :
    startsWithAny beginnings' s = true := by
  obtain ⟨b, hb, hstarts⟩ := List.any_eq_true.mp hs
  exact List.any_eq_true.mpr ⟨b, h hb, hstarts⟩

/-- Whether a first field is boxed has no part in whether the fields compile. -/
theorem FieldDecl.compileAll_alike (owner : String) (boxed boxed' : Bool)
    (fields : List (String × XdrType)) :
    Alike (fun _ _ => True) (FieldDecl.compileAll owner boxed fields)
      (FieldDecl.compileAll owner boxed' fields) := by
  cases fields with
  | nil => exact .ok trivial
  | cons field rest =>
    -- The fields after the first are never boxed, so these are two equal attempts.
    refine Alike.bind (R := fun _ _ => True) ?_ fun _ _ _ => ?_
    · exact (Alike.of_eq (R := fun _ _ => True) (fun _ => trivial) _).map fun _ _ _ => trivial
    · exact (Alike.of_eq (R := fun _ _ => True) (fun _ => trivial) _).bind fun _ _ _ => .ok trivial

/-- What a member holds when it is stored as it is, and nothing when it is boxed. -/
theorem within_of_boxed {boxed boxed' : Bool} (h : boxed = true → boxed' = true) (held : NameSet) :
    (if boxed' then .empty else held).Within (if boxed then .empty else held) := by
  intro n hn
  cases boxed' with
  | true => exact absurd hn (by simp)
  | false =>
    cases boxed with
    | true => exact absurd (h rfl) (by simp)
    | false => exact hn

theorem heldByFields_within (owner : String) {boxed boxed' : Bool}
    (h : boxed = true → boxed' = true) (fields : List (String × XdrType)) :
    (NameSet.unionAll (heldByFields owner boxed' fields)).Within
      (NameSet.unionAll (heldByFields owner boxed fields)) := by
  cases fields with
  | nil => exact fun n hn => hn
  | cons field rest =>
    intro n hn
    rw [NameSet.mem_unionAll] at hn ⊢
    obtain ⟨held, hheld, hn⟩ := hn
    rcases List.mem_cons.mp hheld with rfl | hheld
    · exact ⟨_, List.mem_cons_self, within_of_boxed h _ n hn⟩
    · exact ⟨held, List.mem_cons_of_mem _ hheld, hn⟩

/-- A variant of the same name, which holds no more. -/
def VariantBoxedMore (c c' : Variant × NameSet) : Prop :=
  c'.1.ident = c.1.ident ∧ c'.2.Within c.2

theorem unionAll_within_of_forall₂ {compiled compiled' : List (Variant × NameSet)}
    (h : List.Forall₂ VariantBoxedMore compiled compiled') :
    (NameSet.unionAll (compiled'.map Prod.snd)).Within
      (NameSet.unionAll (compiled.map Prod.snd)) := by
  intro n hn
  rw [NameSet.mem_unionAll] at hn ⊢
  obtain ⟨held', hheld', hn⟩ := hn
  obtain ⟨c', hc', rfl⟩ := List.mem_map.mp hheld'
  obtain ⟨c, hc, -, hwithin⟩ := exists_source_of_mem h hc'
  exact ⟨c.2, List.mem_map_of_mem hc, hwithin n hn⟩

theorem any_ident_of_forall₂ {compiled compiled' : List (Variant × NameSet)}
    (h : List.Forall₂ VariantBoxedMore compiled compiled') (ident : String) :
    (compiled'.map Prod.fst).any (·.ident == ident) =
      (compiled.map Prod.fst).any (·.ident == ident) := by
  induction h with
  | nil => rfl
  | cons hc _ ih =>
    rw [List.map_cons, List.map_cons, List.any_cons, List.any_cons, hc.1, ih]

/-- The tables have the same names in the same order, and related entries. -/
structure TableBoxedMore (types types' : Table String XdrType) : Prop where
  keys : types'.keys = types.keys
  entries : EntriesBoxedMore types types'

theorem TableBoxedMore.insert {types types' : Table String XdrType}
    (h : TableBoxedMore types types') (name : String) {t t' : XdrType} (ht : BoxedMore t t') :
    TableBoxedMore (types.insert name t) (types'.insert name t') :=
  ⟨by rw [Table.keys_insert, Table.keys_insert, h.keys], h.entries.insert name ht⟩

section Compile

variable {beginnings beginnings' : List String} (hbeginnings : beginnings ⊆ beginnings')
include hbeginnings

theorem StructDecl.compile_alike (name : String) (fields : List (String × XdrType)) :
    Alike (fun s s' : StructDecl => BoxedMore (.struct s) (.struct s'))
      (StructDecl.compile beginnings name fields) (StructDecl.compile beginnings' name fields) := by
  refine Alike.bind (FieldDecl.compileAll_alike name _ _ fields) fun _ _ _ => .ok ?_
  exact .struct rfl (heldByFields_within name (startsWithAny_mono hbeginnings) fields)

theorem Variant.compile_alike (unionName : String) (d : UnionDefinition) (value : SwitchValue)
    (arm : Arm) :
    Alike VariantBoxedMore (Variant.compile beginnings unionName d value arm)
      (Variant.compile beginnings' unionName d value arm) := by
  unfold Variant.compile
  cases arm with
  | empty => exact .ok ⟨rfl, fun n hn => hn⟩
  | foreign => exact .error _
  | named key =>
    dsimp only
    cases d.payload? key with
    | none => exact .error _
    | some payload =>
      refine Alike.map (Alike.of_eq (fun _ => rfl) (payload.toMember unionName)) ?_
      rintro type _ rfl
      exact ⟨rfl, within_of_boxed (startsWithAny_mono hbeginnings) _⟩

theorem Variant.compileAll_alike (unionName : String) (d : UnionDefinition) (taken : List String)
    (switches : List (SwitchValue × Arm)) :
    Alike (List.Forall₂ VariantBoxedMore)
      (Variant.compileAll beginnings unionName d taken switches)
      (Variant.compileAll beginnings' unionName d taken switches) := by
  induction switches generalizing taken with
  | nil => exact .ok .nil
  | cons s rest ih =>
    obtain ⟨value, arm⟩ := s
    rw [Variant.compileAll, Variant.compileAll]
    by_cases htaken : value.ident ∈ taken
    · rw [if_pos htaken, if_pos htaken]
      exact .error _
    · rw [if_neg htaken, if_neg htaken]
      refine Alike.bind (Variant.compile_alike hbeginnings unionName d value arm) ?_
      intro c c' hc
      refine Alike.bind (ih _) ?_
      intro others others' hothers
      exact .ok (.cons hc hothers)

theorem UnionDecl.compile_alike (name : String) (d : UnionDefinition) (resolved : XdrType) :
    Alike (fun u u' : UnionDecl => BoxedMore (.union u) (.union u'))
      (UnionDecl.compile beginnings name d resolved)
      (UnionDecl.compile beginnings' name d resolved) := by
  rw [UnionDecl.compile_eq, UnionDecl.compile_eq]
  refine Alike.bind (Alike.of_eq (fun _ => rfl) d.switchOn.toRust) ?_
  rintro discriminant _ rfl
  by_cases hpayload : d.defaultHasPayload = true
  · rw [if_pos hpayload, if_pos hpayload]
    exact .error _
  · rw [if_neg hpayload, if_neg hpayload]
    refine Alike.bind (Variant.compileAll_alike hbeginnings name d [] d.switches) ?_
    intro compiled compiled' hcompiled
    -- The last check asks for the names of the variants only.
    rw [any_ident_of_forall₂ hcompiled]
    split
    · exact .error _
    · refine .ok (.union rfl ?_)
      intro n hn
      rw [NameSet.mem_union] at hn ⊢
      exact hn.imp_right (unionAll_within_of_forall₂ hcompiled n)

namespace Builder

theorem compileUnion_alike {types types' : Table String XdrType}
    (h : EntriesBoxedMore types types') (name : String) (definition : Option UnionDefinition) :
    Alike (fun u u' : UnionDecl => BoxedMore (.union u) (.union u'))
      (compileUnion beginnings types name definition)
      (compileUnion beginnings' types' name definition) := by
  cases definition with
  | none => exact .error _
  | some d =>
    unfold compileUnion
    dsimp only
    rw [resolveDiscriminant_boxedMore h]
    refine Alike.bind (Alike.of_eq (fun _ => rfl) (resolveDiscriminant types d.switchOn)) ?_
    rintro resolved _ rfl
    exact UnionDecl.compile_alike hbeginnings name d resolved

/-- Both builds stop at the same union, or neither does. -/
theorem compilePending_boxedMore {types types' : Table String XdrType}
    (h : TableBoxedMore types types') (pending : List (String × Option UnionDefinition)) :
    TableBoxedMore (compilePending beginnings types pending).1
        (compilePending beginnings' types' pending).1 ∧
      (compilePending beginnings' types' pending).2 =
        (compilePending beginnings types pending).2 := by
  induction pending generalizing types types' with
  | nil => exact ⟨h, rfl⟩
  | cons q rest ih =>
    have halike := compileUnion_alike hbeginnings h.entries q.1 q.2
    cases hu : compileUnion beginnings types q.1 q.2 with
    | error failure =>
      rw [compilePending_cons_error hu, compilePending_cons_error ((halike.error_iff failure).mp hu)]
      exact ⟨h, rfl⟩
    | ok u =>
      obtain ⟨u', hu'⟩ := halike.exists_ok_iff.mp ⟨u, hu⟩
      rw [compilePending_cons_ok hu, compilePending_cons_ok hu']
      exact ih (h.insert q.1 (halike.of_ok hu hu'))

end Builder

end Compile

/-! ## Builders side by side -/

/-- The second schema is the first with more of it behind pointers. -/
structure SchemaBoxedMore (schema schema' : Schema) : Prop where
  types : TableBoxedMore schema.types schema'.types
  constants : schema'.constants = schema.constants

namespace Builder

/-- The second builder boxes more, and the same was registered with both. -/
structure BoxesMore (b b' : Builder) : Prop where
  beginnings : b.boxedBeginnings ⊆ b'.boxedBeginnings
  types : TableBoxedMore b.types b'.types
  constants : b'.constants = b.constants
  pending : b'.pending = b.pending

namespace BoxesMore

variable {b b' : Builder}

theorem register (h : BoxesMore b b') (r : Registration) :
    Alike BoxesMore (b.register r) (b'.register r) := by
  cases r with
  | typeAlias name type => exact .ok { h with types := h.types.insert name (.same type) }
  | enum name cases => exact .ok { h with types := h.types.insert name (.same _) }
  | struct name fields =>
    refine (StructDecl.compile_alike h.beginnings name fields).map ?_
    intro decl decl' hdecl
    exact { h with types := h.types.insert name hdecl }
  | union name definition =>
    refine .ok { h with pending := ?_ }
    rw [h.pending]
  | constant name value =>
    refine .ok { h with constants := ?_ }
    rw [h.constants]
  | failing failure => exact .error failure

theorem registerAll (h : BoxesMore b b') (registrations : List Registration) :
    Alike BoxesMore (b.registerAll registrations) (b'.registerAll registrations) := by
  induction registrations generalizing b b' with
  | nil => exact .ok h
  | cons r rest ih => exact (h.register r).bind fun _ _ hnext => ih hnext

theorem build (h : BoxesMore b b') : Alike SchemaBoxedMore b.build.2 b'.build.2 := by
  obtain ⟨htypes, hfailure⟩ := compilePending_boxedMore h.beginnings h.types b.pending
  cases hdone : (compilePending b.boxedBeginnings b.types b.pending).2 with
  | none =>
    have hdone' : (compilePending b'.boxedBeginnings b'.types b'.pending).2 = none := by
      rw [h.pending, hfailure, hdone]
    rw [build_of_eq_none hdone, build_of_eq_none hdone']
    exact .ok ⟨h.pending ▸ htypes, h.constants⟩
  | some failure =>
    have hdone' : (compilePending b'.boxedBeginnings b'.types b'.pending).2 = some failure := by
      rw [h.pending, hfailure, hdone]
    rw [build_of_eq_some hdone, build_of_eq_some hdone']
    exact .error failure

theorem new {beginnings beginnings' : List String} (h : beginnings ⊆ beginnings') :
    BoxesMore (Builder.new beginnings) (Builder.new beginnings') :=
  ⟨h, ⟨rfl, fun _ => .none⟩, rfl, rfl⟩

end BoxesMore

end Builder

theorem ofRegistrations_alike {beginnings beginnings' : List String}
    (h : beginnings ⊆ beginnings') (registrations : List Registration) :
    Alike SchemaBoxedMore (Schema.ofRegistrations beginnings registrations)
      (Schema.ofRegistrations beginnings' registrations) :=
  ((Builder.BoxesMore.new h).registerAll registrations).bind fun _ _ hb => hb.build

/-! ## Cycles -/

namespace TableBoxedMore

variable {types types' : Table String XdrType}

/-- A type that is contained in spite of more boxes is contained with fewer. -/
theorem contains (h : TableBoxedMore types types') {a b : String} (hab : Contains types' a b) :
    Contains types a b := by
  obtain ⟨hb, t', ht', hheld⟩ := hab
  refine ⟨h.keys ▸ hb, ?_⟩
  cases ht : types.get? a with
  | none => exact absurd (h.entries.get?_eq_none ht) (by simp [ht'])
  | some t =>
    obtain ⟨t'', ht'', hboxed⟩ := h.entries.get?_eq_some ht
    obtain rfl := Option.some_inj.mp (ht''.symm.trans ht')
    exact ⟨t, rfl, hboxed.heldDependencies b hheld⟩

theorem transGen_contains (h : TableBoxedMore types types') {a b : String}
    (hab : TransGen (Contains types') a b) : TransGen (Contains types) a b :=
  TransGen.mono (fun _ _ => h.contains) a b hab

theorem exists_group (h : TableBoxedMore types types') {g' : List String}
    (hg' : g' ∈ unboxedCycles types') : ∃ g ∈ unboxedCycles types, g' ⊆ g := by
  obtain ⟨name, hname, -, hmem'⟩ := exists_of_mem_unboxedCycles hg'
  -- The first member of the group is on a cycle with fewer boxes, so it is in a group there.
  obtain ⟨hcycle, -⟩ := (hmem' name).mp hname
  obtain ⟨g, hg, hgname⟩ := exists_group_of_cycle (h.transGen_contains hcycle)
  obtain ⟨first, -, -, hmem⟩ := exists_of_mem_unboxedCycles hg
  obtain ⟨hto, hfrom⟩ := (hmem name).mp hgname
  refine ⟨g, hg, fun a ha => ?_⟩
  obtain ⟨hna, han⟩ := (hmem' a).mp ha
  exact (hmem a).mpr ⟨hto.trans (h.transGen_contains hna), (h.transGen_contains han).trans hfrom⟩

end TableBoxedMore

/-! ## Boxing more -/

theorem EntriesBoxedMore.dependencies {types types' : Table String XdrType}
    (h : EntriesBoxedMore types types') (name : String) :
    (types'.get? name).map XdrType.dependencies = (types.get? name).map XdrType.dependencies := by
  cases ht : types.get? name with
  | none => rw [h.get?_eq_none ht]
  | some t =>
    obtain ⟨t', ht', hboxed⟩ := h.get?_eq_some ht
    rw [ht', Option.map_some, Option.map_some, hboxed.dependencies]

/-- What a schema has in common with one that is built with more boxes, and what gets less. -/
structure NoWorse (schema schema' : Schema) : Prop where
  keys : schema'.types.keys = schema.types.keys
  constants : schema'.constants = schema.constants
  dependencies : ∀ name, (schema'.types.get? name).map XdrType.dependencies =
    (schema.types.get? name).map XdrType.dependencies
  /-- The same main types after the same number of steps, or the same failure. -/
  reachable : ∀ roots, reachable schema'.types roots = reachable schema.types roots
  cycles : ∀ g' ∈ unboxedCycles schema'.types, ∃ g ∈ unboxedCycles schema.types, g' ⊆ g

theorem SchemaBoxedMore.noWorse {schema schema' : Schema} (h : SchemaBoxedMore schema schema') :
    NoWorse schema schema' where
  keys := h.types.keys
  constants := h.constants
  dependencies := h.types.entries.dependencies
  reachable := reachable_boxedMore h.types.entries
  cycles _ := h.types.exists_group

/-- Whatever is registered, boxing more families changes neither whether the schema can be
built nor the failure if it cannot, and a schema that is built with more boxes needs the same
types and has no cycle by value that was not there with fewer. -/
theorem more_boxing_harmless {beginnings beginnings' : List String}
    (h : beginnings ⊆ beginnings') (registrations : List Registration) :
    ((∃ schema, Schema.ofRegistrations beginnings registrations = .ok schema) ↔
      ∃ schema', Schema.ofRegistrations beginnings' registrations = .ok schema') ∧
    (∀ failure, Schema.ofRegistrations beginnings registrations = .error failure ↔
      Schema.ofRegistrations beginnings' registrations = .error failure) ∧
    ∀ schema schema', Schema.ofRegistrations beginnings registrations = .ok schema →
      Schema.ofRegistrations beginnings' registrations = .ok schema' → NoWorse schema schema' := by
  have halike := ofRegistrations_alike h registrations
  refine ⟨halike.exists_ok_iff, halike.error_iff, ?_⟩
  intro schema schema' hschema hschema'
  exact (halike.of_ok hschema hschema').noWorse

/-- Two structs that hold each other and themselves. -/
def entangledRegistrations : List Registration :=
  [.struct "Tree" [("leaf", .reference "Leaf"), ("next", .reference "Tree")],
   .struct "Leaf" [("tree", .reference "Tree"), ("own", .reference "Leaf")]]

/-- The steps by value that are left when the given families are boxed. -/
def containedBoxing (beginnings : List String) (registrations : List Registration) :
    Option (List (String × List String)) :=
  match Schema.ofRegistrations beginnings registrations with
  | .ok schema => some (containedIn schema.types).entries
  | .error _ => none

/-- Boxing the trees cuts the way from a tree to its leaf, and the one group in two. -/
theorem more_boxing_harmless_entangled :
    containedBoxing ["Leafy"] entangledRegistrations =
      some [("Tree", ["Leaf", "Tree"]), ("Leaf", ["Leaf", "Tree"])] ∧
    containedBoxing ["Tree", "Leafy"] entangledRegistrations =
      some [("Tree", ["Tree"]), ("Leaf", ["Leaf", "Tree"])] ∧
    ∃ schema schema', Schema.ofRegistrations ["Leafy"] entangledRegistrations = .ok schema ∧
      Schema.ofRegistrations ["Tree", "Leafy"] entangledRegistrations = .ok schema' ∧
      NoWorse schema schema' := by
  obtain ⟨schema, hschema⟩ := exists_eq_ok_of_toBool
    (x := Schema.ofRegistrations ["Leafy"] entangledRegistrations) (by decide +kernel)
  have hmore : ["Leafy"] ⊆ ["Tree", "Leafy"] := by decide
  obtain ⟨hiff, -, hcommon⟩ := more_boxing_harmless hmore entangledRegistrations
  obtain ⟨schema', hschema'⟩ := hiff.mp ⟨schema, hschema⟩
  exact ⟨by decide +kernel, by decide +kernel, schema, schema', hschema, hschema',
    hcommon schema schema' hschema hschema'⟩

end XdrCompiler
