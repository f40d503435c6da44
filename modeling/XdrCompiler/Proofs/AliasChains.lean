/-
# XdrCompiler.Proofs.AliasChains -- how the aliases of a discriminant end

`chain` follows a type from reference to reference, without a memory of the names
visited and for as long as there is something to follow. There are four ways for
it to go on (`ChainEnds`): to a type that a union can switch on, to any other
type, to a name that is not defined, or on and on. In a finite table it can only
go on and on by coming back to a name, and then the names repeat from there.

The search of the compiler visits every name once. The main statement,
`alias_chain_answered`, says that each chain goes exactly one of the four ways and
that the search gives the answer for it, with the name at fault: the first one
without a definition, or the first one that is visited twice. How long the loop is
and how far from the start it is entered makes no difference.
-/
import XdrCompiler.Proofs.Resolution
import XdrCompiler.Schema.Enum

namespace XdrCompiler

/-! ## Chains -/

/-- What a reference stands for. Other types stand for themselves, and there is nothing to
follow. -/
def XdrType.followed? (types : Table String XdrType) : XdrType → Option XdrType
  | .reference name => types.defined? name
  | _ => none

/-- The type after `n` references from `t`, if the chain goes that far. -/
def chain (types : Table String XdrType) (t : XdrType) : Nat → Option XdrType
  | 0 => some t
  | n + 1 => (chain types t n).bind (XdrType.followed? types)

section Chain

variable {types : Table String XdrType} {t r r' : XdrType} {name : String} {i m n : Nat}

theorem followed?_eq_some_iff :
    r.followed? types = some r' ↔ ∃ name, r = .reference name ∧ types.defined? name = some r' := by
  cases r <;> simp [XdrType.followed?]

theorem chain_succ_eq_some_iff :
    chain types t (n + 1) = some r ↔
      ∃ name, chain types t n = some (.reference name) ∧ types.defined? name = some r := by
  rw [chain, Option.bind_eq_some_iff]
  constructor
  · rintro ⟨s, hs, hfollowed⟩
    obtain ⟨name, rfl, htarget⟩ := followed?_eq_some_iff.mp hfollowed
    exact ⟨name, hs, htarget⟩
  · rintro ⟨name, hname, htarget⟩
    exact ⟨.reference name, hname, htarget⟩

theorem chain_eq_none_of_le (h : chain types t m = none) (hmn : m ≤ n) :
    chain types t n = none := by
  obtain ⟨k, rfl⟩ := Nat.exists_eq_add_of_le hmn
  induction k with
  | zero => exact h
  | succ k ih =>
    show (chain types t (m + k)).bind _ = none
    rw [ih (by omega), Option.bind_none]

/-- All types of a chain but the last one are references. -/
theorem exists_reference_of_lt (h : chain types t n = some r) (hmn : m < n) :
    ∃ name, chain types t m = some (.reference name) := by
  cases hnext : chain types t (m + 1) with
  | none => exact absurd (chain_eq_none_of_le hnext hmn) (by simp [h])
  | some s =>
    obtain ⟨name, hname, -⟩ := chain_succ_eq_some_iff.mp hnext
    exact ⟨name, hname⟩

/-- From where a chain comes back to a type it repeats itself. -/
theorem chain_add_eq (h : chain types t m = chain types t n) (k : Nat) :
    chain types t (m + k) = chain types t (n + k) := by
  induction k with
  | zero => exact h
  | succ k ih =>
    show (chain types t (m + k)).bind _ = (chain types t (n + k)).bind _
    rw [ih]

/-- The chain never ends. -/
def Endless (types : Table String XdrType) (t : XdrType) : Prop :=
  ∀ n, ∃ name, chain types t n = some (.reference name)

/-- A chain that comes back to a reference never ends. -/
theorem endless_of_repeat (hin : i < n) (hi : chain types t i = some (.reference name))
    (hn : chain types t n = some (.reference name)) : Endless types t := by
  intro m
  -- Behind the first round, every place has one like it that comes earlier.
  induction m using Nat.strongRecOn with
  | ind m ih =>
    rcases Nat.lt_or_ge m n with hlt | hge
    · exact exists_reference_of_lt hn hlt
    · obtain ⟨k, rfl⟩ := Nat.exists_eq_add_of_le hge
      rw [← chain_add_eq (hi.trans hn.symm) k]
      apply ih
      omega

/-- The chain ends after `n` references. -/
def EndsAfter (types : Table String XdrType) (t : XdrType) (n : Nat) : Prop :=
  chain types t n ≠ none ∧ chain types t (n + 1) = none

theorem EndsAfter.eq (hm : EndsAfter types t m) (hn : EndsAfter types t n) : m = n := by
  apply Nat.le_antisymm
  · by_contra hlt
    exact hm.1 (chain_eq_none_of_le hn.2 (by omega))
  · by_contra hlt
    exact hn.1 (chain_eq_none_of_le hm.2 (by omega))

theorem EndsAfter.not_endless (h : EndsAfter types t n) : ¬Endless types t := by
  intro hendless
  obtain ⟨name, hname⟩ := hendless (n + 1)
  rw [h.2] at hname
  cases hname

/-- After `n` references the chain is at the name `name` for the second time, and it was at no
name twice before. -/
structure FirstRepeat (types : Table String XdrType) (t : XdrType) (n : Nat) (name : String) :
    Prop where
  here : chain types t n = some (.reference name)
  before : ∃ i < n, chain types t i = some (.reference name)
  fresh : ∀ j < n, ∀ i < j, chain types t i ≠ chain types t j

theorem FirstRepeat.le {name' : String} (h : FirstRepeat types t m name)
    (h' : FirstRepeat types t n name') : m ≤ n := by
  by_contra hlt
  obtain ⟨i, hin, hi⟩ := h'.before
  exact h.fresh n (by omega) i hin (hi.trans h'.here.symm)

end Chain

/-! ## The four ways -/

/-- The types that a union can switch on. -/
def XdrType.CanSwitch (t : XdrType) : Prop :=
  t = .int ∨ t = .uint ∨ t = .hyper ∨ t = .uhyper ∨ t = .bool ∨ ∃ decl, t = .enum decl

/-- How a chain of references can go on. -/
inductive ChainEnd
  /-- To a type that a union can switch on. -/
  | discriminant (type : XdrType)
  /-- To a type of another kind. -/
  | otherKind (kind : String)
  /-- To a name that is not defined. -/
  | undefined (name : String)
  /-- On and on, with `name` as the first that is visited twice. -/
  | loop (name : String)

/-- What the last type of a chain makes of it. -/
inductive LastType (types : Table String XdrType) : XdrType → ChainEnd → Prop
  | discriminant {t : XdrType} : t.CanSwitch → LastType types t (.discriminant t)
  | otherKind {t : XdrType} {kind : String} : (∀ name, t ≠ .reference name) → ¬t.CanSwitch →
      t.kind? = some kind → LastType types t (.otherKind kind)
  | undefined {name : String} : types.defined? name = none →
      LastType types (.reference name) (.undefined name)

/-- The chain from `t` goes on in the given way. -/
inductive ChainEnds (types : Table String XdrType) (t : XdrType) : ChainEnd → Prop
  | ends {n : Nat} {r : XdrType} {way : ChainEnd} :
      chain types t n = some r → LastType types r way → ChainEnds types t way
  | endless {n : Nat} {name : String} :
      Endless types t → FirstRepeat types t n name → ChainEnds types t (.loop name)

section Ways

variable {types : Table String XdrType} {t r : XdrType} {way way' : ChainEnd} {n : Nat}

theorem LastType.followed?_eq_none (h : LastType types r way) : r.followed? types = none := by
  cases h with
  | discriminant hr => rcases hr with rfl | rfl | rfl | rfl | rfl | ⟨decl, rfl⟩ <;> rfl
  | otherKind hr _ _ =>
    by_contra hsome
    obtain ⟨s, hs⟩ := Option.ne_none_iff_exists'.mp hsome
    obtain ⟨name, rfl, -⟩ := followed?_eq_some_iff.mp hs
    exact hr name rfl
  | undefined hname => exact hname

theorem LastType.unique (h : LastType types r way) (h' : LastType types r way') : way = way' := by
  cases h with
  | discriminant hr =>
    cases h' with
    | discriminant _ => rfl
    | otherKind _ hother _ => exact absurd hr hother
    | undefined _ => simp [XdrType.CanSwitch] at hr
  | otherKind hr hother hkind =>
    cases h' with
    | discriminant hr' => exact absurd hr' hother
    | otherKind _ _ hkind' => rw [Option.some_inj.mp (hkind.symm.trans hkind')]
    | undefined _ => exact absurd rfl (hr _)
  | undefined _ =>
    cases h' with
    | discriminant hr => simp [XdrType.CanSwitch] at hr
    | otherKind hr _ _ => exact absurd rfl (hr _)
    | undefined _ => rfl

theorem LastType.endsAfter (h : LastType types r way) (hr : chain types t n = some r) :
    EndsAfter types t n := by
  refine ⟨by simp [hr], ?_⟩
  rw [chain, hr, Option.bind_some]
  exact h.followed?_eq_none

/-- A chain goes one way only. -/
theorem ChainEnds.unique (h : ChainEnds types t way) (h' : ChainEnds types t way') :
    way = way' := by
  cases h with
  | ends hr hlast =>
    cases h' with
    | ends hr' hlast' =>
      obtain rfl := (hlast.endsAfter hr).eq (hlast'.endsAfter hr')
      obtain rfl := Option.some_inj.mp (hr.symm.trans hr')
      exact hlast.unique hlast'
    | endless hendless _ => exact absurd hendless (hlast.endsAfter hr).not_endless
  | endless hendless hrepeat =>
    cases h' with
    | ends hr' hlast' => exact absurd hendless (hlast'.endsAfter hr').not_endless
    | endless _ hrepeat' =>
      obtain rfl := Nat.le_antisymm (hrepeat.le hrepeat') (hrepeat'.le hrepeat)
      have hsame := Option.some_inj.mp (hrepeat.here.symm.trans hrepeat'.here)
      rw [XdrType.reference.inj hsame]

end Ways

/-! ## The answers of the search -/

/-- The answer is a schema error with the given code and message. -/
def RefusedWith (answer : Except Failure XdrType) (code : SchemaCode) (message : String) : Prop :=
  ∃ e : SchemaError, answer = .error (.schema e) ∧ e.code = code ∧ e.message = message

/-- The answer that belongs to a way. -/
def ChainEnd.Answered (answer : Except Failure XdrType) : ChainEnd → Prop
  | .discriminant r => answer = .ok r
  | .otherKind kind =>
    RefusedWith answer .invalidDiscriminant ("A union cannot switch on a " ++ kind ++ " type")
  | .undefined name =>
    RefusedWith answer .unresolvedReference ("Discriminant type \"" ++ name ++ "\" is not defined")
  | .loop name =>
    RefusedWith answer .invalidDiscriminant ("Discriminant aliases loop through " ++ name)

/-- The value is a type, whatever it is made of. -/
def XdrType.IsType (t : XdrType) : Prop := t.kind?.isSome = true

instance : DecidablePred XdrType.IsType := fun _ => inferInstanceAs (Decidable (_ = true))

section Search

variable {types fresh : Table String XdrType} {switchOn t : XdrType} {done : List String} {n : Nat}

/-- What is no reference is the last type of its chain, and is answered for. -/
theorem exists_lastType (types : Table String XdrType) (ht : t.IsType)
    (hreference : ∀ name, t ≠ .reference name) :
    ∃ way, LastType types t way ∧ way.Answered t.asDiscriminant := by
  obtain ⟨kind, hkind⟩ := Option.isSome_iff_exists.mp ht
  by_cases hswitch : t.CanSwitch
  · refine ⟨.discriminant t, .discriminant hswitch, ?_⟩
    rcases hswitch with rfl | rfl | rfl | rfl | rfl | ⟨decl, rfl⟩ <;> rfl
  · refine ⟨.otherKind kind, .otherKind hreference hswitch hkind, .notDiscriminant kind, ?_, rfl,
      rfl⟩
    unfold XdrType.asDiscriminant
    split
    case h_7 => rw [hkind]
    all_goals simp [XdrType.CanSwitch] at hswitch

/-- The search from `switchOn` is at `t` after `n` references, with the names visited put aside. -/
structure OnTheWay (types : Table String XdrType) (switchOn : XdrType) (n : Nat) (t : XdrType)
    (done : List String) : Prop where
  here : chain types switchOn n = some t
  visited : ∀ name, name ∈ done ↔ ∃ i < n, chain types switchOn i = some (.reference name)
  fresh : ∀ j < n, ∀ i < j, chain types switchOn i ≠ chain types switchOn j

theorem OnTheWay.start (types : Table String XdrType) (switchOn : XdrType) :
    OnTheWay types switchOn 0 switchOn [] where
  here := rfl
  visited := by simp
  fresh := by simp

/-- One step of the search: a name that was not visited is followed. -/
theorem OnTheWay.step {name : String} {target : XdrType}
    (h : OnTheWay types switchOn n (.reference name) done) (hname : name ∉ done)
    (htarget : types.defined? name = some target) :
    OnTheWay types switchOn (n + 1) target (name :: done) where
  here := chain_succ_eq_some_iff.mpr ⟨name, h.here, htarget⟩
  visited := by
    intro name'
    rw [List.mem_cons, h.visited]
    constructor
    · rintro (rfl | ⟨i, hi, hchain⟩)
      · exact ⟨n, by omega, h.here⟩
      · exact ⟨i, by omega, hchain⟩
    · rintro ⟨i, hi, hchain⟩
      rcases Nat.lt_succ_iff_lt_or_eq.mp hi with hlt | rfl
      · exact Or.inr ⟨i, hlt, hchain⟩
      · left
        exact XdrType.reference.inj (Option.some_inj.mp (hchain.symm.trans h.here))
  fresh := by
    intro j hj i hij hsame
    rcases Nat.lt_succ_iff_lt_or_eq.mp hj with hlt | rfl
    · exact h.fresh j hlt i hij hsame
    · exact hname ((h.visited name).mpr ⟨i, hij, hsame.trans h.here⟩)

/-- Wherever the search is on the way from `switchOn`, it finds how the chain goes on. -/
theorem OnTheWay.answered (h : OnTheWay types switchOn n t done) (hfresh : Remains types done fresh)
    (htypes : ∀ name entry, types.get? name = some entry → entry = .raw .missing ∨ entry.IsType)
    (ht : t.IsType) :
    ∃ way, ChainEnds types switchOn way ∧ way.Answered (resolveThrough types fresh t) := by
  fun_induction resolveThrough types fresh t generalizing n done with
  | case1 fresh name entry hentry target htarget ih =>
    obtain ⟨hname, hget⟩ := hfresh.get?_eq_some hentry
    have htarget' : types.defined? name = some target := by
      rw [Table.defined?, hget, Option.bind_some, htarget]
    obtain rfl := XdrType.eq_of_defined?_eq_some htarget
    have htype : target.IsType := by
      refine (htypes name target hget).resolve_left ?_
      rintro rfl
      cases htarget
    exact ih (h.step hname htarget') (hfresh.erase name) htype
  | case2 fresh name entry hentry hnone =>
    obtain ⟨-, hget⟩ := hfresh.get?_eq_some hentry
    have hundefined : types.defined? name = none := by
      rw [Table.defined?, hget, Option.bind_some, hnone]
    exact ⟨.undefined name, .ends h.here (.undefined hundefined), _, rfl, rfl, rfl⟩
  | case3 fresh name hentry entry hget =>
    -- The name has an entry that is not left, so it was visited before.
    have hdone : name ∈ done := (hfresh.get?_eq_none hentry).resolve_right (by simp [hget])
    obtain ⟨i, hin, hi⟩ := (h.visited name).mp hdone
    have hendless := endless_of_repeat hin hi h.here
    exact ⟨.loop name, .endless hendless ⟨h.here, ⟨i, hin, hi⟩, h.fresh⟩, _, rfl, rfl, rfl⟩
  | case4 fresh name hentry hget =>
    have hundefined : types.defined? name = none := by rw [Table.defined?, hget, Option.bind_none]
    exact ⟨.undefined name, .ends h.here (.undefined hundefined), _, rfl, rfl, rfl⟩
  | case5 fresh t hreference =>
    obtain ⟨way, hlast, hanswer⟩ := exists_lastType types ht hreference
    exact ⟨way, .ends h.here hlast, hanswer⟩

end Search

/-- In a table of types, some of which may be missing, the aliases of a discriminant go exactly one
of the four ways, and the compiler gives the answer for it. -/
theorem alias_chain_answered {types : Table String XdrType} {switchOn : XdrType}
    (htypes : ∀ name entry, types.get? name = some entry → entry = .raw .missing ∨ entry.IsType)
    (hswitchOn : switchOn.IsType) :
    ∃ way, ChainEnds types switchOn way ∧ (∀ other, ChainEnds types switchOn other → other = way) ∧
      way.Answered (resolveDiscriminant types switchOn) := by
  obtain ⟨way, hway, hanswer⟩ :=
    (OnTheWay.start types switchOn).answered (Remains.start types) htypes hswitchOn
  exact ⟨way, hway, fun other hother => hother.unique hway, hanswer⟩

/-- Aliases that lead to an enum, to bytes, to a missing type, and into a loop behind its start. -/
def tangledAliases : Table String XdrType :=
  Table.ofList
    [("Color", .enum (EnumDecl.compile "Color" (Table.ofList [("RED", 0)]))),
     ("Hue", .reference "Color"),
     ("Bytes", .varBytes none),
     ("Blob", .reference "Bytes"),
     ("Gone", .raw .missing),
     ("Lost", .reference "Gone"),
     ("Entry", .reference "Left"),
     ("Left", .reference "Right"),
     ("Right", .reference "Left")]

theorem alias_chain_answered_entry :
    ∃ way, ChainEnds tangledAliases (.reference "Entry") way ∧
      (∀ other, ChainEnds tangledAliases (.reference "Entry") other → other = way) ∧
      way.Answered (resolveDiscriminant tangledAliases (.reference "Entry")) := by
  have hentries : ∀ e ∈ tangledAliases.entries, e.2 = .raw .missing ∨ e.2.IsType := by
    decide +kernel
  refine alias_chain_answered ?_ rfl
  intro name entry hget
  exact hentries _ (Table.get?_eq_some_iff.mp hget)

example :
    (["Hue", "Blob", "Lost", "Entry"].map fun name =>
      (resolveDiscriminant tangledAliases (.reference name)).map XdrType.kind?) =
      [.ok (some "enum"), .error (.schema (.notDiscriminant "unlimitedVarOpaque")),
       .error (.schema (.undefinedDiscriminant "Gone")), .error (.schema (.aliasLoop "Left"))] := by
  decide +kernel

end XdrCompiler
