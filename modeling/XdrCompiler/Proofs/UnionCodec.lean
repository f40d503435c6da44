/-
# XdrCompiler.Proofs.UnionCodec -- the encoder and the decoder of a union agree

The text of a union has three lists with one entry for each switch: the variants
of the type, the arms of the encoder and the arms of the decoder. Each is read
here as the parts that its lines are made of, and the lines are those parts
written out (`memberLines_eq`, `writerLines_eq`, `readerLines_eq`).

The main statement is `encoder_decoder_agree`. Whatever compiles has the same
variants in the three lists, in the order of the switches and with at most one
`Default` at the end; it declares, writes and reads the same payloads; and when
the arms of the decoder are tried from the first on, the literal written for a
case ends at the arm of that case.
-/
import XdrCompiler.Proofs.Compiled
import XdrCompiler.Proofs.SwitchLiterals
import XdrCompiler.Source.Declaration

namespace XdrCompiler

/-! ## The three lists -/

/-- A variant as it is declared, with the text of its content. -/
structure MemberEntry where
  ident : String
  content : Option String

/-- An arm of the encoder. -/
structure WriterArm where
  ident : String
  /-- The name that the content of the variant is bound to. -/
  binder : Option String
  /-- The expression that is written as the discriminant. -/
  encoded : String
  /-- The expression that is written as the payload. -/
  payload : Option String

/-- An arm of the decoder. -/
structure ReaderArm where
  pattern : String
  ident : String
  /-- The expression for the content of the variant. -/
  content : Option String

/-- The arguments behind the name of a variant. -/
def parenthesized : Option String → String
  | none => ""
  | some content => "(" ++ content ++ ")"

def MemberEntry.text (m : MemberEntry) : String := "    " ++ m.ident ++ parenthesized m.content

def WriterArm.text (name : String) (w : WriterArm) : String :=
  let path := "            " ++ name ++ "::" ++ w.ident ++ parenthesized w.binder
  match w.payload with
  | none => path ++ " => " ++ w.encoded ++ ".to_xdr_buffered(write_stream),"
  | some value =>
    path ++ " => \x7b" ++ w.encoded ++ ".to_xdr_buffered(write_stream); " ++ value ++
      ".to_xdr_buffered(write_stream)\x7d,"

def ReaderArm.text (name : String) (r : ReaderArm) : String :=
  "            " ++ r.pattern ++ " => Ok(" ++ name ++ "::" ++ r.ident ++ parenthesized r.content ++ "),"

/-- Whether an arm of the decoder takes a literal of the discriminant type. -/
def ReaderArm.takes (discriminant literal : String) (r : ReaderArm) : Bool :=
  bindsAll r.pattern || decide (Denotes discriminant r.pattern literal)

namespace UnionDecl

variable (u : UnionDecl)

/-- One entry for each variant in order, and one more at the end when there is a default. -/
def entries {α : Type} (entry : Variant → α) (default : α) : List α :=
  u.variants.map entry ++ if u.hasDefault then [default] else []

def memberEntry (v : Variant) : MemberEntry where
  ident := v.ident
  content := v.payload.map fun p => declaredType p.type p.boxed

def writerArm (v : Variant) : WriterArm where
  ident := v.ident
  binder := v.payload.map fun _ => "value"
  encoded := v.value.encoded u.discriminant.declared
  payload := v.payload.map fun _ => "value"

def readerArm (v : Variant) : ReaderArm where
  pattern := v.value.pattern u.discriminant.declared
  ident := v.ident
  content := v.payload.map fun p => decodeExpression p.type p.boxed

/-- The variants of the type. The default one holds the discriminant that was read. -/
def members : List MemberEntry :=
  u.entries memberEntry ⟨"Default", some u.discriminant.declared⟩

/-- The arms of the encoder. -/
def writers : List WriterArm :=
  u.entries u.writerArm ⟨"Default", some "code", "code", none⟩

/-- The arms of the decoder. -/
def readers : List ReaderArm :=
  u.entries u.readerArm ⟨"code", "Default", some "code"⟩

section entries

variable {u} {α β : Type} {entry : Variant → α} {default : α}

theorem map_entries (f : α → β) :
    (u.entries entry default).map f = u.entries (fun v => f (entry v)) (f default) := by
  unfold entries
  rw [List.map_append, List.map_map]
  cases u.hasDefault <;> rfl

theorem getElem?_entries {i : Nat} {v : Variant} (h : u.variants[i]? = some v) :
    (u.entries entry default)[i]? = some (entry v) := by
  obtain ⟨hi, rfl⟩ := List.getElem?_eq_some_iff.mp h
  unfold entries
  rw [List.getElem?_append_left (by rw [List.length_map]; exact hi), List.getElem?_map, h,
    Option.map_some]

theorem length_entries_le : (u.entries entry default).length ≤ u.variants.length + 1 := by
  unfold entries
  rw [List.length_append, List.length_map]
  cases u.hasDefault <;> simp

theorem getElem?_entries_default {a : α} (h : (u.entries entry default)[u.variants.length]? = some a) :
    a = default := by
  unfold entries at h
  rw [List.getElem?_append_right (by rw [List.length_map]), List.length_map, Nat.sub_self] at h
  cases hdefault : u.hasDefault with
  | false => simp [hdefault] at h
  | true => simpa [hdefault] using h.symm

/-- Entries are distinct where the variants are and an entry shows its variant. -/
theorem nodup_entries (hnodup : (u.variants.map Variant.ident).Nodup)
    (hentry : ∀ v ∈ u.variants, ∀ w ∈ u.variants, entry v = entry w → v.ident = w.ident)
    (hdefault : u.hasDefault = true → ∀ v ∈ u.variants, entry v ≠ default) :
    (u.entries entry default).Nodup := by
  unfold entries
  rw [List.nodup_append]
  refine ⟨?_, ?_, ?_⟩
  · rw [List.Nodup, List.pairwise_map] at hnodup ⊢
    refine hnodup.imp_of_mem ?_
    intro v w hv hw hne heq
    exact hne (hentry v hv w hw heq)
  · cases u.hasDefault <;> simp
  · intro a ha b hb
    obtain ⟨v, hv, rfl⟩ := List.mem_map.mp ha
    cases hd : u.hasDefault with
    | false => simp [hd] at hb
    | true =>
      rw [hd, if_pos rfl, List.mem_singleton] at hb
      rw [hb]
      exact hdefault hd v hv

end entries

/-! ## The lines are the entries written out -/

theorem text_memberEntry (v : Variant) : (memberEntry v).text = memberLine v := by
  unfold memberLine memberEntry MemberEntry.text
  cases hp : v.payload <;> simp [parenthesized, ← String.append_assoc]

theorem text_writerArm (v : Variant) : (u.writerArm v).text u.name = u.writerLine v := by
  -- The name that the payload is bound to stands inside a literal of the line.
  have hbinder (x : String) : "(value) => \x7b" ++ x = "(value)" ++ (" => \x7b" ++ x) := by
    rw [← String.append_assoc]
    rfl
  unfold writerLine writerArm WriterArm.text
  cases hp : v.payload with
  | none => simp [parenthesized, String.append_assoc]
  | some p => simp [parenthesized, String.append_assoc, hbinder]

theorem text_readerArm (v : Variant) : (u.readerArm v).text u.name = u.readerLine v := by
  unfold readerLine readerArm ReaderArm.text
  cases hp : v.payload <;> simp [parenthesized, String.append_assoc]

theorem memberLines_eq : u.memberLines = u.members.map MemberEntry.text := by
  have hdefault : MemberEntry.text ⟨"Default", some u.discriminant.declared⟩ =
      "    Default(" ++ u.discriminant.declared ++ ")" := by
    simp [MemberEntry.text, parenthesized, ← String.append_assoc]
  rw [members, map_entries, hdefault]
  simp only [text_memberEntry]
  rfl

theorem writerLines_eq : u.writerLines = u.writers.map (WriterArm.text u.name) := by
  have hdefault : WriterArm.text u.name ⟨"Default", some "code", "code", none⟩ =
      "            " ++ u.name ++ "::Default(code) => code.to_xdr_buffered(write_stream)," := by
    simp [WriterArm.text, parenthesized, String.append_assoc]
  rw [writers, map_entries, hdefault]
  simp only [text_writerArm]
  rfl

theorem readerLines_eq : u.readerLines = u.readers.map (ReaderArm.text u.name) := by
  have hcode (x : String) :
      "            code => Ok(" ++ x = "            " ++ ("code" ++ (" => Ok(" ++ x)) := by
    rw [← String.append_assoc, ← String.append_assoc]
    rfl
  have hdefault : ReaderArm.text u.name ⟨"code", "Default", some "code"⟩ =
      "            code => Ok(" ++ u.name ++ "::Default(code))," := by
    unfold ReaderArm.text
    simp [parenthesized, String.append_assoc, hcode]
  rw [readers, map_entries, hdefault]
  simp only [text_readerArm]
  rfl

/-! ## The first arm that takes a literal -/

theorem takes_readerArm {literal : String} (v : Variant) :
    (u.readerArm v).takes u.discriminant.declared literal = true ↔
      Denotes u.discriminant.declared (v.value.pattern u.discriminant.declared) literal := by
  have hbinds : bindsAll (u.readerArm v).pattern = false := SwitchValue.bindsAll_pattern _ _
  rw [ReaderArm.takes, hbinds, Bool.false_or, decide_eq_true_eq]
  rfl

/-- Where the variants have names of their own, the literal written for one of them is taken by
its arm and by none before it. -/
theorem findIdx?_readers (hnodup : (u.variants.map Variant.ident).Nodup)
    (hident : ∀ v ∈ u.variants, v.ident = v.value.ident) {i : Nat} {v : Variant}
    (hv : u.variants[i]? = some v) :
    u.readers.findIdx? (ReaderArm.takes u.discriminant.declared (u.writerArm v).encoded) = some i := by
  have hreader : ∀ j (hj : j < u.variants.length),
      ∃ h : j < u.readers.length, u.readers[j] = u.readerArm u.variants[j] := by
    intro j hj
    exact List.getElem?_eq_some_iff.mp (getElem?_entries (List.getElem?_eq_getElem hj))
  obtain ⟨hi, rfl⟩ := List.getElem?_eq_some_iff.mp hv
  rw [List.findIdx?_eq_some_iff_getElem]
  obtain ⟨hri, harm⟩ := hreader i hi
  refine ⟨hri, ?_, ?_⟩
  · rw [harm, takes_readerArm]
    exact SwitchValue.denotes_self _ _
  · intro j hji htakes
    have hj : j < u.variants.length := by omega
    obtain ⟨hrj, harm⟩ := hreader j hj
    rw [harm, takes_readerArm] at htakes
    have hsame : u.variants[j].ident = u.variants[i].ident := by
      rw [hident _ (List.getElem_mem hj), hident _ (List.getElem_mem hi)]
      exact SwitchValue.ident_eq_of_denotes _ htakes
    have hvariant : u.variants[j] = u.variants[i] :=
      List.inj_on_of_nodup_map hnodup (List.getElem_mem hj) (List.getElem_mem hi) hsame
    have hij : j = i := (List.Nodup.getElem_inj_iff (List.Nodup.of_map _ hnodup)).mp hvariant
    omega

end UnionDecl

/-! ## Agreement -/

/-- The content that a variant declares, the payload that its encoder writes and the content
that its decoder reads, for a switch with the given arm. They are absent together, and a
beginning that boxes the payload boxes it where it is declared and where it is read. -/
inductive PayloadAgrees (beginnings : List String) (name : String) (d : UnionDefinition) :
    Arm → Option String → Option String → Option String → Prop
  | absent : PayloadAgrees beginnings name d .empty none none none
  | plain {key : String} {payload : XdrType} {type : RustType} :
      d.payload? key = some payload → payload.toMember name = .ok type →
      startsWithAny beginnings type.callable = false →
      PayloadAgrees beginnings name d (.named key)
        (some type.declared)
        (some "value")
        (some (type.callable ++ "::from_xdr_buffered(read_stream)?"))
  | boxed {key : String} {payload : XdrType} {type : RustType} :
      d.payload? key = some payload → payload.toMember name = .ok type →
      startsWithAny beginnings type.callable = true →
      PayloadAgrees beginnings name d (.named key)
        (some ("Box<" ++ type.declared ++ ">"))
        (some "value")
        (some ("Box::new(" ++ (type.callable ++ "::from_xdr_buffered(read_stream)?") ++ ")"))

/-- The entries of one switch agree. -/
structure CaseAgrees (beginnings : List String) (name : String) (d : UnionDefinition)
    (discriminant : String) (s : SwitchValue × Arm) (m : MemberEntry) (w : WriterArm)
    (r : ReaderArm) : Prop where
  encoded : w.encoded = s.1.encoded discriminant
  pattern : r.pattern = s.1.pattern discriminant
  binder : w.binder = w.payload
  payload : PayloadAgrees beginnings name d s.2 m.content w.payload r.content

/-- The names of the variants: those of the switches, and `Default` where there is one. -/
def UnionDefinition.caseIdents (d : UnionDefinition) (hasDefault : Bool) : List String :=
  d.switches.map (fun s => s.1.ident) ++ if hasDefault then ["Default"] else []

/-- The declaration, the encoder and the decoder of a union agree. -/
structure CodecAgreement (beginnings : List String) (name : String) (d : UnionDefinition)
    (u : UnionDecl) : Prop where
  discriminant : d.switchOn.toRust = .ok u.discriminant
  memberLines : u.memberLines = u.members.map MemberEntry.text
  writerLines : u.writerLines = u.writers.map (WriterArm.text name)
  readerLines : u.readerLines = u.readers.map (ReaderArm.text name)
  -- One entry of each list for each switch, in order, and a common last one.
  member_idents : u.members.map MemberEntry.ident = d.caseIdents u.hasDefault
  writer_idents : u.writers.map WriterArm.ident = d.caseIdents u.hasDefault
  reader_idents : u.readers.map ReaderArm.ident = d.caseIdents u.hasDefault
  nodup_idents : (d.caseIdents u.hasDefault).Nodup
  nodup_encoded : (u.writers.map WriterArm.encoded).Nodup
  nodup_patterns : (u.readers.map ReaderArm.pattern).Nodup
  -- The arms of the decoder are tried from the first on.
  switch_agrees : ∀ i s, d.switches[i]? = some s → ∃ m w r,
    u.members[i]? = some m ∧ u.writers[i]? = some w ∧ u.readers[i]? = some r ∧
    CaseAgrees beginnings name d u.discriminant.declared s m w r ∧
    u.readers.findIdx? (ReaderArm.takes u.discriminant.declared w.encoded) = some i
  catchAll_last : ∀ i (r : ReaderArm), u.readers[i]? = some r →
    (bindsAll r.pattern = true ↔ i = d.switches.length)

theorem ArmFits.payloadAgrees {beginnings : List String} {name : String} {d : UnionDefinition}
    {arm : Arm} {v : Variant} (u : UnionDecl) (h : ArmFits beginnings name d arm v.payload) :
    PayloadAgrees beginnings name d arm (UnionDecl.memberEntry v).content
      (u.writerArm v).payload (u.readerArm v).content := by
  unfold UnionDecl.memberEntry UnionDecl.writerArm UnionDecl.readerArm
  dsimp only
  cases hp : v.payload with
  | none =>
    rw [hp] at h
    cases arm with
    | empty => exact .absent
    | named key => exact h.elim
    | foreign => exact h.elim
  | some p =>
    rw [hp] at h
    cases arm with
    | empty => exact h.elim
    | foreign => exact h.elim
    | named key =>
      obtain ⟨payload, hpayload, htype, hboxed⟩ := h
      simp only [Option.map_some]
      unfold declaredType decodeExpression
      cases hb : p.boxed with
      | true =>
        simp only [if_true]
        exact .boxed hpayload htype (hboxed.symm.trans hb)
      | false =>
        simp only [Bool.false_eq_true, if_false]
        exact .plain hpayload htype (hboxed.symm.trans hb)

/-- The names of the variants are those of the switches. -/
theorem UnionDecl.entries_ident {beginnings : List String} {name : String} {d : UnionDefinition}
    {resolved : XdrType} {u : UnionDecl}
    (h : UnionDecl.compile beginnings name d resolved = .ok u) :
    u.entries Variant.ident "Default" = d.caseIdents u.hasDefault := by
  unfold UnionDecl.entries UnionDefinition.caseIdents
  rw [map_eq_map_of_forall₂ (UnionDecl.forall₂_variants h) fun s v hv => hv.1]

theorem UnionDecl.bindsAll_readers_iff {u : UnionDecl} {i : Nat} {r : ReaderArm}
    (hr : u.readers[i]? = some r) : bindsAll r.pattern = true ↔ i = u.variants.length := by
  by_cases hi : i < u.variants.length
  · have harm : u.readers[i]? = some (u.readerArm u.variants[i]) :=
      UnionDecl.getElem?_entries (List.getElem?_eq_getElem hi)
    rw [hr, Option.some_inj] at harm
    have hbinds : bindsAll r.pattern = false := by
      rw [harm]
      exact SwitchValue.bindsAll_pattern _ _
    rw [hbinds]
    constructor
    · intro hfalse
      cases hfalse
    · intro heq
      omega
  · -- Behind the variants there is room for the default arm only.
    obtain ⟨hlength, -⟩ := List.getElem?_eq_some_iff.mp hr
    have hle : u.readers.length ≤ u.variants.length + 1 := UnionDecl.length_entries_le
    have heq : i = u.variants.length := by omega
    rw [heq] at hr
    rw [UnionDecl.getElem?_entries_default hr]
    exact iff_of_true (by decide) heq

/-- Every union that compiles has a declaration, an encoder and a decoder that agree. -/
theorem encoder_decoder_agree {beginnings : List String} {name : String} {d : UnionDefinition}
    {resolved : XdrType} {u : UnionDecl}
    (h : UnionDecl.compile beginnings name d resolved = .ok u) :
    CodecAgreement beginnings name d u := by
  have hvariants := UnionDecl.forall₂_variants h
  have hident : ∀ v ∈ u.variants, v.ident = v.value.ident :=
    fun v hv => UnionDecl.ident_of_mem_variants h hv
  obtain ⟨hnodup, hdefault⟩ := UnionDecl.nodup_idents h
  obtain ⟨hname, hdiscriminant⟩ : u.name = name ∧ d.switchOn.toRust = .ok u.discriminant := by
    obtain ⟨discriminant, compiled, hdiscriminant, -, -, -, rfl⟩ :=
      UnionDecl.compile_eq_ok_iff.mp h
    exact ⟨rfl, hdiscriminant⟩
  subst hname
  refine
    { discriminant := hdiscriminant
      memberLines := u.memberLines_eq
      writerLines := u.writerLines_eq
      readerLines := u.readerLines_eq
      member_idents := (UnionDecl.map_entries _).trans (UnionDecl.entries_ident h)
      writer_idents := (UnionDecl.map_entries _).trans (UnionDecl.entries_ident h)
      reader_idents := (UnionDecl.map_entries _).trans (UnionDecl.entries_ident h)
      nodup_idents := ?_
      nodup_encoded := ?_
      nodup_patterns := ?_
      switch_agrees := ?_
      catchAll_last := ?_ }
  · rw [← UnionDecl.entries_ident h]
    exact UnionDecl.nodup_entries hnodup (fun v _ w _ heq => heq) hdefault
  · rw [UnionDecl.writers, UnionDecl.map_entries]
    refine UnionDecl.nodup_entries hnodup ?_ (fun _ v _ => SwitchValue.encoded_ne_code _ _)
    intro v hv w hw heq
    rw [hident v hv, hident w hw]
    exact SwitchValue.ident_eq_of_encoded_eq _ heq
  · rw [UnionDecl.readers, UnionDecl.map_entries]
    refine UnionDecl.nodup_entries hnodup ?_ (fun _ v _ => SwitchValue.pattern_ne_code _ _)
    intro v hv w hw heq
    rw [hident v hv, hident w hw]
    exact SwitchValue.ident_eq_of_pattern_eq _ heq
  · intro i s hs
    obtain ⟨v, hv, -, hvalue, hfits⟩ := exists_result_of_getElem? hvariants hs
    refine ⟨UnionDecl.memberEntry v, u.writerArm v, u.readerArm v, UnionDecl.getElem?_entries hv,
      UnionDecl.getElem?_entries hv, UnionDecl.getElem?_entries hv, ?_,
      u.findIdx?_readers hnodup hident hv⟩
    exact ⟨hvalue ▸ rfl, hvalue ▸ rfl, rfl, hfits.payloadAgrees u⟩
  · intro i r hr
    rw [hvariants.length_eq]
    exact UnionDecl.bindsAll_readers_iff hr

/-- Switches of all three kinds, two of which differ in a sign only. One payload points back to
the union and one has a beginning that is boxed. -/
def mixedUnion : UnionDefinition where
  switchOn := .int
  switchName := "kind"
  switches :=
    [(.number 1, .empty), (.number (-1), .named "next"), (.label "v2", .named "spec"),
      (.truth true, .named "amount")]
  arms := Table.ofList
    [("next", .option (.reference "Mixed")), ("spec", .reference "ScSpecTypeDef"),
      ("amount", .hyper)]
  defaultArm := none

theorem encoder_decoder_agree_mixed :
    ∃ u, UnionDecl.compile ["ScSpecType"] "Mixed" mixedUnion .int = .ok u ∧
      CodecAgreement ["ScSpecType"] "Mixed" mixedUnion u := by
  have hrun : (UnionDecl.compile ["ScSpecType"] "Mixed" mixedUnion .int).toBool = true := by
    decide +kernel
  obtain ⟨u, hu⟩ := exists_eq_ok_of_toBool hrun
  exact ⟨u, hu, encoder_decoder_agree hu⟩

end XdrCompiler
