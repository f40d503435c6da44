/-
# XdrCompiler.Proofs.RecoverableTypes -- a descriptor can be read off the text of its type

The text of a type is read back into a descriptor here, by a reader that knows the
generator's type words and nothing of how the text came about (`readText`). A word
with arguments is a generic type, however a declared type may be called; square
brackets hold bytes if the element is `u8`, and an array otherwise; a length is a
number if it reads as one, and the name of a constant otherwise.

The main statement, `descriptor_recoverable`, says that reading gives back the
descriptor that was written, with the names of constants as they are written. So two
descriptors have one text only if they agree in kind, nesting, names, lengths and
bounds. This is as far as it can go: a reference that is spelled like a type word
without arguments reads as that type, and a constant without a letter in front may read
as a number.
-/
import XdrCompiler.Proofs.CachedSets

namespace XdrCompiler

open TypeText (Token IsWord)

/-! ## Lengths -/

namespace Length

/-- The length with the name of a constant as it is written. -/
def canonical : Length → Length
  | .literal n => .literal n
  | .constant name => .constant (Naming.constantCase name)

/-- A number, or a constant whose name is written with a letter in front. -/
def Telling : Length → Prop
  | .literal _ => True
  | .constant name => ∃ c, (Naming.constantCase name).toList.head? = some c ∧ c.isAlpha = true

/-- The length that a text stands for. -/
def ofText (text : String) : Length :=
  match text.toInt? with
  | some n => .literal n
  | none => .constant text

/-- What has a letter in front is no number. -/
theorem toInt?_eq_none {text : String} {c : Char} (hhead : text.toList.head? = some c)
    (hc : c.isAlpha = true) : text.toInt? = none := by
  rw [String.toInt?_eq_none_iff, Bool.eq_false_iff]
  intro hint
  rcases String.isInt_iff.mp hint with hnat | ⟨digits, rfl, -⟩
  · obtain ⟨-, hdigits, -⟩ := String.isNat_iff.mp hnat
    rcases hdigits c (List.mem_of_mem_head? hhead) with hdigit | rfl
    · rw [Naming.not_isAlpha_of_isDigit hdigit] at hc
      cases hc
    · exact absurd hc (by decide)
  · have hminus : c = '-' := by simpa using hhead.symm
    rw [hminus] at hc
    exact absurd hc (by decide)

theorem ofText_text {length : Length} (h : length.Telling) :
    ofText length.text = length.canonical := by
  cases length with
  | literal n =>
    have hread : (toString n).toInt? = some n := Int.toInt?_repr n
    rw [ofText, text, hread, canonical]
  | constant name =>
    obtain ⟨c, hhead, hc⟩ := h
    rw [ofText, text, toInt?_eq_none hhead hc, canonical]

theorem text_ne_empty {length : Length} (h : length.Telling) : length.text ≠ "" := by
  intro hempty
  cases length with
  | literal n =>
    have hread : (toString n).toInt? = some n := Int.toInt?_repr n
    have hnone : ("" : String).toInt? = none := by cbv
    rw [text] at hempty
    rw [hempty, hnone] at hread
    cases hread
  | constant name =>
    obtain ⟨c, hhead, -⟩ := h
    rw [text] at hempty
    rw [hempty] at hhead
    cases hhead

theorem tokens_text {length : Length} (h : length.Telling) :
    TypeText.tokens length.text = [.word length.text] :=
  TypeText.tokens_of_isWord ⟨text_ne_empty h, length.not_isMark_text⟩

end Length

/-! ## Descriptors -/

namespace XdrType

/-- The descriptor with the names of constants as they are written. -/
def canonical : XdrType → XdrType
  | .array element length => .array element.canonical length.canonical
  | .varArray element bound => .varArray element.canonical (bound.map Length.canonical)
  | .bytes length => .bytes length.canonical
  | .varBytes bound => .varBytes (bound.map Length.canonical)
  | .string bound => .string (bound.map Length.canonical)
  | .option inner => .option inner.canonical
  | t => t

/-- The lengths and bounds in a descriptor. -/
def lengths : XdrType → List Length
  | .array element length => length :: element.lengths
  | .varArray element bound => bound.toList ++ element.lengths
  | .bytes length => [length]
  | .varBytes bound => bound.toList
  | .string bound => bound.toList
  | .option inner => inner.lengths
  | _ => []

theorem eq_reference_of_canonical {t : XdrType} {name : String}
    (h : t.canonical = .reference name) : t = .reference name := by
  cases t with
  | reference name' => exact h
  | _ => cases h

end XdrType

/-! ## Reading -/

namespace TypeText

/-- The words that are types without arguments, apart from `u8`, which is one in brackets only. -/
def wordTypes : List (String × XdrType) :=
  [("i32", .int), ("u32", .uint), ("i64", .hyper), ("u64", .uhyper), ("bool", .bool),
   ("UnlimitedVarOpaque", .varBytes none), ("UnlimitedString", .string none)]

/-- The type that a word without arguments stands for. -/
def wordType (w : String) : XdrType := (wordTypes.lookup w).getD (.reference w)

/-- The words that cannot be told from a reference of the same name. -/
def takenWords : List String :=
  ["i32", "u32", "i64", "u64", "bool", "u8", "UnlimitedVarOpaque", "UnlimitedString"]

/-- Reads the given marks. -/
def readMarks : List Char → List Token → Option (List Token)
  | [], ts => some ts
  | m :: ms, .mark c :: ts => if c = m then readMarks ms ts else none
  | _, _ => none

/-- Reads a length. -/
def readLength : List Token → Option (Length × List Token)
  | .word w :: ts => some (.ofText w, ts)
  | _ => none

/-- A reader takes tokens from the front and gives the type that they stand for. -/
abbrev Reader := List Token → Option (XdrType × List Token)

/-- Reads what is between square brackets, with a reader for the element. -/
def readBrackets (read : Reader) : Reader := fun ts => do
  let (element, ts) ← read ts
  let (length, ts) ← readLength (← readMarks [';', ' '] ts)
  let ts ← readMarks [']'] ts
  return (if element = .reference "u8" then .bytes length else .array element length, ts)

/-- Reads a length as the only argument of a generic type. -/
def readBounded (make : Option Length → XdrType) : Reader := fun ts => do
  let (bound, ts) ← readLength ts
  return (make (some bound), ← readMarks ['>'] ts)

/-- Reads a type as the only argument of a generic type. -/
def readWrapped (make : XdrType → XdrType) (read : Reader) : Reader := fun ts => do
  let (inner, ts) ← read ts
  return (make inner, ← readMarks ['>'] ts)

/-- Reads the arguments of a generic type, with a reader for a type among them. -/
def readArguments (read : Reader) (generic : String) : Reader :=
  if generic = "Option" then readWrapped .option read
  else if generic = "UnlimitedVarArray" then readWrapped (.varArray · none) read
  else if generic = "LimitedVarOpaque" then readBounded .varBytes
  else if generic = "LimitedString" then readBounded .string
  else if generic = "LimitedVarArray" then fun ts => do
    let (element, ts) ← read ts
    readBounded (.varArray element) (← readMarks [',', ' '] ts)
  else fun _ => none

/-- Reads a type that is nested no deeper than `depth`. -/
def readType (depth : Nat) : Reader := fun ts =>
  match depth, ts with
  | depth + 1, .mark '[' :: ts => readBrackets (readType depth) ts
  | depth + 1, .word w :: .mark '<' :: ts => readArguments (readType depth) w ts
  | _ + 1, .word w :: ts => some (wordType w, ts)
  | _, _ => none

/-- The descriptor that the text of a type stands for. Every level of nesting takes a token. -/
def readText (text : String) : Option XdrType :=
  match readType (tokens text).length (tokens text) with
  | some (t, []) => some t
  | _ => none

/-! ## Reading what was written -/

@[simp] theorem readMarks_cons (m : Char) (ms : List Char) (ts : List Token) :
    readMarks (m :: ms) (.mark m :: ts) = readMarks ms ts := by
  rw [readMarks, if_pos rfl]

@[simp] theorem readMarks_nil (ts : List Token) : readMarks [] ts = some ts := by
  rw [readMarks]

theorem readLength_text {length : Length} (h : length.Telling) (ts : List Token) :
    readLength (tokens length.text ++ ts) = some (length.canonical, ts) := by
  rw [Length.tokens_text h, List.singleton_append, readLength, Length.ofText_text h]

/-- The tokens are read as the type and no more is read, if no arguments follow. Every level of
nesting takes a token, so that their number is depth enough. -/
def ReadsAs (ts : List Token) (t : XdrType) : Prop :=
  ∀ depth, ts.length ≤ depth → ∀ rest : List Token, rest.head? ≠ some (.mark '<') →
    readType depth (ts ++ rest) = some (t, rest)

theorem exists_depth_of_lt {n depth : Nat} (h : n < depth) : ∃ d, depth = d + 1 ∧ n ≤ d :=
  ⟨depth - 1, by omega, by omega⟩

theorem length_lt_bracketedTokens (ts : List Token) (length : String) :
    ts.length < (RustType.bracketedTokens ts length).length := by
  simp only [RustType.bracketedTokens, List.length_append, List.length_cons, List.length_nil]
  omega

theorem length_lt_genericTokens (generic : String) (ts : List Token) :
    ts.length < (RustType.genericTokens generic ts).length := by
  simp only [RustType.genericTokens, List.length_append, List.length_cons, List.length_nil]
  omega

namespace ReadsAs

variable {ts : List Token} {t : XdrType} {length : Length}

theorem word (w : String) : ReadsAs [.word w] (wordType w) := by
  intro depth hdepth rest hrest
  obtain ⟨d, rfl, -⟩ := exists_depth_of_lt hdepth
  cases rest with
  | nil => rfl
  | cons token others =>
    cases token with
    | word w' => rfl
    | mark m =>
      have hm : m ≠ '<' := fun hm => hrest (by rw [hm]; rfl)
      simp [readType, hm]

theorem bracketed (h : ReadsAs ts t) (hlength : length.Telling) :
    ReadsAs (RustType.bracketedTokens ts length.text)
      (if t = .reference "u8" then .bytes length.canonical else .array t length.canonical) := by
  intro depth hdepth rest _
  obtain ⟨d, rfl, hd⟩ := exists_depth_of_lt ((length_lt_bracketedTokens ts _).trans_le hdepth)
  have helement := h d hd (.mark ';' :: .mark ' ' :: (tokens length.text ++ .mark ']' :: rest))
    (by simp)
  simp [RustType.bracketedTokens, readType, readBrackets, helement, readLength_text hlength]

theorem wrapped {generic : String} {make : XdrType → XdrType} (h : ReadsAs ts t)
    (hgeneric : ∀ read, readArguments read generic = readWrapped make read) :
    ReadsAs (RustType.genericTokens generic ts) (make t) := by
  intro depth hdepth rest _
  obtain ⟨d, rfl, hd⟩ := exists_depth_of_lt ((length_lt_genericTokens generic ts).trans_le hdepth)
  have hargument := h d hd (.mark '>' :: rest) (by simp)
  simp [RustType.genericTokens, readType, hgeneric, readWrapped, hargument]

theorem option (h : ReadsAs ts t) : ReadsAs (RustType.genericTokens "Option" ts) (.option t) := by
  apply h.wrapped
  intro read
  simp [readArguments]

theorem unlimited (h : ReadsAs ts t) :
    ReadsAs (RustType.genericTokens "UnlimitedVarArray" ts) (.varArray t none) := by
  have hgeneric : ∀ read, readArguments read "UnlimitedVarArray" =
      readWrapped (fun element => .varArray element none) read := by
    intro read
    simp [readArguments]
  exact h.wrapped hgeneric

theorem bounded {generic : String} {make : Option Length → XdrType} (hlength : length.Telling)
    (hgeneric : ∀ read, readArguments read generic = readBounded make) :
    ReadsAs (RustType.genericTokens generic (tokens length.text))
      (make (some length.canonical)) := by
  intro depth hdepth rest _
  obtain ⟨d, rfl, -⟩ := exists_depth_of_lt ((length_lt_genericTokens generic _).trans_le hdepth)
  simp [RustType.genericTokens, readType, hgeneric, readBounded, readLength_text hlength]

theorem boundedBytes (h : length.Telling) :
    ReadsAs (RustType.genericTokens "LimitedVarOpaque" (tokens length.text))
      (.varBytes (some length.canonical)) := by
  apply bounded h
  intro read
  simp [readArguments]

theorem boundedString (h : length.Telling) :
    ReadsAs (RustType.genericTokens "LimitedString" (tokens length.text))
      (.string (some length.canonical)) := by
  apply bounded h
  intro read
  simp [readArguments]

theorem limited (h : ReadsAs ts t) (hlength : length.Telling) :
    ReadsAs (RustType.genericTokens "LimitedVarArray"
        (ts ++ [.mark ',', .mark ' '] ++ tokens length.text))
      (.varArray t (some length.canonical)) := by
  intro depth hdepth rest _
  obtain ⟨d, rfl, hd⟩ := exists_depth_of_lt ((length_lt_genericTokens _ _).trans_le hdepth)
  rw [List.append_assoc, List.length_append] at hd
  have helement := h d (by omega)
    (.mark ',' :: .mark ' ' :: (tokens length.text ++ .mark '>' :: rest)) (by simp)
  simp [RustType.genericTokens, readType, readArguments, readBounded, helement,
    readLength_text hlength]

end ReadsAs

/-! ## Words -/

theorem wordType_of_mem : ∀ entry ∈ wordTypes, wordType entry.1 = entry.2 := by
  decide

theorem wordType_of_notMem {w : String} (h : w ∉ takenWords) : wordType w = .reference w := by
  have hlookup : wordTypes.lookup w = none := by
    rw [List.lookup_eq_none_iff]
    intro entry hentry
    rw [bne_iff_ne]
    rintro rfl
    have htaken : ∀ entry ∈ wordTypes, entry.1 ∈ takenWords := by decide
    exact h (htaken entry hentry)
  rw [wordType, hlookup, Option.getD_none]

theorem ReadsAs.typeWord (w : String) (t : XdrType) (h : (w, t) ∈ wordTypes) :
    ReadsAs [.word w] t := by
  have hread := ReadsAs.word w
  rwa [wordType_of_mem (w, t) h] at hread

theorem ReadsAs.name {w : String} (h : w ∉ takenWords) : ReadsAs [.word w] (.reference w) := by
  have hread := ReadsAs.word w
  rwa [wordType_of_notMem h] at hread

/-- Bytes are brackets around a word that is no type anywhere else. -/
theorem ReadsAs.bytes {length : Length} (h : length.Telling) :
    ReadsAs (RustType.bracketedTokens [.word "u8"] length.text) (.bytes length.canonical) := by
  have hword : wordType "u8" = .reference "u8" := by decide
  have hread := (ReadsAs.word "u8").bracketed h
  rwa [if_pos hword] at hread

end TypeText

open TypeText (ReadsAs takenWords readText)

/-! ## Descriptors that can be told apart -/

namespace XdrType

/-- A descriptor whose references and constants can be told from everything else in its text. A
word is any text that is not empty and has no brackets, commas, semicolons or blanks, so every
identifier is one. -/
structure Telling (t : XdrType) : Prop where
  names : ∀ n ∈ t.dependencies, IsWord n ∧ n ∉ takenWords
  lengths : ∀ l ∈ t.lengths, l.Telling

theorem Telling.ne_u8 {t : XdrType} (h : t.Telling) : t.canonical ≠ .reference "u8" := by
  intro hcanonical
  rw [eq_reference_of_canonical hcanonical] at h
  exact (h.names "u8" (by simp [dependencies])).2 (by decide)

/-- The tokens of a type are read as the descriptor that it was made from. -/
theorem Telling.readsAs {t : XdrType} (h : t.Telling) {type : RustType}
    (htype : t.toRust = .ok type) : ReadsAs type.tokens t.canonical := by
  obtain ⟨hnames, hlengths⟩ := h
  induction t generalizing type with
  | reference name =>
    cases htype
    exact ReadsAs.name (hnames name (by simp [dependencies])).2
  | int =>
    cases htype
    exact ReadsAs.typeWord "i32" .int (by decide)
  | uint =>
    cases htype
    exact ReadsAs.typeWord "u32" .uint (by decide)
  | hyper =>
    cases htype
    exact ReadsAs.typeWord "i64" .hyper (by decide)
  | uhyper =>
    cases htype
    exact ReadsAs.typeWord "u64" .uhyper (by decide)
  | bool =>
    cases htype
    exact ReadsAs.typeWord "bool" .bool (by decide)
  | array element length ih =>
    obtain ⟨inner, hinner, rfl⟩ := map_eq_ok_iff.mp htype
    obtain ⟨hlength, hothers⟩ := List.forall_mem_cons.mp hlengths
    have helement : element.Telling := ⟨hnames, hothers⟩
    have hread := (ih hinner hnames hothers).bracketed hlength
    rwa [if_neg helement.ne_u8] at hread
  | varArray element bound ih =>
    obtain ⟨inner, hinner, rfl⟩ := map_eq_ok_iff.mp htype
    obtain ⟨hbound, hothers⟩ := List.forall_mem_append.mp hlengths
    have hread := ih hinner hnames hothers
    cases bound with
    | none => exact hread.unlimited
    | some bound => exact hread.limited (hbound bound List.mem_cons_self)
  | bytes length =>
    cases htype
    exact ReadsAs.bytes (hlengths length List.mem_cons_self)
  | varBytes bound =>
    cases htype
    cases bound with
    | none => exact ReadsAs.typeWord "UnlimitedVarOpaque" (.varBytes none) (by decide)
    | some bound => exact ReadsAs.boundedBytes (hlengths bound List.mem_cons_self)
  | string bound =>
    cases htype
    cases bound with
    | none => exact ReadsAs.typeWord "UnlimitedString" (.string none) (by decide)
    | some bound => exact ReadsAs.boundedString (hlengths bound List.mem_cons_self)
  | option element ih =>
    obtain ⟨inner, hinner, rfl⟩ := map_eq_ok_iff.mp htype
    exact (ih hinner hnames hlengths).option
  | void => cases htype
  | enum decl => cases htype
  | struct decl => cases htype
  | union decl => cases htype
  | raw value => cases htype

/-- The text of a descriptor is read as the descriptor. -/
theorem Telling.readText {t : XdrType} (h : t.Telling) {text : String}
    (htext : t.declaredText = .ok text) : TypeText.readText text = some t.canonical := by
  obtain ⟨type, htype, rfl⟩ := map_eq_ok_iff.mp htext
  have htokens : TypeText.tokens type.declared = type.tokens :=
    RustType.tokens_declared fun n hn => (h.names n ((mem_names_toRust htype n).mp hn)).1
  have hread := h.readsAs htype type.tokens.length le_rfl [] (by simp)
  rw [List.append_nil] at hread
  rw [TypeText.readText, htokens, hread]

end XdrType

/-- The text of a type determines the descriptor up to the spelling of its constants. -/
theorem descriptor_recoverable {t t' : XdrType} (ht : t.Telling) (ht' : t'.Telling)
    {text text' : String} (h : t.declaredText = .ok text) (h' : t'.declaredText = .ok text') :
    readText text = some t.canonical ∧ (text = text' → t.canonical = t'.canonical) := by
  refine ⟨ht.readText h, ?_⟩
  rintro rfl
  exact Option.some_inj.mp ((ht.readText h).symm.trans (ht'.readText h'))

/-- A type that is called like a generic one, and a constant as a length. -/
def optionsSizedBy (constant : String) : XdrType :=
  .option (.varArray (.array (.reference "Option") (.constant constant)) (some (.literal 7)))

theorem telling_optionsSizedBy {constant : String}
    (h : (Naming.constantCase constant).toList.head? = some 'M') :
    (optionsSizedBy constant).Telling where
  names := by
    intro n hn
    obtain rfl : n = "Option" := NameSet.mem_singleton.mp hn
    exact ⟨TypeText.isWord_of_mem_typeWords "Option" (by decide), by decide⟩
  lengths := by
    intro l hl
    simp only [optionsSizedBy, XdrType.lengths, Option.toList_some, List.mem_append,
      List.mem_cons, List.not_mem_nil, or_false] at hl
    rcases hl with rfl | rfl
    · trivial
    · exact ⟨'M', h, by decide⟩

/-- Two spellings of a constant that are written alike. -/
theorem descriptor_recoverable_spellings :
    (optionsSizedBy "maxSize").declaredText =
        .ok "Option<LimitedVarArray<[Option; MAX_SIZE], 7>>" ∧
      readText "Option<LimitedVarArray<[Option; MAX_SIZE], 7>>" =
        some (optionsSizedBy "MAX_SIZE") ∧
      (optionsSizedBy "maxSize").canonical = (optionsSizedBy "Max-size").canonical := by
  have hfirst : (optionsSizedBy "maxSize").declaredText =
      .ok "Option<LimitedVarArray<[Option; MAX_SIZE], 7>>" := by
    decide +kernel
  have hsecond : (optionsSizedBy "Max-size").declaredText =
      .ok "Option<LimitedVarArray<[Option; MAX_SIZE], 7>>" := by
    decide +kernel
  have hcanonical : (optionsSizedBy "maxSize").canonical = optionsSizedBy "MAX_SIZE" := by
    decide +kernel
  obtain ⟨hread, hsame⟩ := descriptor_recoverable
    (telling_optionsSizedBy (by decide +kernel)) (telling_optionsSizedBy (by decide +kernel))
    hfirst hsecond
  rw [hcanonical] at hread
  exact ⟨hfirst, hread, hsame rfl⟩

end XdrCompiler
