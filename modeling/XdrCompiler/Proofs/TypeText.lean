/-
# XdrCompiler.Proofs.TypeText -- reading the names off the text of a type

The text of a type is words and marks. A word right before `<` is a generic type
whose arguments follow up to `>`; square brackets hold an element type. What
follows `;` or `,`, and what stands in the brackets of a bounded text or block of
bytes, counts something and is no type. The generator has type words of its own.
Every other word names a declared type.

`namesIn` and `heldNamesIn` read a text in this way and know nothing of how it
was made. On the text of a `RustType` they find what it is made of, as long as its
names can be told from marks and from the generator's words (`namesIn_declaredType`,
`heldNamesIn_declaredType`). A length may be spelled like a type without harm.
-/
import XdrCompiler.Proofs.NameCharacters
import XdrCompiler.Source.Declaration

namespace XdrCompiler.TypeText

/-! ## Words and marks -/

inductive Token
  | word (text : String)
  | mark (c : Char)
  deriving DecidableEq, Repr

def isMark (c : Char) : Bool := c ∈ ['<', '>', '[', ']', ';', ',', ' ']

/-- Puts a character in front of the word at the beginning. -/
def extendWord (c : Char) : List Token → List Token
  | .word w :: rest => .word (String.singleton c ++ w) :: rest
  | rest => .word (String.singleton c) :: rest

/-- Cuts a text into its marks and the words between them. -/
def scan : List Char → List Token
  | [] => []
  | c :: rest => if isMark c then .mark c :: scan rest else extendWord c (scan rest)

def tokens (s : String) : List Token := scan s.toList

@[simp] theorem tokens_empty : tokens "" = [] := rfl

theorem extendWord_append_mark (c m : Char) (l r : List Token) :
    extendWord c (l ++ .mark m :: r) = extendWord c l ++ .mark m :: r := by
  cases l with
  | nil => rfl
  | cons token rest => cases token <;> rfl

theorem scan_append_mark {m : Char} (hm : isMark m = true) (a b : List Char) :
    scan (a ++ m :: b) = scan a ++ .mark m :: scan b := by
  induction a with
  | nil => simp [scan, hm]
  | cons c rest ih =>
    by_cases hc : isMark c = true
    · simp [scan, hc, ih]
    · simp [scan, hc, ih, extendWord_append_mark]

theorem scan_marks {ms : List Char} (hms : ∀ m ∈ ms, isMark m = true) (b : List Char) :
    scan (ms ++ b) = ms.map .mark ++ scan b := by
  induction ms with
  | nil => rfl
  | cons m rest ih =>
    have hm : isMark m = true := hms m List.mem_cons_self
    have hrest := ih fun c hc => hms c (List.mem_cons_of_mem m hc)
    simp [scan, hm, hrest]

/-- Marks between two texts separate their tokens. -/
theorem tokens_separated {a s b : String} (m : Char) (ms : List Char) (hs : s.toList = m :: ms)
    (hms : ∀ c ∈ m :: ms, isMark c = true) :
    tokens (a ++ s ++ b) = tokens a ++ (m :: ms).map .mark ++ tokens b := by
  have hrest : ∀ c ∈ ms, isMark c = true := fun c hc => hms c (List.mem_cons_of_mem m hc)
  unfold tokens
  rw [String.toList_append, String.toList_append, hs, List.append_assoc, List.cons_append,
    scan_append_mark (hms m List.mem_cons_self), scan_marks hrest]
  simp

/-- A text that is a word: it is not empty and has no marks. -/
def IsWord (s : String) : Prop := s ≠ "" ∧ ∀ c ∈ s.toList, isMark c = false

theorem scan_of_not_isMark {cs : List Char} (hne : cs ≠ []) (hcs : ∀ c ∈ cs, isMark c = false) :
    scan cs = [.word (String.ofList cs)] := by
  induction cs with
  | nil => exact absurd rfl hne
  | cons c rest ih =>
    have hc : isMark c = false := hcs c List.mem_cons_self
    rw [scan, if_neg (by simp [hc]), String.ofList_cons]
    by_cases hrest : rest = []
    · subst hrest
      simp [scan, extendWord]
    · rw [ih hrest fun d hd => hcs d (List.mem_cons_of_mem c hd), extendWord]

theorem tokens_of_isWord {s : String} (h : IsWord s) : tokens s = [.word s] := by
  have hne : s.toList ≠ [] := fun hnil => h.1 (String.toList_eq_nil_iff.mp hnil)
  rw [tokens, scan_of_not_isMark hne h.2, String.ofList_toList]

/-! ## Places -/

/-- Where a word stands, seen from one pair of brackets. -/
inductive Place
  /-- Among the arguments of a generic type. -/
  | arguments (generic : String)
  /-- In square brackets. -/
  | brackets
  /-- Behind the mark that ends the types of a pair of brackets. -/
  | count
  deriving DecidableEq, Repr

/-- Whether something is counted there, so that no word is a type. -/
def Place.isCount : Place → Bool
  | .arguments generic => generic ∈ ["LimitedVarOpaque", "LimitedString"]
  | .brackets => false
  | .count => true

/-- Whether the values of the types there are kept elsewhere, behind a pointer or in a
vector. -/
def Place.isApart : Place → Bool
  | .arguments generic => generic ∈ ["Box", "LimitedVarArray", "UnlimitedVarArray"]
  | _ => false

/-- The places after a mark, the innermost first; `last` is the word right before it. -/
def nextPlaces (last : String) (m : Char) (places : List Place) : List Place :=
  match m with
  | '<' => .arguments last :: places
  | '[' => .brackets :: places
  | ';' => .count :: places.tail
  | ',' => .count :: places.tail
  | '>' => places.tail
  | ']' => places.tail
  | _ => places

/-- The words that the generator writes for types of its own. -/
def typeWords : List String :=
  ["Box", "Option", "LimitedVarArray", "UnlimitedVarArray", "LimitedVarOpaque",
   "UnlimitedVarOpaque", "LimitedString", "UnlimitedString", "u8", "i32", "u32", "i64", "u64",
   "bool"]

theorem isWord_of_mem_typeWords : ∀ w ∈ typeWords, IsWord w := by
  simp [typeWords, IsWord, isMark]

/-- A declared type that a text names, with the places around it. -/
structure Mention where
  name : String
  places : List Place
  deriving DecidableEq, Repr

/-- Whether the innermost of the places is for a count. -/
def atCount (places : List Place) : Bool := places.head?.any Place.isCount

/-- The declared types that the tokens name, `last` being the word right before them. -/
def mentions (last : String) (places : List Place) : List Token → List Mention
  | [] => []
  | .word w :: rest =>
    if w ∈ typeWords ∨ atCount places = true then mentions w places rest
    else ⟨w, places⟩ :: mentions w places rest
  | .mark m :: rest => mentions "" (nextPlaces last m places) rest

/-- The declared types that the text of a type names. -/
def namesIn (text : String) : List String := (mentions "" [] (tokens text)).map Mention.name

/-- Whether nothing around a word is kept elsewhere. -/
def allHeld (places : List Place) : Bool := places.all fun place => !place.isApart

/-- The declared types that the text of a type names outside of `Box` and of vectors. -/
def heldNamesIn (text : String) : List String :=
  ((mentions "" [] (tokens text)).filter fun m => allHeld m.places).map Mention.name

/-! ## Reading step by step -/

/-- Reading the tokens finds the given names and leads from the first places to the second. -/
def Reads (before : List Place) (ts : List Token) (after : List Place) (found : List Mention) :
    Prop :=
  ∀ last, ∃ last', ∀ rest, mentions last before (ts ++ rest) = found ++ mentions last' after rest

namespace Reads

variable {before between after : List Place} {ts ts' : List Token} {found found' : List Mention}

theorem append (h : Reads before ts between found) (h' : Reads between ts' after found') :
    Reads before (ts ++ ts') after (found ++ found') := by
  intro last
  obtain ⟨last', hfirst⟩ := h last
  obtain ⟨last'', hsecond⟩ := h' last'
  refine ⟨last'', ?_⟩
  intro rest
  rw [List.append_assoc, hfirst, hsecond, List.append_assoc]

theorem typeWord {w : String} (hw : w ∈ typeWords) : Reads before [.word w] before [] := by
  intro last
  refine ⟨w, ?_⟩
  intro rest
  simp [mentions, hw]

theorem name {w : String} (hw : w ∉ typeWords) (hplace : atCount before = false) :
    Reads before [.word w] before [⟨w, before⟩] := by
  intro last
  refine ⟨w, ?_⟩
  intro rest
  simp [mentions, hw, hplace]

/-- Only `<` looks back at the word before it. -/
theorem mark {m : Char} (hm : m ≠ '<') : Reads before [.mark m] (nextPlaces "" m before) [] := by
  intro last
  refine ⟨"", ?_⟩
  intro rest
  have hplaces : nextPlaces last m before = nextPlaces "" m before := by
    unfold nextPlaces
    split
    · exact absurd rfl hm
    all_goals rfl
  simp [mentions, hplaces]

theorem generic {w : String} (hw : w ∈ typeWords) :
    Reads before [.word w, .mark '<'] (.arguments w :: before) [] := by
  intro last
  refine ⟨"", ?_⟩
  intro rest
  simp [mentions, hw, nextPlaces]

/-- A length, whatever its spelling, names no type. -/
theorem length {l : String} (hl : ∀ c ∈ l.toList, isMark c = false)
    (hplace : atCount before = true) : Reads before (tokens l) before [] := by
  intro last
  by_cases hempty : l = ""
  · refine ⟨last, ?_⟩
    intro rest
    subst hempty
    rfl
  · refine ⟨l, ?_⟩
    intro rest
    simp [tokens_of_isWord ⟨hempty, hl⟩, mentions, hplace]

theorem mentions_eq (h : Reads before ts after found) (last : String) :
    mentions last before ts = found := by
  obtain ⟨last', hread⟩ := h last
  simpa [mentions] using hread []

end Reads

end TypeText

/-! ## The tokens of a type -/

open TypeText (Token tokens IsWord isMark Reads Mention Place typeWords mentions atCount namesIn
  heldNamesIn)

namespace RustType

/-- A generic type with what stands between its angle brackets. -/
def genericTokens (generic : String) (arguments : List Token) : List Token :=
  [.word generic, .mark '<'] ++ arguments ++ [.mark '>']

/-- An element type and a length in square brackets. -/
def bracketedTokens (element : List Token) (length : String) : List Token :=
  [.mark '['] ++ element ++ [.mark ';', .mark ' '] ++ tokens length ++ [.mark ']']

def tokens : RustType → List Token
  | .named name => [.word name]
  | .primitive q => [.word q.name]
  | .array element length => bracketedTokens element.tokens length
  | .varArray element (some bound) =>
    genericTokens "LimitedVarArray"
      (element.tokens ++ [.mark ',', .mark ' '] ++ TypeText.tokens bound)
  | .varArray element none => genericTokens "UnlimitedVarArray" element.tokens
  | .bytes length => bracketedTokens [.word "u8"] length
  | .varBytes (some bound) => genericTokens "LimitedVarOpaque" (TypeText.tokens bound)
  | .varBytes none => [.word "UnlimitedVarOpaque"]
  | .text (some bound) => genericTokens "LimitedString" (TypeText.tokens bound)
  | .text none => [.word "UnlimitedString"]
  | .option inner => genericTokens "Option" inner.tokens
  | .boxed name => genericTokens "Box" [.word name]

theorem tokens_generic {generic : String} (h : generic ∈ typeWords) (arguments : String) :
    TypeText.tokens (generic ++ "<" ++ arguments ++ ">") =
      genericTokens generic (TypeText.tokens arguments) := by
  have hclose : TypeText.tokens (generic ++ "<" ++ arguments ++ ">" ++ "") = _ :=
    TypeText.tokens_separated '>' [] rfl (by simp [isMark])
  have hopen : TypeText.tokens (generic ++ "<" ++ arguments) = _ :=
    TypeText.tokens_separated '<' [] rfl (by simp [isMark])
  rw [String.append_empty, hopen,
    TypeText.tokens_of_isWord (TypeText.isWord_of_mem_typeWords _ h)] at hclose
  simpa [genericTokens] using hclose

theorem tokens_bracketed (element length : String) :
    TypeText.tokens (bracketed .declared element length) =
      bracketedTokens (TypeText.tokens element) length := by
  have hclose : TypeText.tokens ("" ++ "[" ++ element ++ "; " ++ length ++ "]" ++ "") = _ :=
    TypeText.tokens_separated ']' [] rfl (by simp [isMark])
  have hlength : TypeText.tokens ("" ++ "[" ++ element ++ "; " ++ length) = _ :=
    TypeText.tokens_separated ';' [' '] rfl (by simp [isMark])
  have hopen : TypeText.tokens ("" ++ "[" ++ element) = _ :=
    TypeText.tokens_separated '[' [] rfl (by simp [isMark])
  rw [String.append_empty, hlength, hopen, String.empty_append] at hclose
  simpa [bracketed, bracketedTokens] using hclose

/-- The text of a type has the tokens of the type. -/
theorem tokens_declared {t : RustType} (h : ∀ n ∈ t.names, IsWord n) :
    TypeText.tokens t.declared = t.tokens := by
  unfold declared
  induction t with
  | named name => exact TypeText.tokens_of_isWord (h name List.mem_cons_self)
  | primitive q => cases q <;> decide
  | array element length ih => rw [write_array, tokens_bracketed, ih h, tokens]
  | varArray element bound ih =>
    cases bound with
    | none =>
      rw [write_varArray_none, separator, String.append_empty, tokens_generic (by decide), ih h,
        tokens]
    | some bound =>
      have hbound : TypeText.tokens (element.write .declared ++ ", " ++ bound) = _ :=
        TypeText.tokens_separated ',' [' '] rfl (by simp [isMark])
      have hgeneric : TypeText.tokens ("LimitedVarArray" ++ "<" ++
          (element.write .declared ++ ", " ++ bound) ++ ">") = _ := tokens_generic (by decide) _
      rw [hbound, ih h] at hgeneric
      rw [write_varArray_some, separator, String.append_empty, tokens]
      simpa only [String.append_assoc, List.map_cons, List.map_nil] using hgeneric
  | bytes length => rw [write_bytes, tokens_bracketed, tokens]; rfl
  | varBytes bound =>
    cases bound with
    | none => decide
    | some bound =>
      exact tokens_generic (show "LimitedVarOpaque" ∈ typeWords by decide) bound
  | text bound =>
    cases bound with
    | none => decide
    | some bound => exact tokens_generic (show "LimitedString" ∈ typeWords by decide) bound
  | option inner ih =>
    rw [write_option, separator, String.append_empty, tokens_generic (by decide), ih h, tokens]
  | boxed name =>
    have hgeneric : TypeText.tokens ("Box" ++ "<" ++ name ++ ">") = _ :=
      tokens_generic (by decide) _
    rw [TypeText.tokens_of_isWord (h name List.mem_cons_self)] at hgeneric
    exact hgeneric

/-! ## What reading a type finds -/

/-- The names in a type expression, each with the places around it. -/
def mentions (places : List Place) : RustType → List Mention
  | .named name => [⟨name, places⟩]
  | .boxed name => [⟨name, .arguments "Box" :: places⟩]
  | .array element _ => element.mentions (.brackets :: places)
  | .varArray element (some _) => element.mentions (.arguments "LimitedVarArray" :: places)
  | .varArray element none => element.mentions (.arguments "UnlimitedVarArray" :: places)
  | .option inner => inner.mentions (.arguments "Option" :: places)
  | _ => []

/-- The lengths and bounds in a type expression. -/
def lengths : RustType → List String
  | .array element length => length :: element.lengths
  | .varArray element bound => bound.toList ++ element.lengths
  | .bytes length => [length]
  | .varBytes bound => bound.toList
  | .text bound => bound.toList
  | .option inner => inner.lengths
  | _ => []

end RustType

namespace TypeText

/-- A name that can be told from everything else in the text of a type, as every identifier
can that is no type word of the generator. -/
def IsReferenceName (n : String) : Prop := IsWord n ∧ n ∉ typeWords

/-- A type whose names can be told from everything else in its text. -/
structure Legible (t : RustType) : Prop where
  names : ∀ n ∈ t.names, IsReferenceName n
  lengths : ∀ l ∈ t.lengths, ∀ c ∈ l.toList, isMark c = false

section Reads

variable {places : List Place} {place : Place} {ts : List Token} {found : List Mention}

/-- Reading a generic type is reading its arguments, which may end in a count. -/
theorem Reads.genericTokens {generic : String} (hgeneric : generic ∈ typeWords)
    (h : Reads (.arguments generic :: places) ts (place :: places) found) :
    Reads places (RustType.genericTokens generic ts) places found := by
  have hread := ((Reads.generic hgeneric).append h).append (Reads.mark (by decide : '>' ≠ '<'))
  simpa [RustType.genericTokens, nextPlaces] using hread

theorem Reads.bracketedTokens {length : String} (hlength : ∀ c ∈ length.toList, isMark c = false)
    (h : Reads (.brackets :: places) ts (.brackets :: places) found) :
    Reads places (RustType.bracketedTokens ts length) places found := by
  have hcount : Reads (.brackets :: places) [.mark ';', .mark ' '] (.count :: places) [] :=
    (Reads.mark (by decide : ';' ≠ '<')).append (Reads.mark (by decide : ' ' ≠ '<'))
  have hopen : Reads places [.mark '['] (.brackets :: places) [] :=
    Reads.mark (by decide : '[' ≠ '<')
  have hread := (((hopen.append h).append hcount).append (Reads.length hlength rfl)).append
    (Reads.mark (by decide : ']' ≠ '<'))
  simpa [RustType.bracketedTokens, nextPlaces] using hread

/-- Reading the tokens of a type finds its names and ends where it began. -/
theorem Legible.reads {t : RustType} (h : Legible t) (hplace : atCount places = false) :
    Reads places t.tokens places (t.mentions places) := by
  obtain ⟨hnames, hlengths⟩ := h
  induction t generalizing places with
  | named name => exact Reads.name (hnames name List.mem_cons_self).2 hplace
  | primitive q => cases q <;> exact Reads.typeWord (by decide)
  | array element length ih =>
    refine Reads.bracketedTokens (hlengths length List.mem_cons_self) (ih rfl hnames ?_)
    exact fun l hl => hlengths l (List.mem_cons_of_mem length hl)
  | varArray element bound ih =>
    have helement : ∀ l ∈ element.lengths, ∀ c ∈ l.toList, isMark c = false :=
      fun l hl => hlengths l (List.mem_append_right _ hl)
    cases bound with
    | none => exact Reads.genericTokens (by decide) (ih rfl hnames helement)
    | some bound =>
      have hbound := hlengths bound (List.mem_append_left _ List.mem_cons_self)
      have hcount : Reads (.arguments "LimitedVarArray" :: places) [.mark ',', .mark ' ']
          (.count :: places) [] :=
        (Reads.mark (by decide : ',' ≠ '<')).append (Reads.mark (by decide : ' ' ≠ '<'))
      have hread := ((ih rfl hnames helement).append hcount).append (Reads.length hbound rfl)
      rw [List.append_nil, List.append_nil] at hread
      exact Reads.genericTokens (by decide) hread
  | bytes length =>
    exact Reads.bracketedTokens (hlengths length List.mem_cons_self) (Reads.typeWord (by decide))
  | varBytes bound =>
    cases bound with
    | none => exact Reads.typeWord (by decide)
    | some bound =>
      exact Reads.genericTokens (by decide) (Reads.length (hlengths bound List.mem_cons_self) rfl)
  | text bound =>
    cases bound with
    | none => exact Reads.typeWord (by decide)
    | some bound =>
      exact Reads.genericTokens (by decide) (Reads.length (hlengths bound List.mem_cons_self) rfl)
  | option inner ih => exact Reads.genericTokens (by decide) (ih rfl hnames hlengths)
  | boxed name =>
    exact Reads.genericTokens (by decide) (Reads.name (hnames name List.mem_cons_self).2 rfl)

end Reads

theorem map_name_mentions (t : RustType) (places : List Place) :
    (t.mentions places).map Mention.name = t.names := by
  induction t generalizing places with
  | array element length ih => exact ih _
  | varArray element bound ih => cases bound <;> exact ih _
  | option inner ih => exact ih _
  | _ => rfl

theorem allHeld_cons (place : Place) (places : List Place) :
    allHeld (place :: places) = (!place.isApart && allHeld places) := rfl

/-- Of the names in a type, those that it holds are outside of all that is kept elsewhere, and
no others. -/
theorem map_name_filter_allHeld (t : RustType) (places : List Place) :
    ((t.mentions places).filter fun m => allHeld m.places).map Mention.name =
      if allHeld places then t.heldNames else [] := by
  induction t generalizing places with
  | named name =>
    cases hplaces : allHeld places <;> simp [RustType.mentions, RustType.heldNames, hplaces]
  | boxed name => simp [RustType.mentions, RustType.heldNames, allHeld_cons, Place.isApart]
  | array element length ih =>
    rw [RustType.mentions, ih]
    simp [RustType.heldNames, allHeld_cons, Place.isApart]
  | varArray element bound ih =>
    cases bound <;>
      (rw [RustType.mentions, ih]; simp [RustType.heldNames, allHeld_cons, Place.isApart])
  | option inner ih =>
    rw [RustType.mentions, ih]
    simp [RustType.heldNames, allHeld_cons, Place.isApart]
  | _ => simp [RustType.mentions, RustType.heldNames]

/-! ## What reading a declared type finds -/

/-- The text of a declared type is read as the type in its places, inside of `Box` or not. -/
theorem mentions_declaredType {t : RustType} (h : Legible t) (boxed : Bool) :
    mentions "" [] (tokens (declaredType t boxed)) =
      t.mentions (if boxed then [.arguments "Box"] else []) := by
  have htokens : tokens t.declared = t.tokens :=
    RustType.tokens_declared fun n hn => (h.names n hn).1
  cases boxed with
  | false =>
    show mentions "" [] (tokens t.declared) = t.mentions []
    rw [htokens]
    exact (h.reads rfl).mentions_eq ""
  | true =>
    show mentions "" [] (tokens ("Box" ++ "<" ++ t.declared ++ ">")) = t.mentions [.arguments "Box"]
    rw [RustType.tokens_generic (by decide), htokens]
    exact (Reads.genericTokens (by decide) (h.reads rfl)).mentions_eq ""

theorem namesIn_declaredType {t : RustType} (h : Legible t) (boxed : Bool) :
    namesIn (declaredType t boxed) = t.names := by
  rw [namesIn, mentions_declaredType h, map_name_mentions]

theorem heldNamesIn_declaredType {t : RustType} (h : Legible t) (boxed : Bool) :
    heldNamesIn (declaredType t boxed) = if boxed then [] else t.heldNames := by
  rw [heldNamesIn, mentions_declaredType h, map_name_filter_allHeld]
  cases boxed <;> rfl

-- One word as a type and as a length, and once more behind a pointer.
example : heldNamesIn "[SIZE; SIZE]" = ["SIZE"] ∧ heldNamesIn "Box<SIZE>" = [] := by decide

end TypeText

end XdrCompiler
