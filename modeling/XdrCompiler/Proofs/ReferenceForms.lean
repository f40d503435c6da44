/-
# XdrCompiler.Proofs.ReferenceForms -- the two written forms of a type

A type is written in one form where it is declared and in another one in front of
`::`, where a generic type has `::` before its arguments and an array type has
angle brackets around it. The main statement, `forms_agree`, says that these are
two forms of the same type. A descriptor has both or neither, and what is at the
bottom of its wrappers decides the refusal. The declared form is got from the
callable one by taking out each `::` and then the angle brackets around arrays.

The last point is about text, where `<[` and `]>` might also come about by chance
where two constructs meet. So the text is cut into pieces that do not depend on
the form, only their spelling does. Each of the three replacements changes the
spelling of one kind of piece and no more (`replaceAll_separators`,
`replaceAll_openings`, `replaceAll_closings`): before the second one every `[` has its own
`<` right before it, and before the third one every `]` has its own `>` right
behind it, whatever comes before and after those.
-/
import XdrCompiler.Proofs.CachedSets
import XdrCompiler.Proofs.Replacement

namespace XdrCompiler

open Text (replaceAll replaceAll_occurrence replaceAll_append_of_notMem replaceAll_cons)

/-! ## Pieces of a type -/

/-- A stretch of the text of a type. -/
inductive Piece
  | plain (text : String)
  /-- Between a generic type and its arguments. -/
  | separator
  | less
  | greater
  /-- Where an array begins. -/
  | opening
  /-- Where an array ends. -/
  | closing

/-- How the pieces that depend on the place are written. -/
structure Spelling where
  separator : List Char
  opening : List Char
  closing : List Char

def Piece.spelled (s : Spelling) : Piece → List Char
  | .plain text => text.toList
  | .separator => s.separator
  | .less => ['<']
  | .greater => ['>']
  | .opening => s.opening
  | .closing => s.closing

def Spelling.text (s : Spelling) (pieces : List Piece) : List Char := pieces.flatMap (·.spelled s)

namespace Spelling

def ofPosition : Position → Spelling
  | .declared => ⟨[], ['['], [']']⟩
  | .callable => ⟨[':', ':'], ['<', '['], [']', '>']⟩

@[simp] theorem text_nil (s : Spelling) : s.text [] = [] := rfl

@[simp] theorem text_cons (s : Spelling) (piece : Piece) (pieces : List Piece) :
    s.text (piece :: pieces) = piece.spelled s ++ s.text pieces := rfl

@[simp] theorem text_append (s : Spelling) (a b : List Piece) :
    s.text (a ++ b) = s.text a ++ s.text b := List.flatMap_append

end Spelling

namespace RustType

/-- A generic type with its arguments. -/
def genericPieces (generic : String) (arguments : List Piece) : List Piece :=
  [.plain generic, .separator, .less] ++ arguments ++ [.greater]

/-- An element type and a length. -/
def arrayPieces (element : List Piece) (length : String) : List Piece :=
  [.opening] ++ element ++ [.plain "; ", .plain length, .closing]

def pieces : RustType → List Piece
  | .named name => [.plain name]
  | .primitive q => [.plain q.name]
  | .array element length => arrayPieces element.pieces length
  | .varArray element (some bound) =>
    genericPieces "LimitedVarArray" (element.pieces ++ [.plain ", ", .plain bound])
  | .varArray element none => genericPieces "UnlimitedVarArray" element.pieces
  | .bytes length => arrayPieces [.plain "u8"] length
  | .varBytes (some bound) => genericPieces "LimitedVarOpaque" [.plain bound]
  | .varBytes none => [.plain "UnlimitedVarOpaque"]
  | .text (some bound) => genericPieces "LimitedString" [.plain bound]
  | .text none => [.plain "UnlimitedString"]
  | .option inner => genericPieces "Option" inner.pieces
  | .boxed name => [.plain "Box", .less, .plain name, .greater]

theorem write_varBytes_some (p : Position) (bound : String) :
    (varBytes (some bound)).write p = "LimitedVarOpaque" ++ separator p ++ "<" ++ bound ++ ">" := rfl

theorem write_varBytes_none (p : Position) : (varBytes none).write p = "UnlimitedVarOpaque" := rfl

theorem write_text_some (p : Position) (bound : String) :
    (text (some bound)).write p = "LimitedString" ++ separator p ++ "<" ++ bound ++ ">" := rfl

theorem write_text_none (p : Position) : (text none).write p = "UnlimitedString" := rfl

theorem toList_separator (p : Position) :
    (separator p).toList = (Spelling.ofPosition p).separator := by
  cases p <;> rfl

theorem toList_bracketed (p : Position) (element length : String) :
    (bracketed p element length).toList =
      (Spelling.ofPosition p).opening ++ element.toList ++ "; ".toList ++ length.toList ++
        (Spelling.ofPosition p).closing := by
  cases p <;> simp [bracketed, Spelling.ofPosition]

theorem text_genericPieces {p : Position} {generic arguments : String} {pieces : List Piece}
    (h : (Spelling.ofPosition p).text pieces = arguments.toList) :
    (Spelling.ofPosition p).text (genericPieces generic pieces) =
      (generic ++ separator p ++ "<" ++ arguments ++ ">").toList := by
  simp [genericPieces, Piece.spelled, h, toList_separator]

theorem text_arrayPieces {p : Position} {element length : String} {pieces : List Piece}
    (h : (Spelling.ofPosition p).text pieces = element.toList) :
    (Spelling.ofPosition p).text (arrayPieces pieces length) =
      (bracketed p element length).toList := by
  simp [arrayPieces, Piece.spelled, h, toList_bracketed]

/-- The text of a type in either place is its pieces, spelled as in that place. -/
theorem text_pieces (p : Position) (t : RustType) :
    (Spelling.ofPosition p).text t.pieces = (t.write p).toList := by
  have hword (word : String) : (Spelling.ofPosition p).text [.plain word] = word.toList := by
    simp [Piece.spelled]
  induction t with
  | named name => exact hword name
  | primitive q => exact hword q.name
  | array element length ih => rw [pieces, text_arrayPieces ih, write_array]
  | bytes length => rw [pieces, text_arrayPieces (hword "u8"), write_bytes]
  | varArray element bound ih =>
    cases bound with
    | none => rw [pieces, text_genericPieces ih, write_varArray_none]
    | some bound =>
      have harguments :
          (Spelling.ofPosition p).text (element.pieces ++ [.plain ", ", .plain bound]) =
            (element.write p ++ ", " ++ bound).toList := by
        simp [ih, Piece.spelled]
      rw [pieces, text_genericPieces harguments, write_varArray_some]
      simp only [String.append_assoc]
  | varBytes bound =>
    cases bound with
    | none => rw [pieces, hword, write_varBytes_none]
    | some bound => rw [pieces, text_genericPieces (hword bound), write_varBytes_some]
  | text bound =>
    cases bound with
    | none => rw [pieces, hword, write_text_none]
    | some bound => rw [pieces, text_genericPieces (hword bound), write_text_some]
  | option inner ih => rw [pieces, text_genericPieces ih, write_option]
  | boxed name => simp [pieces, Piece.spelled]

end RustType

/-! ## Plain text -/

/-- The text has none of the marks by which the two forms differ. -/
def Unmarked (text : String) : Prop := ∀ c ∈ text.toList, c ∉ [':', '<', '>', '[', ']']

/-- The piece has the marks of its own kind only. -/
def Piece.Clean : Piece → Prop
  | .plain text => Unmarked text
  | _ => True

theorem Unmarked.notMem {text : String} (h : Unmarked text) {c : Char}
    (hc : c ∈ [':', '<', '>', '[', ']']) : c ∉ text.toList :=
  fun hmem => h c hmem hc

theorem Length.unmarked_text (length : Length) : Unmarked length.text := by
  intro c hc hmark
  have hident : Naming.isIdentChar c = true ∨ c = '-' := by
    cases length with
    | literal n =>
      refine (Naming.isDigit_or_minus_of_mem_toString hc).imp_left ?_
      intro hdigit
      simp [Naming.isIdentChar, Char.isAlphanum, hdigit]
    | constant name => exact Or.inl (Naming.isIdentChar_of_mem_constantCase hc)
  simp only [List.mem_cons, List.not_mem_nil, or_false] at hmark
  rcases hmark with rfl | rfl | rfl | rfl | rfl <;> exact absurd hident (by decide)

theorem unmarked_of_mem_typeWords : ∀ word ∈ TypeText.typeWords, Unmarked word := by
  simp [TypeText.typeWords, Unmarked]

theorem Primitive.name_mem_typeWords (q : Primitive) : q.name ∈ TypeText.typeWords := by
  cases q <;> decide

theorem forall_clean_plain {text : String} (h : Unmarked text) :
    ∀ piece ∈ [Piece.plain text], piece.Clean :=
  List.forall_mem_singleton.mpr h

namespace RustType

theorem clean_genericPieces {generic : String} {arguments : List Piece}
    (hgeneric : generic ∈ TypeText.typeWords) (h : ∀ piece ∈ arguments, piece.Clean) :
    ∀ piece ∈ genericPieces generic arguments, piece.Clean := by
  simp only [genericPieces, List.forall_mem_append, List.forall_mem_cons]
  refine ⟨⟨⟨unmarked_of_mem_typeWords generic hgeneric, trivial, trivial, ?_⟩, h⟩, trivial, ?_⟩
  · exact List.forall_mem_nil _
  · exact List.forall_mem_nil _

theorem clean_arrayPieces {element : List Piece} {length : String} (hlength : Unmarked length)
    (h : ∀ piece ∈ element, piece.Clean) : ∀ piece ∈ arrayPieces element length, piece.Clean := by
  have hmiddle : Unmarked "; " := by simp [Unmarked]
  simp only [arrayPieces, List.forall_mem_append, List.forall_mem_cons]
  refine ⟨⟨⟨trivial, ?_⟩, h⟩, hmiddle, hlength, trivial, ?_⟩
  · exact List.forall_mem_nil _
  · exact List.forall_mem_nil _

/-- If the names and lengths in a type have no marks, then its pieces have their own only. -/
theorem clean_pieces {t : RustType} (hnames : ∀ n ∈ t.names, Unmarked n)
    (hlengths : ∀ l ∈ t.lengths, Unmarked l) : ∀ piece ∈ t.pieces, piece.Clean := by
  have hword : ∀ word ∈ TypeText.typeWords, ∀ piece ∈ [Piece.plain word], piece.Clean :=
    fun word hmem => forall_clean_plain (unmarked_of_mem_typeWords word hmem)
  induction t with
  | named name => exact forall_clean_plain (hnames name List.mem_cons_self)
  | primitive q => exact hword q.name q.name_mem_typeWords
  | array element length ih =>
    obtain ⟨hlength, hothers⟩ := List.forall_mem_cons.mp hlengths
    exact clean_arrayPieces hlength (ih hnames hothers)
  | bytes length =>
    exact clean_arrayPieces (hlengths length List.mem_cons_self) (hword "u8" (by decide))
  | varArray element bound ih =>
    obtain ⟨hbound, hothers⟩ := List.forall_mem_append.mp hlengths
    have helement := ih hnames hothers
    cases bound with
    | none => exact clean_genericPieces (by decide) helement
    | some bound =>
      have hcomma : Unmarked ", " := by simp [Unmarked]
      refine clean_genericPieces (by decide) (List.forall_mem_append.mpr ⟨helement, ?_⟩)
      exact List.forall_mem_cons.mpr
        ⟨hcomma, forall_clean_plain (hbound bound List.mem_cons_self)⟩
  | varBytes bound =>
    cases bound with
    | none => exact hword "UnlimitedVarOpaque" (by decide)
    | some bound =>
      exact clean_genericPieces (by decide)
        (forall_clean_plain (hlengths bound List.mem_cons_self))
  | text bound =>
    cases bound with
    | none => exact hword "UnlimitedString" (by decide)
    | some bound =>
      exact clean_genericPieces (by decide)
        (forall_clean_plain (hlengths bound List.mem_cons_self))
  | option inner ih => exact clean_genericPieces (by decide) (ih hnames hlengths)
  | boxed name =>
    have hname := hnames name List.mem_cons_self
    exact List.forall_mem_cons.mpr ⟨unmarked_of_mem_typeWords "Box" (by decide),
      List.forall_mem_cons.mpr ⟨trivial, List.forall_mem_cons.mpr ⟨hname,
        List.forall_mem_singleton.mpr trivial⟩⟩⟩

end RustType

/-! ## Replacing the marks -/

section Replacing

variable {pieces : List Piece}

/-- A replacement that respells each piece in front of others respells the whole text. -/
theorem replaceAll_text {old new : List Char} {s s' : Spelling}
    (hpiece : ∀ (piece : Piece) (after : List Piece), piece.Clean → (∀ p ∈ after, p.Clean) →
      replaceAll old new (piece.spelled s ++ s.text after) =
        piece.spelled s' ++ replaceAll old new (s.text after))
    (h : ∀ piece ∈ pieces, piece.Clean) : replaceAll old new (s.text pieces) = s'.text pieces := by
  induction pieces with
  | nil => rw [Spelling.text_nil, Spelling.text_nil, Text.replaceAll_nil]
  | cons piece after ih =>
    obtain ⟨hclean, hafter⟩ := List.forall_mem_cons.mp h
    rw [Spelling.text_cons, Spelling.text_cons, hpiece piece after hclean hafter, ih hafter]

/-- Colons stand between generic types and their arguments only. -/
theorem replaceAll_separators (h : ∀ piece ∈ pieces, piece.Clean) :
    replaceAll [':', ':'] [] (Spelling.text ⟨[':', ':'], ['<', '['], [']', '>']⟩ pieces) =
      Spelling.text ⟨[], ['<', '['], [']', '>']⟩ pieces := by
  refine replaceAll_text ?_ h
  intro piece after hclean _
  cases piece with
  | plain text => exact replaceAll_append_of_notMem (Unmarked.notMem hclean (by decide)) _
  | separator => exact replaceAll_occurrence _
  | less => exact replaceAll_append_of_notMem (by simp [Piece.spelled]) _
  | greater => exact replaceAll_append_of_notMem (by simp [Piece.spelled]) _
  | opening => exact replaceAll_append_of_notMem (by simp [Piece.spelled]) _
  | closing => exact replaceAll_append_of_notMem (by simp [Piece.spelled]) _

/-- As long as arrays begin with `<`, no text begins with `[`. -/
theorem head?_text_ne (h : ∀ piece ∈ pieces, piece.Clean) :
    (Spelling.text ⟨[], ['<', '['], [']', '>']⟩ pieces).head? ≠ some '[' := by
  induction pieces with
  | nil => simp
  | cons piece after ih =>
    obtain ⟨hclean, hafter⟩ := List.forall_mem_cons.mp h
    rw [Spelling.text_cons, List.head?_append]
    cases piece with
    | plain text =>
      cases hhead : text.toList.head? with
      | none => simpa [Piece.spelled, hhead] using ih hafter
      | some c =>
        have hc : c ≠ '[' := by
          rintro rfl
          exact Unmarked.notMem hclean (by decide) (List.mem_of_mem_head? hhead)
        simpa [Piece.spelled, hhead] using hc
    | separator => simpa [Piece.spelled] using ih hafter
    | less => simp [Piece.spelled]
    | greater => simp [Piece.spelled]
    | opening => simp [Piece.spelled]
    | closing => simp [Piece.spelled]

/-- So `<[` is where an array begins, also behind the `<` of a generic type. -/
theorem replaceAll_openings (h : ∀ piece ∈ pieces, piece.Clean) :
    replaceAll ['<', '['] ['['] (Spelling.text ⟨[], ['<', '['], [']', '>']⟩ pieces) =
      Spelling.text ⟨[], ['['], [']', '>']⟩ pieces := by
  refine replaceAll_text ?_ h
  intro piece after hclean hafter
  cases piece with
  | plain text => exact replaceAll_append_of_notMem (Unmarked.notMem hclean (by decide)) _
  | separator => rfl
  | less =>
    apply replaceAll_cons
    intro hocc
    obtain ⟨rest, hrest⟩ : ['['] <+: Spelling.text _ after := (List.cons_prefix_cons.mp hocc).2
    apply head?_text_ne hafter
    rw [← hrest]
    rfl
  | greater => exact replaceAll_append_of_notMem (by simp [Piece.spelled]) _
  | opening => exact replaceAll_occurrence _
  | closing => exact replaceAll_append_of_notMem (by simp [Piece.spelled]) _

/-- And a `]` is always the end of an array. -/
theorem replaceAll_closings (h : ∀ piece ∈ pieces, piece.Clean) :
    replaceAll [']', '>'] [']'] (Spelling.text ⟨[], ['['], [']', '>']⟩ pieces) =
      Spelling.text ⟨[], ['['], [']']⟩ pieces := by
  refine replaceAll_text ?_ h
  intro piece after hclean _
  cases piece with
  | plain text => exact replaceAll_append_of_notMem (Unmarked.notMem hclean (by decide)) _
  | separator => rfl
  | less => exact replaceAll_append_of_notMem (by simp [Piece.spelled]) _
  | greater => exact replaceAll_append_of_notMem (by simp [Piece.spelled]) _
  | opening => exact replaceAll_append_of_notMem (by simp [Piece.spelled]) _
  | closing => exact replaceAll_occurrence _

end Replacing

/-- The callable form without its colons and without the angle brackets around arrays. -/
def shortened (callable : String) : String :=
  .ofList (replaceAll [']', '>'] [']'] (replaceAll ['<', '['] ['[']
    (replaceAll [':', ':'] [] callable.toList)))

theorem RustType.shortened_callable {t : RustType} (hnames : ∀ n ∈ t.names, Unmarked n)
    (hlengths : ∀ l ∈ t.lengths, Unmarked l) : shortened t.callable = t.declared := by
  have hclean := clean_pieces hnames hlengths
  apply String.toList_inj.mp
  rw [shortened, String.toList_ofList, callable, ← text_pieces, Spelling.ofPosition,
    replaceAll_separators hclean, replaceAll_openings hclean, replaceAll_closings hclean, declared,
    ← text_pieces, Spelling.ofPosition]

/-! ## Which descriptors have neither form -/

namespace XdrType

/-- What is left of a descriptor without its wrappers. -/
def innermost : XdrType → XdrType
  | .array element _ => element.innermost
  | .varArray element _ => element.innermost
  | .option inner => inner.innermost
  | t => t

/-- The reason why something at the bottom of a descriptor has no Rust type. -/
inductive Refused : XdrType → Failure → Prop
  | void : Refused .void (.schema .voidReference)
  | enum (decl : EnumDecl) : Refused (.enum decl) (.internal (.unnamed "enum" decl.name))
  | struct (decl : StructDecl) : Refused (.struct decl) (.internal (.unnamed "struct" decl.name))
  | union (decl : UnionDecl) : Refused (.union decl) (.internal (.unnamed "union" decl.name))
  | raw (value : RawValue) : Refused (.raw value) (.internal (.unsupported value))

/-- A descriptor has no Rust type exactly if there is a reason at its bottom. -/
theorem toRust_eq_error_iff {t : XdrType} {failure : Failure} :
    t.toRust = .error failure ↔ Refused t.innermost failure := by
  induction t with
  | array element length ih => exact map_eq_error_iff.trans ih
  | varArray element bound ih => exact map_eq_error_iff.trans ih
  | option inner ih => exact map_eq_error_iff.trans ih
  | void => exact ⟨fun | rfl => .void, fun | .void => rfl⟩
  | enum decl => exact ⟨fun | rfl => .enum decl, fun | .enum _ => rfl⟩
  | struct decl => exact ⟨fun | rfl => .struct decl, fun | .struct _ => rfl⟩
  | union decl => exact ⟨fun | rfl => .union decl, fun | .union _ => rfl⟩
  | raw value => exact ⟨fun | rfl => .raw value, fun | .raw _ => rfl⟩
  | _ => exact ⟨nofun, nofun⟩

theorem declaredText_eq_error_iff {t : XdrType} {failure : Failure} :
    t.declaredText = .error failure ↔ Refused t.innermost failure :=
  map_eq_error_iff.trans toRust_eq_error_iff

theorem callableText_eq_error_iff {t : XdrType} {failure : Failure} :
    t.callableText = .error failure ↔ Refused t.innermost failure :=
  map_eq_error_iff.trans toRust_eq_error_iff

theorem refused_void_iff {t : XdrType} : Refused t (.schema .voidReference) ↔ t = .void :=
  ⟨fun | .void => rfl, fun h => h ▸ .void⟩

theorem refused_internal_iff {t : XdrType} :
    (∃ e, Refused t (.internal e)) ↔ t.label ≠ .typeAlias ∨ ∃ value, t = .raw value := by
  cases t with
  | enum decl => exact ⟨fun _ => Or.inl nofun, fun _ => ⟨_, .enum decl⟩⟩
  | struct decl => exact ⟨fun _ => Or.inl nofun, fun _ => ⟨_, .struct decl⟩⟩
  | union decl => exact ⟨fun _ => Or.inl nofun, fun _ => ⟨_, .union decl⟩⟩
  | raw value => exact ⟨fun _ => Or.inr ⟨value, rfl⟩, fun _ => ⟨_, .raw value⟩⟩
  | _ =>
    -- Neither a declaration nor a value that is no type.
    constructor
    · rintro ⟨e, ⟨⟩⟩
    · rintro (h | ⟨value, ⟨⟩⟩)
      exact absurd rfl h

theorem exists_text_iff (t : XdrType) :
    ((∃ text, t.declaredText = .ok text) ↔ t.Renders) ∧
      ((∃ text, t.callableText = .ok text) ↔ t.Renders) := by
  unfold declaredText callableText Renders
  cases t.toRust with
  | error failure => simp [Except.map]
  | ok type => simp [Except.map]

end XdrType

/-! ## Agreement -/

/-- What the two written forms of a descriptor have to do with each other. -/
structure FormsAgree (t : XdrType) : Prop where
  both : (∃ declared, t.declaredText = .ok declared) ↔ ∃ callable, t.callableText = .ok callable
  sameRefusal : ∀ failure, t.declaredText = .error failure ↔ t.callableText = .error failure
  refusal : ∀ failure, t.declaredText = .error failure ↔ XdrType.Refused t.innermost failure
  void : t.declaredText = .error (.schema .voidReference) ↔ t.innermost = .void
  /-- A declaration may only be named, and a value that is no type cannot be written. -/
  internal : (∃ e, t.declaredText = .error (.internal e)) ↔
    t.innermost.label ≠ .typeAlias ∨ ∃ value, t.innermost = .raw value
  text : ∀ declared callable, t.declaredText = .ok declared → t.callableText = .ok callable →
    (∀ n ∈ t.dependencies, Unmarked n) → shortened callable = declared

/-- The declared and the callable form of every descriptor are forms of one type. -/
theorem forms_agree (t : XdrType) : FormsAgree t where
  both := by
    obtain ⟨hdeclared, hcallable⟩ := t.exists_text_iff
    rw [hdeclared, hcallable]
  sameRefusal failure := by
    rw [XdrType.declaredText_eq_error_iff, XdrType.callableText_eq_error_iff]
  refusal _ := XdrType.declaredText_eq_error_iff
  void := XdrType.declaredText_eq_error_iff.trans XdrType.refused_void_iff
  internal := by
    simp only [XdrType.declaredText_eq_error_iff]
    exact XdrType.refused_internal_iff
  text := by
    intro declared callable hdeclared hcallable hnames
    obtain ⟨type, htype, rfl⟩ := map_eq_ok_iff.mp hdeclared
    obtain ⟨type', htype', rfl⟩ := map_eq_ok_iff.mp hcallable
    obtain rfl := Except.ok.inj (htype.symm.trans htype')
    apply RustType.shortened_callable
    · exact fun n hn => hnames n ((XdrType.mem_names_toRust htype n).mp hn)
    · intro l hl
      obtain ⟨length, rfl⟩ := XdrType.exists_length_of_toRust htype l hl
      exact length.unmarked_text

/-- Arrays in arrays and right inside of generic types. -/
def nestedArrays : XdrType :=
  .option (.varArray (.array (.array (.reference "Asset") (.literal 4)) (.constant "maxSize"))
    (some (.literal 7)))

theorem forms_agree_nestedArrays :
    nestedArrays.declaredText = .ok "Option<LimitedVarArray<[[Asset; 4]; MAX_SIZE], 7>>" ∧
      nestedArrays.callableText =
        .ok "Option::<LimitedVarArray::<<[<[Asset; 4]>; MAX_SIZE]>, 7>>" ∧
      shortened "Option::<LimitedVarArray::<<[<[Asset; 4]>; MAX_SIZE]>, 7>>" =
        "Option<LimitedVarArray<[[Asset; 4]; MAX_SIZE], 7>>" := by
  have hdeclared :
      nestedArrays.declaredText = .ok "Option<LimitedVarArray<[[Asset; 4]; MAX_SIZE], 7>>" := by
    decide +kernel
  have hcallable : nestedArrays.callableText =
      .ok "Option::<LimitedVarArray::<<[<[Asset; 4]>; MAX_SIZE]>, 7>>" := by
    decide +kernel
  refine ⟨hdeclared, hcallable, (forms_agree nestedArrays).text _ _ hdeclared hcallable ?_⟩
  intro n hn
  obtain rfl : n = "Asset" := NameSet.mem_singleton.mp hn
  simp [Unmarked]

end XdrCompiler
