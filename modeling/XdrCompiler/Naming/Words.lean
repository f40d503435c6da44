/-
# XdrCompiler.Naming.Words -- the words of a name

A name is read as a sequence of words. Letters and digits are the ASCII ones;
every other character separates words and belongs to none. Between two
neighbouring letters or digits a word ends in two places: where a capital
follows a small letter or a digit (`fooBar`), and before the last capital of a
run of capitals that a small letter continues (`HTTPServer`).

The three renderings of a name differ only in how they write the words and what
they put between them.
-/

namespace XdrCompiler.Naming

/-! ## Splitting -/

/-- Whether a word ends between the neighbours `a` and `b`, where `next` is what
follows `b`. -/
def breaksBetween (a b : Char) (next : List Char) : Bool :=
  ((a.isLower || a.isDigit) && b.isUpper) ||
    (a.isUpper && b.isUpper && (next.head?.map Char.isLower).getD false)

/-- Puts a character at the front of the first word. -/
def joinFront (c : Char) : List (List Char) → List (List Char)
  | [] => [[c]]
  | word :: words => (c :: word) :: words

/-- Whether the letter or digit `c` continues into what follows it. -/
def continues (c : Char) : List Char → Bool
  | [] => false
  | d :: next => d.isAlphanum && !breaksBetween c d next

/-- The words of a text, each a run of ASCII letters and digits. -/
def splitWords : List Char → List (List Char)
  | [] => []
  | c :: rest =>
    if c.isAlphanum then
      if continues c rest then joinFront c (splitWords rest) else [c] :: splitWords rest
    else splitWords rest

theorem flatten_joinFront (c : Char) (ws : List (List Char)) :
    (joinFront c ws).flatten = c :: ws.flatten := by
  cases ws <;> rfl

theorem ne_nil_of_mem_joinFront {c : Char} {ws : List (List Char)} (h : ∀ w ∈ ws, w ≠ []) :
    ∀ w ∈ joinFront c ws, w ≠ [] := by
  cases ws with
  | nil => simp [joinFront]
  | cons first rest =>
    intro w hw
    rcases List.mem_cons.mp hw with rfl | hw
    · exact List.cons_ne_nil c first
    · exact h w (List.mem_cons_of_mem _ hw)

/-- The words have all letters and digits of the text, in order, and nothing else. -/
theorem flatten_splitWords (cs : List Char) :
    (splitWords cs).flatten = cs.filter Char.isAlphanum := by
  induction cs with
  | nil => rfl
  | cons c rest ih =>
    by_cases h : c.isAlphanum = true
    · by_cases hc : continues c rest = true
      · simp [splitWords, h, hc, flatten_joinFront, ih]
      · simp [splitWords, h, hc, ih]
    · simp [splitWords, h, ih]

theorem ne_nil_of_mem_splitWords {cs : List Char} : ∀ w ∈ splitWords cs, w ≠ [] := by
  induction cs with
  | nil => simp [splitWords]
  | cons c rest ih =>
    by_cases h : c.isAlphanum = true
    · by_cases hc : continues c rest = true
      · simp only [splitWords, h, hc, if_true]
        exact ne_nil_of_mem_joinFront ih
      · simpa [splitWords, h, hc] using ih
    · simpa [splitWords, h] using ih

/-- The words of a name. -/
def words (name : String) : List String := (splitWords name.toList).map String.ofList

/-! ## Renderings -/

/-- Capital first letter, the rest small. -/
def capitalize : List Char → List Char
  | [] => []
  | c :: rest => c.toUpper :: rest.map Char.toLower

/-- A word that starts with a digit is set off from the word before it. -/
def guardDigit : List Char → List Char
  | [] => []
  | c :: rest => if c.isDigit then '_' :: c :: rest else c :: rest

/-- The words as one identifier of capitalized words. -/
def pascalWords : List (List Char) → List Char
  | [] => []
  | first :: rest => capitalize first ++ rest.flatMap fun w => guardDigit (capitalize w)

/-- The words with an underscore between each two of them. -/
def underscored : List (List Char) → List Char
  | [] => []
  | [word] => word
  | word :: rest => word ++ '_' :: underscored rest

/-- Name of a variant: `FooBar`. -/
def pascalCase (name : String) : String :=
  String.ofList (pascalWords (splitWords name.toList))

/-- Name of a field: `foo_bar`. -/
def snakeCase (name : String) : String :=
  String.ofList (underscored ((splitWords name.toList).map (·.map Char.toLower)))

/-- Name of a constant: `FOO_BAR`. -/
def constantCase (name : String) : String :=
  String.ofList (underscored ((splitWords name.toList).map (·.map Char.toUpper)))

end XdrCompiler.Naming
