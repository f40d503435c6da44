/-
# XdrCompiler.Proofs.Replacement -- replacing every occurrence of a text

Occurrences are replaced from left to right. They do not overlap, and what is put
in is not searched again, so that a text may be replaced by one that contains it.

Two facts carry all later arguments. An occurrence in front is replaced
(`replaceAll_occurrence`), and a stretch without the first character of what is
looked for stays as it is, whatever follows it (`replaceAll_append_of_notMem`).
-/

namespace XdrCompiler.Text

/-- The text with `new` in place of each occurrence of `old`. The empty text does not occur. -/
def replaceAll (old new : List Char) : List Char → List Char
  | [] => []
  | c :: rest =>
    if old ≠ [] ∧ old <+: c :: rest then new ++ replaceAll old new (rest.drop (old.length - 1))
    else c :: replaceAll old new rest
termination_by text => text.length

variable {first : Char} {others new : List Char}

@[simp] theorem replaceAll_nil (old new : List Char) : replaceAll old new [] = [] := by
  rw [replaceAll]

/-- Where there is no occurrence, the search goes on behind the next character. -/
theorem replaceAll_cons {old : List Char} {c : Char} {rest : List Char} (h : ¬ old <+: c :: rest) :
    replaceAll old new (c :: rest) = c :: replaceAll old new rest := by
  rw [replaceAll, if_neg fun hboth => h hboth.2]

theorem replaceAll_occurrence (rest : List Char) :
    replaceAll (first :: others) new (first :: others ++ rest) =
      new ++ replaceAll (first :: others) new rest := by
  have hprefix : first :: others <+: first :: (others ++ rest) :=
    List.prefix_append (first :: others) rest
  rw [List.cons_append, replaceAll, if_pos ⟨List.cons_ne_nil first others, hprefix⟩,
    List.length_cons, Nat.add_sub_cancel, List.drop_left]

theorem replaceAll_append_of_notMem {stretch : List Char} (h : first ∉ stretch)
    (rest : List Char) :
    replaceAll (first :: others) new (stretch ++ rest) =
      stretch ++ replaceAll (first :: others) new rest := by
  induction stretch with
  | nil => rfl
  | cons c more ih =>
    rw [List.mem_cons, not_or] at h
    obtain ⟨hc, hmore⟩ := h
    have hprefix : ¬ first :: others <+: c :: (more ++ rest) :=
      fun hocc => hc (List.cons_prefix_cons.mp hocc).1
    rw [List.cons_append, replaceAll_cons hprefix, ih hmore, List.cons_append]

/-- Replacing a single character is done character by character. -/
theorem replaceAll_singleton (c : Char) (new text : List Char) :
    replaceAll [c] new text = text.flatMap fun d => if d = c then new else [d] := by
  induction text with
  | nil => rw [replaceAll_nil, List.flatMap_nil]
  | cons d rest ih =>
    rw [List.flatMap_cons, ← ih]
    by_cases hd : d = c
    · subst hd
      rw [if_pos rfl]
      exact replaceAll_occurrence rest
    · rw [if_neg hd]
      have hnot : c ∉ [d] := fun hmem => hd (List.mem_singleton.mp hmem).symm
      exact replaceAll_append_of_notMem hnot rest

-- The occurrences overlap, and the new text has the old one in it.
example : replaceAll ['a', 'a'] ['a', 'a', 'b'] ['a', 'a', 'a'] = ['a', 'a', 'b', 'a'] := by
  decide +kernel

end XdrCompiler.Text
