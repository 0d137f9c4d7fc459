/-!
# Text — Segment

A text cut at the occurrences of one character that ends each segment.  A segment may be empty, and
whatever follows the last delimiter is a segment only if it is not empty, so that `"a\n"` and `"a"`
have the same one and the empty text has none.  `flatMap_segments` puts the segments back together.
-/

namespace StackMachine.Text

/-- The segments once `c` stands before a text with the segments `rest`. -/
def segmentsCons (d c : Char) (rest : List (List Char)) : List (List Char) :=
  if c = d then [] :: rest else (c :: rest.headD []) :: rest.tail

/-- The segments that `d` ends. -/
def segments (d : Char) (cs : List Char) : List (List Char) := cs.foldr (segmentsCons d) []

@[simp] theorem segments_nil (d : Char) : segments d [] = [] := rfl

@[simp] theorem segments_cons (d c : Char) (cs : List Char) :
    segments d (c :: cs) = segmentsCons d c (segments d cs) := rfl

/-- The segments of a text, each ended by `d`. -/
def split (s : String) (d : Char) : List String := (segments d s.toList).map String.ofList

/-- No segment holds the delimiter. -/
theorem not_mem_of_mem_segments {d : Char} {cs seg : List Char} (h : seg ∈ segments d cs) :
    d ∉ seg := by
  induction cs generalizing seg with
  | nil => cases h
  | cons c cs ih =>
    rw [segments_cons, segmentsCons] at h
    split at h
    · rcases List.mem_cons.1 h with rfl | h
      · exact List.not_mem_nil
      · exact ih h
    · rename_i hc
      rcases List.mem_cons.1 h with rfl | h
      · cases hs : segments d cs with
        | nil => simpa using Ne.symm hc
        | cons t ts => simpa [Ne.symm hc] using ih (hs ▸ List.mem_cons_self)
      · exact ih (List.mem_of_mem_tail h)

theorem segments_eq_nil_iff {d : Char} {cs : List Char} : segments d cs = [] ↔ cs = [] := by
  cases cs with
  | nil => simp
  | cons c cs => simp only [segments_cons, segmentsCons]; split <;> simp

/-- The segments with their delimiters are the text, completed by a last delimiter if it has
none. -/
theorem flatMap_segments (d : Char) (cs : List Char) :
    (segments d cs).flatMap (· ++ [d]) =
      if cs = [] ∨ cs.getLast? = some d then cs else cs ++ [d] := by
  induction cs with
  | nil => rfl
  | cons c cs ih =>
    rw [segments_cons, segmentsCons]
    cases hs : segments d cs with
    | nil =>
      obtain rfl := segments_eq_nil_iff.1 hs
      by_cases hc : c = d <;> simp [hc]
    | cons t ts =>
      have hne : cs ≠ [] := fun h => by simp [h] at hs
      obtain ⟨x, xs, rfl⟩ := List.exists_cons_of_ne_nil hne
      rw [hs] at ih
      by_cases hc : c = d
      · subst hc
        simp only [if_true, List.flatMap_cons, ih, List.getLast?_cons_cons]
        split <;> simp_all
      · simp only [hc, if_false, List.headD_cons, List.tail_cons, List.getLast?_cons_cons]
        rw [List.flatMap_cons] at ih ⊢
        rw [List.cons_append, List.cons_append, ih]
        split <;> simp_all

end StackMachine.Text
