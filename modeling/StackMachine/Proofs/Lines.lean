import Mathlib.Data.List.DropRight
import StackMachine.Assembly

/-!
# Proofs — Lines

The lines of a source, said without the assembler: what stands between two line breaks, or between
one and an end of the source, less the white space at its end.  `lines` cuts a text at every break
and so sees an empty line after a last one; `Text.split` does not.  The assembler goes over the
lines that are not empty, and of those the two have the same (`Line.map_text_ofSource`).
-/

namespace StackMachine

namespace Text

variable {d : Char}

theorem segments_append_cons {a : List Char} (h : d ∉ a) (b : List Char) :
    segments d (a ++ d :: b) = a :: segments d b := by
  induction a with
  | nil => simp [segmentsCons]
  | cons c a ih =>
      rw [List.mem_cons, not_or] at h
      rw [List.cons_append, segments_cons, ih h.2, segmentsCons, if_neg (Ne.symm h.1)]
      rfl

/-- What holds no delimiter is one segment, unless it is empty. -/
theorem segments_of_notMem {a : List Char} (h : d ∉ a) (hne : a ≠ []) : segments d a = [a] := by
  induction a with
  | nil => exact absurd rfl hne
  | cons c a ih =>
      rw [List.mem_cons, not_or] at h
      rw [segments_cons, segmentsCons, if_neg (Ne.symm h.1)]
      cases a with
      | nil => rfl
      | cons b a => rw [ih h.2 (by simp)]; rfl

/-- A text that ends in something else than a delimiter is its segments, with a delimiter between
any two. -/
theorem flatMap_segments_of_getLast?_ne {cs : List Char} (hne : cs ≠ [])
    (hend : cs.getLast? ≠ some d) : (segments d cs).flatMap (· ++ [d]) = cs ++ [d] := by
  rw [flatMap_segments, if_neg (not_or.mpr ⟨hne, hend⟩)]

/-- Cutting at every delimiter yields the segments, and sometimes an empty piece after them. -/
theorem splitOn_eq_segments (d : Char) (cs : List Char) :
    cs.splitOn d = segments d cs ∨ cs.splitOn d = segments d cs ++ [[]] := by
  induction cs with
  | nil => exact .inr rfl
  | cons c cs ih =>
      rw [List.splitOn_cons_eq_if_modifyHead, segments_cons, segmentsCons]
      by_cases hc : c = d
      · rw [if_pos (beq_iff_eq.mpr hc), if_pos hc]
        exact ih.imp (congrArg _) (congrArg _)
      · rw [if_neg (mt beq_iff_eq.mp hc), if_neg hc]
        cases hs : segments d cs with
        | nil =>
            -- only the empty text has no segment, and it is then cut into one empty piece
            obtain rfl := segments_eq_nil_iff.mp hs
            exact .inl rfl
        | cons t ts =>
            rw [hs] at ih
            rcases ih with ih | ih
            · exact .inl (by rw [ih]; rfl)
            · exact .inr (by rw [ih]; rfl)

theorem toList_trimEnd (s : String) : (trimEnd s).toList = s.toList.rdropWhile isBlank := by
  rw [trimEnd, String.toList_ofList]
  rfl

end Text

/-- The lines of a source, each less the white space at its end. -/
def lines (source : String) : List (List Char) :=
  (source.toList.splitOn '\n').map (List.rdropWhile Text.isBlank)

/-- The lines that are not blank. -/
theorem filter_lines (source : String) :
    (lines source).filter (· ≠ []) =
      ((Text.segments '\n' source.toList).map (List.rdropWhile Text.isBlank)).filter (· ≠ []) := by
  rw [lines]
  rcases Text.splitOn_eq_segments '\n' source.toList with h | h
  · rw [h]
  · rw [h, List.map_append, List.filter_append]
    simp

/-- What the assembler makes of a segment that stands in a certain line. -/
def Line.ofSegment? (n : Nat) (raw : String) : Option Line :=
  if Text.trimEnd raw = "" then none else some ⟨n, Text.trimEnd raw⟩

theorem Line.ofSource_eq (source : String) :
    ofSource source =
      ((Text.split source '\n').zipIdx 1).filterMap fun p => ofSegment? p.2 p.1 := rfl

theorem Line.map_text_ofSegment? (n : Nat) (seg : List Char) :
    (ofSegment? n (String.ofList seg)).map (fun l => l.text.toList) =
      if seg.rdropWhile Text.isBlank = [] then none else some (seg.rdropWhile Text.isBlank) := by
  have h : (Text.trimEnd (String.ofList seg)).toList = seg.rdropWhile Text.isBlank := by
    rw [Text.toList_trimEnd, String.toList_ofList]
  rw [ofSegment?, ← h]
  by_cases ht : Text.trimEnd (String.ofList seg) = ""
  · rw [if_pos ht, if_pos (by rw [ht]; rfl)]
    rfl
  · rw [if_neg ht, if_neg (by simpa using ht)]
    rfl

/-- **The assembler goes over the lines that are not blank**, in their order. -/
theorem Line.map_text_ofSource (source : String) :
    (Line.ofSource source).map (fun l => l.text.toList) = (lines source).filter (· ≠ []) := by
  rw [filter_lines, ofSource_eq, List.map_filterMap, Text.split]
  generalize Text.segments '\n' source.toList = segs
  generalize 1 = k
  induction segs generalizing k with
  | nil => rfl
  | cons seg segs ih =>
      rw [List.map_cons, List.zipIdx_cons, List.filterMap_cons, map_text_ofSegment?, List.map_cons]
      by_cases h : seg.rdropWhile Text.isBlank = []
      · rw [if_pos h, List.filter_cons_of_neg (by simpa using h)]
        exact ih (k + 1)
      · rw [if_neg h, List.filter_cons_of_pos (by simpa using h)]
        exact congrArg _ (ih (k + 1))

/-- A line that the assembler goes over has something on it, and no white space at its end. -/
theorem Line.mem_ofSource {source : String} {l : Line} (h : l ∈ Line.ofSource source) :
    l.text.toList ≠ [] ∧ ∀ c ∈ l.text.toList.getLast?, Text.isBlank c = false := by
  rw [ofSource_eq, List.mem_filterMap] at h
  obtain ⟨⟨raw, n⟩, -, h⟩ := h
  rw [ofSegment?] at h
  split at h
  · cases h
  · rename_i hne
    cases h
    exact ⟨by simpa using hne, fun c hc => Text.not_isBlank_getLast_trimEnd hc⟩

end StackMachine
