import StackMachine.Proofs.Lines

/-!
# Proofs — Joining

Cutting a text and putting it together, as inverses of one another.  Segments without the delimiter
in them can be put together in two ways: with the delimiter after each, or with the delimiter
between any two.  Cutting undoes the first way always.  It undoes the second way unless the last
segment is empty, for then nothing stands after the last delimiter (`segments_flatMap_append`).

In the other direction, a text is its segments with the delimiter after each, once it is completed
by a delimiter at its end (`flatMap_segments`).  So its segments are the one list that can be put
together to it (`segments_eq_iff`), and `split_inverts_joining` says both of texts.
-/

namespace StackMachine.Text

variable {d : Char}

/-! ### Lists of characters -/

/-- **Delimited segments are cut off one by one**, and then what follows them is cut. -/
theorem segments_flatMap_append {segs : List (List Char)} (h : ∀ seg ∈ segs, d ∉ seg)
    (rest : List Char) :
    segments d (segs.flatMap (· ++ [d]) ++ rest) = segs ++ segments d rest := by
  induction segs with
  | nil => rfl
  | cons seg segs ih =>
      rw [List.forall_mem_cons] at h
      rw [List.flatMap_cons, List.append_assoc, List.append_assoc, List.singleton_append,
        segments_append_cons h.1, ih h.2, List.cons_append]

theorem segments_flatMap {segs : List (List Char)} (h : ∀ seg ∈ segs, d ∉ seg) :
    segments d (segs.flatMap (· ++ [d])) = segs := by
  simpa using segments_flatMap_append h []

/-- **The segments of a text are the one list that is put together to it.** -/
theorem segments_eq_iff {cs : List Char} {segs : List (List Char)} :
    segments d cs = segs ↔ (∀ seg ∈ segs, d ∉ seg) ∧
      segs.flatMap (· ++ [d]) = if cs = [] ∨ cs.getLast? = some d then cs else cs ++ [d] := by
  rw [← flatMap_segments]
  constructor
  · rintro rfl
    exact ⟨fun _ => not_mem_of_mem_segments, rfl⟩
  · rintro ⟨h, heq⟩
    -- both lists are what the same text is cut into
    rw [← segments_flatMap h, heq, segments_flatMap fun _ => not_mem_of_mem_segments]

theorem segments_eq_singleton_iff {seg : List Char} (h : d ∉ seg) :
    segments d seg = [seg] ↔ seg ≠ [] := by
  constructor
  · rintro hs rfl
    cases hs
  · exact segments_of_notMem h

theorem intercalate_concat (segs : List (List Char)) (last : List Char) :
    [d].intercalate (segs ++ [last]) = segs.flatMap (· ++ [d]) ++ last := by
  induction segs with
  | nil => exact List.intercalate_singleton
  | cons seg segs ih =>
      rw [List.cons_append, List.intercalate_cons_of_ne_nil (by simp), ih, List.flatMap_cons,
        List.append_assoc, List.append_assoc, List.append_assoc]

/-- Joined segments are cut apart again exactly if there is something in the last. -/
theorem segments_intercalate_iff {segs : List (List Char)} (h : ∀ seg ∈ segs, d ∉ seg) :
    segments d ([d].intercalate segs) = segs ↔ ∀ last ∈ segs.getLast?, last ≠ [] := by
  rcases segs.eq_nil_or_concat' with rfl | ⟨init, last, rfl⟩
  · simp
  · rw [List.forall_mem_append, List.forall_mem_singleton] at h
    rw [intercalate_concat, segments_flatMap_append h.1, List.append_cancel_left_eq,
      segments_eq_singleton_iff h.2]
    simp

/-! ### Texts -/

/-- The segments put together, with the delimiter after each. -/
def terminated (d : Char) (segs : List String) : String := String.join (segs.map (·.push d))

/-- The segments put together, with the delimiter between any two. -/
def joined (d : Char) (segs : List String) : String := (String.singleton d).intercalate segs

/-- The text, with a delimiter more if it is not empty and does not end in one. -/
def completed (d : Char) (s : String) : String :=
  if s = "" ∨ s.toList.getLast? = some d then s else s.push d

theorem toList_terminated (d : Char) (segs : List String) :
    (terminated d segs).toList = (segs.map String.toList).flatMap (· ++ [d]) := by
  rw [terminated, String.toList_join, List.flatMap_map, List.flatMap_map]
  exact List.flatMap_congr fun seg _ => String.toList_push d

theorem toList_joined (d : Char) (segs : List String) :
    (joined d segs).toList = [d].intercalate (segs.map String.toList) := by
  rw [joined, String.toList_intercalate, String.toList_singleton]

theorem toList_completed (d : Char) (s : String) :
    (completed d s).toList =
      if s.toList = [] ∨ s.toList.getLast? = some d then s.toList else s.toList ++ [d] := by
  simp only [completed, String.toList_eq_nil_iff, apply_ite String.toList, String.toList_push]

theorem split_eq_iff {s : String} {segs : List String} :
    split s d = segs ↔ segments d s.toList = segs.map String.toList := by
  rw [split]
  constructor
  · rintro rfl
    simp
  · intro h
    rw [h]
    simp

/-- **Cutting is the inverse of joining.**  A text is cut into the one list of segments without the
delimiter that, with the delimiter after each, are the completed text.  So any such list is what its
text is cut into if the delimiter stands after each segment; if it stands between any two, this is
so exactly if the last segment, should there be one, is not empty. -/
theorem split_inverts_joining (d : Char) :
    (∀ (s : String) (segs : List String), split s d = segs ↔
      (∀ seg ∈ segs, d ∉ seg.toList) ∧ terminated d segs = completed d s) ∧
    ∀ segs : List String, (∀ seg ∈ segs, d ∉ seg.toList) →
      split (terminated d segs) d = segs ∧
      (split (joined d segs) d = segs ↔ ∀ last ∈ segs.getLast?, last ≠ "") := by
  have hfree {segs : List String} (h : ∀ seg ∈ segs, d ∉ seg.toList) :
      ∀ seg ∈ segs.map String.toList, d ∉ seg := List.forall_mem_map.mpr h
  refine ⟨fun s segs => ?_, fun segs h => ⟨?_, ?_⟩⟩
  · rw [split_eq_iff, segments_eq_iff, ← toList_terminated, ← toList_completed, String.toList_inj,
      List.forall_mem_map]
  · rw [split_eq_iff, toList_terminated, segments_flatMap (hfree h)]
  · rw [split_eq_iff, toList_joined, segments_intercalate_iff (hfree h)]
    simp

/-- An empty segment in front and one in the middle; and one at the end, which is lost. -/
theorem split_inverts_joining_blanks :
    terminated ' ' ["", "ADD", "", "1"] = " ADD  1 " ∧
    split " ADD  1 " ' ' = ["", "ADD", "", "1"] ∧
    joined ' ' ["", "ADD", "", "1"] = " ADD  1" ∧ split " ADD  1" ' ' = ["", "ADD", "", "1"] ∧
    joined ' ' ["ADD", ""] = "ADD " ∧ split "ADD " ' ' ≠ ["ADD", ""] := by
  obtain ⟨-, cut⟩ := split_inverts_joining ' '
  obtain ⟨terminated, joined⟩ := cut ["", "ADD", "", "1"] (by decide)
  obtain ⟨-, lost⟩ := cut ["ADD", ""] (by decide)
  exact ⟨by decide, terminated, by decide, joined.mpr (by decide), by decide,
    fun h => absurd (lost.mp h) (by decide)⟩

end StackMachine.Text
