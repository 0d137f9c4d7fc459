import StackMachine.Proofs.Lines

/-!
# Proofs — Numbered

The lines of a source with their numbers.  A line stands between two line breaks, or between one and
an end of the source, and its number is one more than the line breaks before it
(`LineAt`).  Every line has a number, blank ones included; the assembler goes over the lines that
are not blank, each with its number, in ascending order (`Line.mem_ofSource_iff`,
`Line.pairwise_number`).

Sources that are put together with a line break between them have the lines of both, those of the
second counted on from those of the first (`Line.ofSource_append_break`).
-/

namespace StackMachine

namespace Text

/-- The piece stands between two delimiters, or between one and an end of the text, and `k`
delimiters come before it. -/
inductive PieceAt (d : Char) : List Char → Nat → List Char → Prop where
  | intro {before piece after : List Char} (hbefore : before = [] ∨ before.getLast? = some d)
      (hpiece : d ∉ piece) (hafter : after = [] ∨ after.head? = some d) :
      PieceAt d (before ++ piece ++ after) (before.count d) piece

variable {d : Char}

theorem length_splitOn (d : Char) (cs : List Char) : (cs.splitOn d).length = cs.count d + 1 := by
  induction cs with
  | nil => rfl
  | cons c cs ih =>
      rw [List.splitOn_cons_eq_if_modifyHead, List.count_cons]
      by_cases hc : c = d
      · simp [hc, ih]
      · simp [hc, ih]

/-- Before the pieces of a text come those of what precedes them. -/
theorem PieceAt.cons {a cs piece : List Char} {k : Nat} (h : PieceAt d cs k piece) (ha : d ∉ a) :
    PieceAt d (a ++ d :: cs) (k + 1) piece := by
  obtain @⟨before, _, after, hbefore, hpiece, hafter⟩ := h
  have hlast : (a ++ d :: before).getLast? = some d := by
    rcases hbefore with rfl | hb
    · simp
    · rw [List.getLast?_append, List.getLast?_cons, hb]
      simp
  have hcount : (a ++ d :: before).count d = before.count d + 1 := by
    rw [List.count_append, List.count_cons_self, List.count_eq_zero_of_not_mem ha, Nat.zero_add]
  have hpieces : PieceAt d _ _ piece := .intro (.inr hlast) hpiece hafter
  rw [hcount] at hpieces
  simpa using hpieces

/-- **The pieces of a text are those it is cut into**, in their order. -/
theorem getElem?_splitOn_iff {cs piece : List Char} {k : Nat} :
    (cs.splitOn d)[k]? = some piece ↔ PieceAt d cs k piece := by
  constructor
  · intro h
    induction k generalizing cs with
    | zero =>
      by_cases hd : d ∈ cs
      · obtain ⟨a, b, rfl, ha⟩ := List.eq_append_cons_of_mem hd
        rw [List.splitOn_append_cons_self, List.splitOn_eq_singleton ha] at h
        cases h
        exact .intro (.inl rfl) ha (.inr rfl)
      · rw [List.splitOn_eq_singleton hd] at h
        cases h
        simpa using PieceAt.intro (.inl rfl) hd (.inl rfl)
    | succ k ih =>
      by_cases hd : d ∈ cs
      · obtain ⟨a, b, rfl, ha⟩ := List.eq_append_cons_of_mem hd
        rw [List.splitOn_append_cons_self, List.splitOn_eq_singleton ha] at h
        exact (ih h).cons ha
      · rw [List.splitOn_eq_singleton hd] at h
        cases h
  · rintro @⟨before, _, after, hbefore, hpiece, hafter⟩
    -- the piece is the first of what begins with it
    have hfirst : ((piece ++ after).splitOn d)[0]? = some piece := by
      cases after with
      | nil => rw [List.append_nil, List.splitOn_eq_singleton hpiece]; rfl
      | cons c after =>
          obtain rfl : c = d := by simpa using hafter
          rw [List.splitOn_append_cons_self, List.splitOn_eq_singleton hpiece]
          rfl
    rcases hbefore with rfl | hb
    · exact hfirst
    · obtain ⟨before, rfl⟩ := List.getLast?_eq_some_iff.mp hb
      have hcount : (before ++ [d]).count d = (before.splitOn d).length := by
        simp [length_splitOn]
      rw [List.append_assoc, List.append_assoc, List.singleton_append,
        List.splitOn_append_cons_self, hcount, List.getElem?_append_right (Nat.le_refl _),
        Nat.sub_self, hfirst]

end Text

/-- Line `n` of the source is `t`, less the white space at its end: lines are counted from one, by
the line breaks before them. -/
inductive LineAt (source : String) : Nat → List Char → Prop where
  | intro {k : Nat} {line : List Char} (h : Text.PieceAt '\n' source.toList k line) :
      LineAt source (k + 1) (line.rdropWhile Text.isBlank)

theorem lineAt_iff {source : String} {n : Nat} {t : List Char} :
    LineAt source n t ↔ 1 ≤ n ∧ (lines source)[n - 1]? = some t := by
  simp only [lines, List.getElem?_map, Option.map_eq_some_iff, Text.getElem?_splitOn_iff]
  constructor
  · rintro ⟨h⟩
    exact ⟨Nat.le_add_left 1 _, _, h, rfl⟩
  · rintro ⟨hn, line, h, rfl⟩
    obtain ⟨k, rfl⟩ := Nat.exists_eq_add_of_le' hn
    exact .intro h

/-- One more line than line breaks. -/
theorem length_lines (source : String) :
    (lines source).length = source.toList.count '\n' + 1 := by
  rw [lines, List.length_map, Text.length_splitOn]

theorem lines_append_break (first second : String) :
    lines (first ++ "\n" ++ second) = lines first ++ lines second := by
  have hbreak : "\n".toList = ['\n'] := rfl
  rw [lines, String.toList_append, String.toList_append, hbreak, List.append_assoc,
    List.singleton_append, List.splitOn_append_cons_self, List.map_append]
  rfl

namespace Line

/-- What the assembler makes of the line of a number, once it is trimmed. -/
def ofText? (n : Nat) (t : List Char) : Option Line :=
  if t = [] then none else some ⟨n, String.ofList t⟩

theorem ofSegment?_ofList (n : Nat) (seg : List Char) :
    ofSegment? n (String.ofList seg) = ofText? n (seg.rdropWhile Text.isBlank) := by
  have h : Text.trimEnd (String.ofList seg) = String.ofList (seg.rdropWhile Text.isBlank) := by
    rw [← String.toList_inj, Text.toList_trimEnd, String.toList_ofList, String.toList_ofList]
  rw [ofSegment?, ofText?, h]
  simp

/-- **The assembler goes over the lines with their numbers.** -/
theorem ofSource_eq_filterMap_lines (source : String) :
    ofSource source = ((lines source).zipIdx 1).filterMap fun p => ofText? p.2 p.1 := by
  have hsegments : ofSource source =
      (((Text.segments '\n' source.toList).map (List.rdropWhile Text.isBlank)).zipIdx 1).filterMap
        fun p => ofText? p.2 p.1 := by
    rw [ofSource_eq, Text.split, List.zipIdx_map, List.zipIdx_map, List.filterMap_map,
      List.filterMap_map]
    refine List.filterMap_congr fun p _ => ?_
    simp only [Function.comp_apply, Prod.map_fst, Prod.map_snd, id_eq, ofSegment?_ofList]
  rw [hsegments, lines]
  rcases Text.splitOn_eq_segments '\n' source.toList with h | h
  · rw [h]
  · -- the empty piece after a last break makes no line
    rw [h, List.map_append, List.zipIdx_append, List.filterMap_append]
    simp [ofText?]

theorem mem_ofSource_iff {source : String} {l : Line} :
    l ∈ ofSource source ↔ LineAt source l.number l.text.toList ∧ l.text.toList ≠ [] := by
  rw [ofSource_eq_filterMap_lines, List.mem_filterMap, lineAt_iff]
  constructor
  · rintro ⟨⟨t, n⟩, hp, h⟩
    rw [ofText?] at h
    split at h
    · cases h
    · rename_i ht
      cases h
      rw [String.toList_ofList]
      exact ⟨List.mk_mem_zipIdx_iff_le_and_getElem?_sub.mp hp, ht⟩
  · rintro ⟨h, ht⟩
    refine ⟨(l.text.toList, l.number), List.mk_mem_zipIdx_iff_le_and_getElem?_sub.mpr h, ?_⟩
    rw [ofText?, if_neg ht, String.ofList_toList]

theorem pairwise_number (source : String) :
    (ofSource source).Pairwise fun k l => k.number < l.number := by
  rw [ofSource_eq_filterMap_lines, List.pairwise_filterMap]
  have hplaces : ((lines source).zipIdx 1).Pairwise fun p q => p.2 < q.2 := by
    rw [← List.pairwise_map (f := Prod.snd), List.zipIdx_map_snd]
    exact List.pairwise_lt_range'
  refine hplaces.imp fun {p q} hpq k hk l hl => ?_
  have number {p : List Char × Nat} {k : Line} (h : ofText? p.2 p.1 = some k) : k.number = p.2 := by
    rw [ofText?] at h
    split at h
    · cases h
    · cases h
      rfl
  rw [number hk, number hl]
  exact hpq

/-- The line, so many lines further down. -/
def below (count : Nat) (l : Line) : Line := { l with number := l.number + count }

/-- **Lines after a line break are counted on.** -/
theorem ofSource_append_break (first second : String) :
    ofSource (first ++ "\n" ++ second) =
      ofSource first ++ (ofSource second).map (below (first.toList.count '\n' + 1)) := by
  rw [ofSource_eq_filterMap_lines, ofSource_eq_filterMap_lines, ofSource_eq_filterMap_lines,
    lines_append_break, List.zipIdx_append, List.filterMap_append, Nat.add_comm 1,
    ← List.map_snd_add_zipIdx_eq_zipIdx, List.filterMap_map, List.map_filterMap, length_lines]
  congr 1
  refine List.filterMap_congr fun p _ => ?_
  rw [Function.comp_apply, Prod.map_fst, Prod.map_snd, id_eq, ofText?, ofText?]
  by_cases ht : p.1 = []
  · rw [if_pos ht, if_pos ht]
    rfl
  · rw [if_neg ht, if_neg ht]
    rfl

end Line

end StackMachine
