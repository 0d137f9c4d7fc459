import StackMachine.Proofs.Drawn
import StackMachine.Text.Blank

/-!
# Proofs — Words

A text as its words, the stretches between white space, and a table as lines of words.  How many
blanks a cell has about it depends on how wide the column is; but a cell always has one on either
side (`Text.Spaced`), so that the words of a line are the words of its cells and the bars between
them, however wide the columns are (`Text.IsLine.words_append`).  A rule is one word.

`Text.Table.IsLayout` says this much of a text and no more: titles, a rule, the rows and a rule,
with any blanks about the cells.  However a table is drawn, it is one of its layouts
(`Text.Table.IsDrawn.isLayout`), and so is what it renders to.
-/

namespace StackMachine.Text

/-! ### Words -/

/-- What stands between the white space of a text. -/
def words (cs : List Char) : List (List Char) := (cs.splitOnP isBlank).filter (· ≠ [])

@[simp] theorem words_nil : words [] = [] := by simp [words]

section Words

variable {c : Char} (hc : isBlank c = true)

include hc

/-- **White space parts words.** -/
theorem words_append_cons (a b : List Char) : words (a ++ c :: b) = words a ++ words b := by
  rw [words, List.splitOnP_append_cons a b hc, List.filter_append]
  rfl

theorem words_cons (b : List Char) : words (c :: b) = words b := by
  simpa using words_append_cons hc [] b

end Words

theorem words_blanks_append (n : Nat) (b : List Char) :
    words (List.replicate n ' ' ++ b) = words b := by
  induction n with
  | zero => rfl
  | succ n ih => rw [List.replicate_succ, List.cons_append, words_cons rfl, ih]

theorem words_append_blanks (a : List Char) (n : Nat) :
    words (a ++ List.replicate n ' ') = words a := by
  induction n with
  | zero => simp
  | succ n ih =>
      rw [List.replicate_succ', ← List.append_assoc, words_append_cons rfl, ih, words_nil,
        List.append_nil]

theorem words_eq_singleton {cs : List Char} (hne : cs ≠ []) (h : ∀ c ∈ cs, isBlank c = false) :
    words cs = [cs] := by
  rw [words, List.splitOnP_eq_singleton h]
  simpa using hne

/-! ### Lines of cells -/

/-- The cell with blanks about it, one at least on either side. -/
inductive Spaced (cell : String) : String → Prop where
  | intro (before after : Nat) :
      Spaced cell (" " ++ (replicate before ' ' ++ cell ++ replicate after ' ') ++ " ")

/-- A line of cells, with blanks about each and bars between them. -/
inductive IsLine (cells : List String) : String → Prop where
  | intro {spaced : List String} (h : List.Forall₂ Spaced cells spaced) :
      IsLine cells (" " ++ "│".intercalate spaced ++ " \n")

/-- A line with one word and no cells. -/
inductive IsRule : String → Prop where
  | intro {rule : String} (hne : rule ≠ "") (h : ∀ c ∈ rule.toList, isBlank c = false) :
      IsRule (" " ++ rule ++ " \n")

/-- The words of the cells, and the bars between. -/
def lineWords (cells : List String) : List (List Char) :=
  [['│']].intercalate (cells.map fun cell => words cell.toList)

section Lines

variable {cell line : String} {cells spaced : List String}

theorem Spaced.exists_eq (h : Spaced cell line) :
    ∃ inner, line.toList = ' ' :: inner ++ [' '] ∧ words inner = words cell.toList := by
  obtain ⟨before, after⟩ := h
  refine ⟨(replicate before ' ' ++ cell ++ replicate after ' ').toList, by simp, ?_⟩
  simp only [String.toList_append, replicate, String.toList_ofList, words_append_blanks,
    words_blanks_append]

theorem forall_mem_intercalate {P : Char → Prop} {bar : String} (hbar : ∀ c ∈ bar.toList, P c)
    {parts : List String} (h : ∀ part ∈ parts, ∀ c ∈ part.toList, P c) :
    ∀ c ∈ (bar.intercalate parts).toList, P c := by
  induction parts with
  | nil => nofun
  | cons part parts ih =>
      rw [List.forall_mem_cons] at h
      cases parts with
      | nil => simpa using h.1
      | cons next parts =>
          simp only [String.intercalate_cons_cons, String.toList_append, List.forall_mem_append]
          exact ⟨⟨h.1, hbar⟩, ih h.2⟩

/-- What begins with a spaced cell begins with a blank. -/
theorem Spaced.exists_intercalate_eq (h : Spaced cell line) (bar : String) (spaced : List String) :
    ∃ rest, (bar.intercalate (line :: spaced)).toList = ' ' :: rest := by
  obtain ⟨inner, hinner, -⟩ := h.exists_eq
  cases spaced with
  | nil => exact ⟨inner ++ [' '], by simpa using hinner⟩
  | cons next spaced =>
      rw [String.intercalate_cons_cons, String.toList_append, String.toList_append, hinner]
      exact ⟨_, rfl⟩

/-- A bar is a word, for there is a blank on either side of it. -/
theorem words_intercalate (h : List.Forall₂ Spaced cells spaced) :
    words ("│".intercalate spaced).toList = lineWords cells := by
  have hbar : words "│".toList = [['│']] :=
    words_eq_singleton (by decide) (List.forall_mem_singleton.mpr rfl)
  induction h with
  | nil => exact words_nil
  | cons hfirst hs ih =>
      obtain ⟨inner, hinner, hwords⟩ := hfirst.exists_eq
      cases hs with
      | nil =>
          rw [String.intercalate_singleton, hinner, words_append_cons rfl, words_cons rfl, hwords]
          simp [lineWords]
      | cons hnext hs =>
          obtain ⟨rest, hrest⟩ := hnext.exists_intercalate_eq "│" _
          rw [hrest, words_cons rfl] at ih
          have hline : ' ' :: inner ++ [' '] ++ "│".toList ++ ' ' :: rest =
              ' ' :: (inner ++ ' ' :: ("│".toList ++ ' ' :: rest)) := by simp
          rw [String.intercalate_cons_cons, String.toList_append, String.toList_append, hrest,
            hinner, hline, words_cons rfl, words_append_cons rfl, words_append_cons rfl, hwords,
            hbar, ih, lineWords, lineWords, List.map_cons, List.map_cons, List.map_cons,
            List.intercalate_cons_cons, List.append_assoc]

/-- A line is parted from what comes after it. -/
theorem words_line_append (inner : String) (rest : List Char) :
    words ((" " ++ inner ++ " \n").toList ++ rest) = words inner.toList ++ words rest := by
  have hline : (" " ++ inner ++ " \n").toList ++ rest =
      ' ' :: (inner.toList ++ ' ' :: '\n' :: rest) := by simp
  rw [hline, words_cons rfl, words_append_cons rfl, words_cons rfl]

/-- **The words of a line** are those of its cells, and the bars, whatever the blanks. -/
theorem IsLine.words_append (h : IsLine cells line) (rest : List Char) :
    words (line.toList ++ rest) = lineWords cells ++ words rest := by
  obtain ⟨h⟩ := h
  rw [words_line_append, words_intercalate h]

theorem IsRule.exists_words_append (h : IsRule line) :
    ∃ rule, ∀ rest, words (line.toList ++ rest) = rule :: words rest := by
  obtain @⟨rule, hne, h⟩ := h
  refine ⟨rule.toList, fun rest => ?_⟩
  rw [words_line_append, words_eq_singleton (by simpa using hne) h]
  rfl

end Lines

/-! ### Tables -/

namespace Table

/-- The titles, a rule, the rows and a rule, drawn with any blanks about the cells. -/
inductive IsLayout (t : Table) : String → Prop where
  | intro {titles rule last : String} {rows : List String}
      (htitles : IsLine (t.columns.map Column.title) titles) (hrule : IsRule rule)
      (hrows : List.Forall₂ IsLine t.rows rows) (hlast : IsRule last) :
      IsLayout t (titles ++ rule ++ String.join rows ++ last)

variable {t : Table} {text : String}

/-- **The words of a table.** -/
theorem IsLayout.exists_words_eq (h : t.IsLayout text) :
    ∃ rule last, words text.toList = lineWords (t.columns.map Column.title) ++
      rule :: (t.rows.flatMap lineWords ++ [last]) := by
  obtain @⟨titles, rule, last, rows, htitles, hrule, hrows, hlast⟩ := h
  obtain ⟨rule, hrule⟩ := hrule.exists_words_append
  obtain ⟨last', hlast⟩ := hlast.exists_words_append
  have hrest : words ((String.join rows).toList ++ last.toList) =
      t.rows.flatMap lineWords ++ [last'] := by
    rw [String.toList_join]
    generalize t.rows = cells at hrows
    induction hrows with
    | nil => simpa using hlast []
    | cons hrow _ ih =>
        rw [List.flatMap_cons, List.flatMap_cons, List.append_assoc, hrow.words_append, ih,
          List.append_assoc]
  refine ⟨rule, last', ?_⟩
  rw [String.toList_append, String.toList_append, String.toList_append, List.append_assoc,
    List.append_assoc, htitles.words_append, hrule, hrest]

variable {width : String → Nat}

theorem InColumn.spaced {w : Nat} {cell drawn : String} {a : Align}
    (h : InColumn width w cell a drawn) : Spaced cell drawn := by
  cases h with
  | left => simpa [replicate] using (Spaced.intro 0 _ : Spaced cell _)
  | right => simpa [replicate] using (Spaced.intro _ 0 : Spaced cell _)

theorem IsDrawnLine.isLine {columns : List (Column × Nat)} {cells : List String}
    (h : IsDrawnLine width columns cells text) : IsLine cells text := by
  obtain ⟨h⟩ := h
  refine .intro ?_
  induction h with
  | nil => exact .nil
  | cons h _ ih => exact .cons h.spaced ih

theorem IsDrawnRule.isRule {ws : List Nat} {junction : String}
    (h : IsDrawnRule ws junction text) (hne : ws ≠ [])
    (hj : ∀ c ∈ junction.toList, isBlank c = false) : IsRule text := by
  obtain ⟨⟩ := h
  have hpart (w : Nat) :
      ∀ c ∈ (String.ofList (List.replicate (w + 2) '─')).toList, isBlank c = false := by
    intro c hc
    rw [String.toList_ofList] at hc
    obtain rfl := List.eq_of_mem_replicate hc
    decide
  refine .intro ?_ (forall_mem_intercalate hj (by simpa using fun w _ => hpart w))
  cases ws with
  | nil => exact absurd rfl hne
  | cons w ws => cases ws <;> simp [List.replicate_succ]

/-- However wide its columns are, a table that is drawn is laid out. -/
theorem IsDrawn.isLayout (h : t.IsDrawn width text) (hne : t.columns ≠ []) :
    t.IsLayout text := by
  obtain @⟨ws, _, _, _, _, -, htitles, hrule, hrows, hlast⟩ := h
  have hws : ws ≠ [] := by
    rintro rfl
    obtain ⟨c, columns, hcolumns⟩ := List.exists_cons_of_ne_nil hne
    rw [hcolumns, List.zip_nil_right] at htitles
    obtain ⟨⟨⟩⟩ := htitles
  have hjunction (c : Char) (hc : isBlank c = false) :
      ∀ d ∈ (String.singleton c).toList, isBlank d = false := by simpa using hc
  exact .intro htitles.isLine (hrule.isRule hws (hjunction '┼' rfl))
    (hrows.imp fun _ _ h => h.isLine) (hlast.isRule hws (hjunction '┴' rfl))

/-- **What a table renders to is a layout of it.** -/
theorem isLayout_render (hne : t.columns ≠ [])
    (h : ∀ row ∈ t.rows, row.length = t.columns.length) : t.IsLayout t.render :=
  (isDrawn_render h).isLayout hne

end Table

end StackMachine.Text
