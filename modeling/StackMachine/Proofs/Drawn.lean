import Mathlib.Data.List.Forall2
import StackMachine.Text.Table

/-!
# Proofs — Drawn

How a table looks, to the character.  Its columns have widths.  A cell fills its column: it keeps to
the side of the column, the rest is blanks, and there is one blank more at either end.  Bars stand
between the cells of a line, and the rules cross the same columns (`Table.IsDrawn`).  A column is no
wider than the widest of its cells, its title counted as one.

How many columns of a terminal a cell takes is a parameter, of which it is only asked that a plain
text takes one for each character (`CountsColumns`).  What a table renders to is drawn like this,
with the columns counted as they are to render it (`Table.isDrawn_render`); and if all its cells are
plain, its characters are counted (`Table.isDrawn_length_render`).
-/

namespace StackMachine.Text

/-! ### Columns -/

/-- All characters of the text are printable ASCII. -/
def isPlain (s : String) : Bool := s.toList.all fun c => ' ' ≤ c && c ≤ '~'

theorem isPlain_iff {s : String} : isPlain s = true ↔ ∀ c ∈ s.toList, ' ' ≤ c ∧ c ≤ '~' := by
  simp [isPlain]

@[simp] theorem isPlain_append (s t : String) :
    isPlain (s ++ t) = (isPlain s && isPlain t) := by
  simp [isPlain]

/-- A plain text takes a column for each character. -/
def CountsColumns (width : String → Nat) : Prop := ∀ s, isPlain s = true → width s = s.length

theorem countsColumns_displayWidth : CountsColumns displayWidth := by
  intro s hs
  rw [isPlain_iff] at hs
  have htilde : '~' ≤ '\u00a0' := by decide
  refine displayWidth_of_le (fun c hc => Char.le_trans (hs c hc).2 htilde) fun hescape => ?_
  exact absurd (hs _ hescape).1 (by decide)

namespace Table

variable (width : String → Nat)

/-- The cell in a column of `w`. -/
inductive InColumn (w : Nat) (cell : String) : Align → String → Prop where
  | left {n : Nat} (h : width cell + n = w) :
      InColumn w cell .left (" " ++ (cell ++ String.ofList (List.replicate n ' ')) ++ " ")
  | right {n : Nat} (h : width cell + n = w) :
      InColumn w cell .right (" " ++ (String.ofList (List.replicate n ' ') ++ cell) ++ " ")

/-- One cell in each column. -/
inductive InColumns : List (Column × Nat) → List String → List String → Prop where
  | nil : InColumns [] [] []
  | cons {c : Column} {w : Nat} {cell drawn : String} {columns : List (Column × Nat)}
      {cells rest : List String} (h : InColumn width w cell c.align drawn)
      (hs : InColumns columns cells rest) :
      InColumns ((c, w) :: columns) (cell :: cells) (drawn :: rest)

/-- A line of the table. -/
inductive IsDrawnLine (columns : List (Column × Nat)) (cells : List String) : String → Prop where
  | intro {drawn : List String} (h : InColumns width columns cells drawn) :
      IsDrawnLine columns cells (" " ++ "│".intercalate drawn ++ " \n")

/-- A rule across columns of these widths, with a junction where it meets a bar. -/
inductive IsDrawnRule (ws : List Nat) (junction : String) : String → Prop where
  | intro : IsDrawnRule ws junction
      (" " ++ junction.intercalate (ws.map fun w => String.ofList (List.replicate (w + 2) '─'))
        ++ " \n")

/-- Each column has a cell as wide as it is. -/
def Tight (lines : List (List String)) (ws : List Nat) : Prop :=
  ∀ (k w : Nat), ws[k]? = some w →
    ∃ cells ∈ lines, ∃ cell, cells[k]? = some cell ∧ width cell = w

/-- The titles, a rule, the rows and a rule, in columns that are no wider than they need to be. -/
inductive IsDrawn (t : Table) : String → Prop where
  | intro {ws : List Nat} {titles rule last : String} {rows : List String}
      (hws : Tight width (t.columns.map Column.title :: t.rows) ws)
      (htitles : IsDrawnLine width (t.columns.zip ws) (t.columns.map Column.title) titles)
      (hrule : IsDrawnRule ws "┼" rule)
      (hrows : List.Forall₂ (IsDrawnLine width (t.columns.zip ws)) t.rows rows)
      (hlast : IsDrawnRule ws "┴" last) :
      IsDrawn t (titles ++ rule ++ String.join rows ++ last)

/-! ### Other counts -/

section Congr

variable {width} {width' : String → Nat} {t : Table} {columns : List (Column × Nat)}
  {cells drawn : List String} {text : String}

theorem InColumns.congr (h : InColumns width columns cells drawn)
    (hw : ∀ cell ∈ cells, width' cell = width cell) : InColumns width' columns cells drawn := by
  induction h with
  | nil => exact .nil
  | cons hcell _ ih =>
      rw [List.forall_mem_cons] at hw
      refine .cons ?_ (ih hw.2)
      generalize Column.align _ = a at hcell
      cases hcell with
      | left h => exact .left (hw.1 ▸ h)
      | right h => exact .right (hw.1 ▸ h)

theorem IsDrawnLine.congr (h : IsDrawnLine width columns cells text)
    (hw : ∀ cell ∈ cells, width' cell = width cell) : IsDrawnLine width' columns cells text := by
  obtain ⟨h⟩ := h
  exact .intro (h.congr hw)

/-- Only the widths of the titles and of the cells matter. -/
theorem IsDrawn.congr (h : t.IsDrawn width text)
    (hw : ∀ cells ∈ t.columns.map Column.title :: t.rows, ∀ cell ∈ cells,
      width' cell = width cell) : t.IsDrawn width' text := by
  obtain ⟨hws, htitles, hrule, hrows, hlast⟩ := h
  refine .intro (fun k w hk => ?_) (htitles.congr (hw _ List.mem_cons_self)) hrule ?_ hlast
  · obtain ⟨cells, hcells, cell, hcell, hwidth⟩ := hws k w hk
    exact ⟨cells, hcells, cell, hcell,
      (hw cells hcells cell (List.mem_of_getElem? hcell)).trans hwidth⟩
  · have hboth := (List.forall₂_and_left _ _).mpr
      ⟨fun cells hcells => hw cells (List.mem_cons_of_mem _ hcells), hrows⟩
    exact hboth.imp fun cells line h => h.2.congr h.1

end Congr

/-! ### Rendering -/

/-- Each cell fits its column. -/
def Fits (cells : List String) (ws : List Nat) : Prop :=
  List.Forall₂ (fun cell w => displayWidth cell ≤ w) cells ws

/-- The widths once the cells of another row are to fit. -/
def widen (ws : List Nat) (row : List String) : List Nat :=
  List.zipWith max ws (row.map displayWidth)

section Render

variable {t : Table} {ws : List Nat} {row cells : List String} {rows lines : List (List String)}

/-- What has fit goes on to fit, and so does the new row. -/
theorem Fits.widen (h : Fits cells ws) (hrow : row.length = ws.length) :
    Fits cells (widen ws row) ∧ Fits row (widen ws row) := by
  induction h generalizing row with
  | nil =>
      obtain rfl := List.length_eq_zero_iff.mp hrow
      exact ⟨.nil, .nil⟩
  | cons hcell _ ih =>
      obtain ⟨cell', row, rfl⟩ := List.exists_cons_of_length_eq_add_one hrow
      obtain ⟨hcells, hrow⟩ := ih (Nat.succ.inj hrow)
      exact ⟨.cons (Nat.le_trans hcell (Nat.le_max_left _ _)) hcells,
        .cons (Nat.le_max_right _ _) hrow⟩

theorem Fits.foldl (h : Fits cells ws) (hrows : ∀ row ∈ rows, row.length = ws.length) :
    ∀ line ∈ cells :: rows, Fits line (rows.foldl Table.widen ws) := by
  induction rows generalizing cells ws with
  | nil => exact List.forall_mem_singleton.mpr h
  | cons row rows ih =>
      rw [List.forall_mem_cons] at hrows
      obtain ⟨hcells, hrow⟩ := h.widen hrows.1
      have hlength : (Table.widen ws row).length = ws.length := by
        rw [← List.Forall₂.length_eq hcells, List.Forall₂.length_eq h]
      have hrest : ∀ row' ∈ rows, row'.length = (Table.widen ws row).length := hlength ▸ hrows.2
      have hfirst := List.forall_mem_cons.mp (ih hcells hrest)
      exact List.forall_mem_cons.mpr ⟨hfirst.1, ih hrow hrest⟩

theorem Tight.foldl (h : Tight displayWidth lines ws) :
    Tight displayWidth (lines ++ rows) (rows.foldl widen ws) := by
  induction rows generalizing lines ws with
  | nil => rwa [List.append_nil]
  | cons row rows ih =>
      rw [List.append_cons, List.foldl_cons]
      refine ih fun k w hk => ?_
      obtain ⟨a, b, ha, hb, rfl⟩ := List.getElem?_zipWith_eq_some.mp hk
      rw [List.getElem?_map, Option.map_eq_some_iff] at hb
      -- the wider of the two is what the column is as wide as
      rcases Nat.le_total a b with hle | hle
      · obtain ⟨cell, hcell, rfl⟩ := hb
        exact ⟨row, List.mem_concat_self, cell, hcell, (Nat.max_eq_right hle).symm⟩
      · obtain ⟨cells, hcells, cell, hcell, hwidth⟩ := h k a ha
        rw [Nat.max_eq_left hle]
        exact ⟨cells, List.mem_append_left _ hcells, cell, hcell, hwidth⟩

theorem inColumn_pad {cell : String} {w : Nat} (h : displayWidth cell ≤ w) (a : Align) :
    InColumn displayWidth w cell a (" " ++ a.pad w cell ++ " ") := by
  cases a with
  | left => exact .left (Nat.add_sub_of_le h)
  | right => exact .right (Nat.add_sub_of_le h)

theorem Fits.inColumns (h : Fits cells ws) {columns : List Column}
    (hc : columns.length = cells.length) :
    InColumns displayWidth (columns.zip ws) cells
      ((columns.zip (ws.zip cells)).map fun (c, w, s) => " " ++ c.align.pad w s ++ " ") := by
  induction h generalizing columns with
  | nil =>
      obtain rfl := List.length_eq_zero_iff.mp hc
      exact .nil
  | cons hcell _ ih =>
      obtain ⟨c, columns, rfl⟩ := List.exists_cons_of_length_eq_add_one hc
      exact .cons (inColumn_pad hcell _) (ih (Nat.succ.inj hc))

/-- **A table is drawn as it is rendered**, with the count of columns that renders it. -/
theorem isDrawn_render (h : ∀ row ∈ t.rows, row.length = t.columns.length) :
    t.IsDrawn displayWidth t.render := by
  let titles := t.columns.map Column.title
  have htitles : Fits titles (titles.map displayWidth) :=
    List.forall₂_map_right_iff.mpr (List.forall₂_same.mpr fun _ _ => Nat.le_refl _)
  have hwidths : t.widths = t.rows.foldl widen (titles.map displayWidth) := by
    rw [List.map_map]
    rfl
  have hfits : ∀ line ∈ titles :: t.rows, Fits line t.widths := by
    rw [hwidths]
    exact htitles.foldl (by simpa [titles] using h)
  have hfirst : Tight displayWidth [titles] (titles.map displayWidth) := fun k w hk => by
    rw [List.getElem?_map, Option.map_eq_some_iff] at hk
    exact ⟨titles, List.mem_singleton_self _, hk⟩
  have htight : Tight displayWidth (titles :: t.rows) t.widths := by
    rw [hwidths]
    exact hfirst.foldl
  rw [List.forall_mem_cons] at hfits
  refine .intro htight (.intro (hfits.1.inColumns (List.length_map _).symm)) .intro ?_ .intro
  rw [List.forall₂_map_right_iff, List.forall₂_same]
  exact fun row hrow => .intro ((hfits.2 row hrow).inColumns (h row hrow).symm)

/-- **A table of plain cells is drawn to the character.** -/
theorem isDrawn_length_render (h : ∀ row ∈ t.rows, row.length = t.columns.length)
    (hplain : ∀ cells ∈ t.columns.map Column.title :: t.rows, ∀ cell ∈ cells,
      isPlain cell = true) : t.IsDrawn String.length t.render :=
  (isDrawn_render h).congr fun cells hcells cell hcell =>
    (countsColumns_displayWidth cell (hplain cells hcells cell hcell)).symm

end Render

end Table

end StackMachine.Text
