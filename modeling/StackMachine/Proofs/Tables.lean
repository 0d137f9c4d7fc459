import StackMachine.Listing
import StackMachine.Proofs.Drawn
import StackMachine.StackTable

/-!
# Proofs — Tables

What the two tables of a machine show.  A listing has a line for each of its rows, with the place,
the mnemonic and the argument (`Listing.IsDrawn`); a stack has one for each of its words, with the
place and the value, the top marked and first (`IsStackTable`).  The cells of a stack are plain, and
those of a listing if its mnemonics are, so that the columns of such tables are counted in
characters.  A mnemonic may be any word, and what it takes in a terminal is not said here.
-/

namespace StackMachine

open Text (isPlain isPlain_append)

/-! ### Figures -/

theorem isPlain_repr (n : Nat) : isPlain n.repr = true := by
  rw [Text.isPlain_iff, Nat.toList_repr]
  intro c hc
  have hdigit : 48 ≤ c.toNat ∧ c.toNat ≤ 57 := Char.isDigit_iff_toNat.mp
    (Nat.isDigit_of_mem_toDigits (by decide) (by decide) hc)
  exact ⟨Char.le_def.mpr (UInt32.le_iff_toNat_le.mpr (Nat.le_trans (by decide) hdigit.1)),
    Char.le_def.mpr (UInt32.le_iff_toNat_le.mpr (Nat.le_trans hdigit.2 (by decide)))⟩

theorem isPlain_repr_int (i : Int) : isPlain i.repr = true := by
  cases i with
  | ofNat n => exact isPlain_repr n
  | negSucc n =>
      rw [Int.repr, isPlain_append, isPlain_repr]
      rfl

/-! ### Listings -/

namespace Listing

/-- The rows, each on a line: the place, the mnemonic and the argument. -/
def IsDrawn (width : String → Nat) (rows : List Row) : String → Prop :=
  Text.Table.IsDrawn width
    { columns := [⟨"PC", .right⟩, ⟨"Instruction", .left⟩, ⟨"Argument", .right⟩]
      rows    := rows.map fun r => [r.pc.repr, r.mnemonic, r.argument.toInt.repr] }

theorem length_of_mem_rows (l : Listing) :
    ∀ row ∈ l.table.rows, row.length = l.table.columns.length :=
  List.forall_mem_map.mpr fun _ _ => rfl

theorem isDrawn_text (l : Listing) : IsDrawn Text.displayWidth l.rows l.text :=
  Text.Table.isDrawn_render l.length_of_mem_rows

/-- **A listing of plain mnemonics** has plain cells only. -/
theorem isDrawn_length_text {l : Listing} (h : ∀ r ∈ l.rows, isPlain r.mnemonic = true) :
    IsDrawn String.length l.rows l.text := by
  refine Text.Table.isDrawn_length_render l.length_of_mem_rows ?_
  refine List.forall_mem_cons.mpr ⟨?_, List.forall_mem_map.mpr fun r hr => ?_⟩
  · simp only [List.map_cons, List.map_nil, List.forall_mem_cons]
    exact ⟨rfl, rfl, rfl, nofun⟩
  · simp only [List.forall_mem_cons]
    exact ⟨isPlain_repr _, h r hr, isPlain_repr_int _, nofun⟩

end Listing

/-! ### Stacks -/

/-- The cells of a word with so many above it: its place and its value. -/
inductive IsStackRow : Word × Nat → List String → Prop where
  | top (w : Word) : IsStackRow (w, 0) ["* --> S[0] =", w.toInt.repr]
  | below (w : Word) (depth : Nat) :
      IsStackRow (w, depth + 1) ["S[" ++ (depth + 1).repr ++ "] =", w.toInt.repr]

/-- The words, each on a line, from the top down. -/
inductive IsStackTable (stack : List Word) (text : String) : Prop where
  | intro {rows : List (List String)} (hrows : List.Forall₂ IsStackRow stack.zipIdx rows)
      (h : Text.Table.IsDrawn String.length
        { columns := [⟨"Depth", .right⟩, ⟨"Value", .left⟩], rows } text) :
      IsStackTable stack text

theorem isStackRow_cells (w : Word) (depth : Nat) :
    IsStackRow (w, depth) [stackLabel depth, w.text] := by
  cases depth with
  | zero => exact .top w
  | succ depth => exact .below w depth

theorem IsStackRow.plain_of_mem {p : Word × Nat} {cells : List String} (h : IsStackRow p cells) :
    ∀ cell ∈ cells, isPlain cell = true := by
  cases h with
  | top =>
      simp only [List.forall_mem_cons]
      exact ⟨rfl, isPlain_repr_int _, nofun⟩
  | below =>
      simp only [List.forall_mem_cons, isPlain_append, isPlain_repr]
      exact ⟨rfl, isPlain_repr_int _, nofun⟩

/-- **The text of a stack is its table**, to the character. -/
theorem isStackTable_stackText (stack : List Word) : IsStackTable stack (stackText stack) := by
  have hrows : List.Forall₂ IsStackRow stack.zipIdx (stackTable stack).rows := by
    rw [stackTable, List.forall₂_map_right_iff, List.forall₂_same]
    exact fun p _ => isStackRow_cells p.1 p.2
  have hcells : ∀ cells ∈ (stackTable stack).rows,
      cells.length = 2 ∧ ∀ cell ∈ cells, isPlain cell = true :=
    List.forall_mem_map.mpr fun p _ => ⟨rfl, (isStackRow_cells p.1 p.2).plain_of_mem⟩
  refine .intro hrows (Text.Table.isDrawn_length_render (fun row hrow => (hcells row hrow).1) ?_)
  refine List.forall_mem_cons.mpr ⟨?_, fun row hrow => (hcells row hrow).2⟩
  simp only [List.map_cons, List.map_nil, List.forall_mem_cons]
  exact ⟨rfl, rfl, nofun⟩

end StackMachine
