import Mathlib.Algebra.Ring.Nat
import Mathlib.Data.List.TakeWhile
import StackMachine.Proofs.Grammar
import StackMachine.Proofs.Tables
import StackMachine.Proofs.Words

/-!
# Proofs — Listed

Listings that reach the end of the code.  If a set knows every opcode, the listing has one row for
each instruction, at its place (`Listing.complete_ofCode`).  As text it has one line for each row
besides the titles and two rules (`Listing.breaks_text`): no cell breaks a line, for each is a word
(`Listing.Row.isMnemonic_of_mem_cells`).
-/

namespace StackMachine

namespace Text

/-- The number of line breaks. -/
def breaks (s : String) : Nat := s.toList.count '\n'

@[simp] theorem breaks_append (s t : String) : breaks (s ++ t) = breaks s + breaks t := by
  rw [breaks, String.toList_append, List.count_append]
  rfl

theorem breaks_eq_zero_iff {s : String} : breaks s = 0 ↔ '\n' ∉ s.toList := List.count_eq_zero

theorem breaks_join (ss : List String) : breaks (String.join ss) = (ss.map breaks).sum := by
  rw [breaks, String.toList_join, List.count_flatMap]
  rfl

theorem breaks_intercalate {sep : String} (h : breaks sep = 0) {ss : List String}
    (hs : ∀ s ∈ ss, breaks s = 0) : breaks (sep.intercalate ss) = 0 := by
  simp only [breaks_eq_zero_iff] at h hs ⊢
  have hne := forall_mem_intercalate (P := (· ≠ '\n')) (fun c hc hn => h (hn ▸ hc))
    fun s hmem c hc hn => hs s hmem (hn ▸ hc)
  exact fun hmem => hne _ hmem rfl

theorem breaks_replicate {c : Char} (hc : c ≠ '\n') (n : Nat) : breaks (replicate n c) = 0 := by
  rw [breaks_eq_zero_iff, replicate, String.toList_ofList]
  exact fun h => hc (List.eq_of_mem_replicate h).symm

section Lines

variable {cell line : String} {cells : List String}

theorem Spaced.breaks_eq (h : Spaced cell line) : breaks line = breaks cell := by
  obtain ⟨before, after⟩ := h
  have hblank : breaks " " = 0 := rfl
  simp [breaks_replicate, hblank]

theorem IsLine.breaks_eq_one (h : IsLine cells line) (hc : ∀ s ∈ cells, breaks s = 0) :
    breaks line = 1 := by
  obtain ⟨h⟩ := h
  have hspaced := exists_forall₂_iff.mp
    ⟨_, ((List.forall₂_and_left _ _).mpr ⟨hc, h⟩).flip⟩
  rw [breaks_append, breaks_append, breaks_intercalate rfl fun s hs => ?_]
  · rfl
  · obtain ⟨cell, hcell, hs⟩ := hspaced s hs
    rw [hs.breaks_eq, hcell]

theorem IsRule.breaks_eq_one (h : IsRule line) : breaks line = 1 := by
  obtain @⟨rule, -, h⟩ := h
  have hrule : breaks rule = 0 := breaks_eq_zero_iff.mpr fun hn => absurd (h _ hn) (by decide)
  rw [breaks_append, breaks_append, hrule]
  rfl

end Lines

/-- **A table has one line for each row**, besides its titles and the rules under them and at the
end, in whatever way it is laid out. -/
theorem Table.IsLayout.breaks_eq {t : Table} {text : String} (h : t.IsLayout text)
    (hc : ∀ c ∈ t.columns, breaks c.title = 0) (hr : ∀ row ∈ t.rows, ∀ s ∈ row, breaks s = 0) :
    breaks text = t.rows.length + 3 := by
  obtain @⟨titles, rule, last, rows, htitles, hrule, hrows, hlast⟩ := h
  have hjoin : breaks (String.join rows) = t.rows.length := by
    rw [breaks_join]
    generalize t.rows = cells at hrows hr
    induction hrows with
    | nil => rfl
    | cons hrow _ ih =>
        rw [List.forall_mem_cons] at hr
        rw [List.map_cons, List.sum_cons, ih hr.2, hrow.breaks_eq_one hr.1, List.length_cons,
          Nat.add_comm]
  rw [breaks_append, breaks_append, breaks_append, htitles.breaks_eq_one (by simpa using hc),
    hrule.breaks_eq_one, hjoin, hlast.breaks_eq_one]
  omega

end Text

open Text (breaks)

/-- A word of a line does not break it. -/
theorem IsMnemonic.breaks_eq_zero {m : String} (h : IsMnemonic m) : breaks m = 0 :=
  Text.breaks_eq_zero_iff.mpr (h.notMem (by decide))

theorem Word.breaks_text (w : Word) : breaks w.text = 0 := w.isMnemonic_text.breaks_eq_zero

namespace Listing

/-- Each cell of a row is a word, for the mnemonic is one. -/
theorem Row.isMnemonic_of_mem_cells {r : Row} (h : IsMnemonic r.mnemonic) :
    ∀ cell ∈ r.cells, IsMnemonic cell := by
  simp only [cells, List.forall_mem_cons]
  exact ⟨isMnemonic_repr _, h, r.argument.isMnemonic_text, nofun⟩

variable {set : InstructionSet} {code : Code}

theorem isLayout_text (l : Listing) : l.table.IsLayout l.text :=
  l.isDrawn_text.isLayout (by simp)

theorem breaks_text {l : Listing} (h : ∀ r ∈ l.rows, IsMnemonic r.mnemonic) :
    breaks l.text = l.rows.length + 3 := by
  have hlines : l.table.rows.length = l.rows.length := List.length_map _
  have htitles : ∀ c ∈ l.table.columns, breaks c.title = 0 := by
    simp only [table, List.forall_mem_cons]
    exact ⟨rfl, rfl, rfl, nofun⟩
  have hcells : ∀ row ∈ l.table.rows, ∀ s ∈ row, breaks s = 0 := by
    simp only [table, List.forall_mem_map]
    exact fun r hr s hs => (Row.isMnemonic_of_mem_cells (h r hr) s hs).breaks_eq_zero
  rw [← hlines, l.isLayout_text.breaks_eq htitles hcells]

/-- Each row is that of an instruction that the set knows. -/
theorem mnemonic?_of_mem_rows {r : Row} (h : r ∈ (ofCode set code).rows) :
    ∃ o, set.mnemonic? o = some r.mnemonic := by
  simp only [ofCode, List.mem_filterMap] at h
  obtain ⟨⟨i, pc⟩, -, h⟩ := h
  rw [row?, Option.map_eq_some_iff] at h
  obtain ⟨m, hm, rfl⟩ := h
  exact ⟨i.opcode, hm⟩

theorem isSome_row?_of_known (hk : ∀ i ∈ code, (set.mnemonic? i.opcode).isSome) :
    ∀ p ∈ code.toList.zipIdx, (row? set p.1 p.2).isSome := fun p hp =>
  isSome_row?_iff.mpr (hk p.1 (Array.mem_toList_iff.mp (List.fst_mem_of_mem_zipIdx hp)))

theorem isMnemonic_of_mem_rows (h : set.WellFormed) {r : Row} (hr : r ∈ (ofCode set code).rows) :
    IsMnemonic r.mnemonic := by
  obtain ⟨o, ho⟩ := mnemonic?_of_mem_rows hr
  rw [InstructionSet.mnemonic?_eq] at ho
  exact h.isMnemonic _ (List.mem_of_getElem? ho)

theorem breaks_text_ofCode (h : set.WellFormed) (code : Code) :
    breaks (ofCode set code).text = (ofCode set code).rows.length + 3 :=
  breaks_text fun _ => isMnemonic_of_mem_rows h

/-- A code whose opcodes are known is listed to its end. -/
theorem ofCode_of_known (hk : ∀ i ∈ code, (set.mnemonic? i.opcode).isSome) :
    ofCode set code = ⟨code.toList.zipIdx.filterMap fun (i, pc) => row? set i pc, none⟩ := by
  have hrows : (ofCode set code).rows =
      code.toList.zipIdx.filterMap fun (i, pc) => row? set i pc := by
    rw [ofCode]
    exact congrArg _ (List.takeWhile_eq_self_iff.mpr (isSome_row?_of_known hk))
  rw [← hrows, ← unknown_ofCode_eq_none_iff.mpr hk]

/-- The listing has one row for each instruction of the code, at its place, and no other. -/
structure Complete (set : InstructionSet) (code : Code) (l : Listing) : Prop where
  unknown : l.unknown = none
  length  : l.rows.length = code.size
  row     : ∀ (k : Nat) (i : Instruction), code[k]? = some i →
    ∃ m, set.mnemonic? i.opcode = some m ∧ l.rows[k]? = some ⟨k, m, i.argument⟩

end Listing

/-- What is kept of a list of which all is kept stands where it stood. -/
theorem getElem?_filterMap_of_isSome {α β : Type} {f : α → Option β} {xs : List α}
    (h : ∀ x ∈ xs, (f x).isSome) (k : Nat) : (xs.filterMap f)[k]? = xs[k]?.bind f := by
  induction xs generalizing k with
  | nil => rfl
  | cons x xs ih =>
      rw [List.forall_mem_cons] at h
      obtain ⟨y, hy⟩ := Option.isSome_iff_exists.mp h.1
      rw [List.filterMap_cons_some hy]
      cases k with
      | zero => simp [hy]
      | succ k => simpa using ih h.2 k

theorem Listing.complete_ofCode {set : InstructionSet} {code : Code}
    (hk : ∀ i ∈ code, (set.mnemonic? i.opcode).isSome) :
    Complete set code (ofCode set code) := by
  have hrow := isSome_row?_of_known hk
  rw [ofCode_of_known hk]
  refine ⟨rfl, ?_, fun k i hi => ?_⟩
  · rw [List.filterMap_length_eq_length.mpr hrow]
    simp
  · obtain ⟨m, hm⟩ := Option.isSome_iff_exists.mp (hk i (Array.mem_of_getElem? hi))
    refine ⟨m, hm, ?_⟩
    rw [getElem?_filterMap_of_isSome hrow]
    simp [hi, row?, hm]

end StackMachine
