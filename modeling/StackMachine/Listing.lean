import StackMachine.InstructionSet
import StackMachine.Text.Table

/-!
# Listing

Code in the words of an instruction set: each instruction with its place, mnemonic and argument.  A
listing stops at the first opcode that the set does not know, and only a listing that reaches the
end of the code is a disassembly.
-/

namespace StackMachine

/-- One instruction of a listing. -/
structure Listing.Row where
  pc       : Nat
  mnemonic : String
  argument : Word
  deriving DecidableEq, Repr

/-- The rows up to the first unknown opcode, and that opcode with its place. -/
structure Listing where
  rows    : List Listing.Row
  unknown : Option (Nat × Opcode)
  deriving DecidableEq, Repr

namespace Listing

/-- The row of an instruction that the set knows. -/
def row? (set : InstructionSet) (i : Instruction) (pc : Nat) : Option Row :=
  (set.mnemonic? i.opcode).map fun m => ⟨pc, m, i.argument⟩

/-- The listing of a code. -/
def ofCode (set : InstructionSet) (code : Code) : Listing :=
  let placed := code.toList.zipIdx
  let known : Instruction × Nat → Bool := fun (i, pc) => (row? set i pc).isSome
  { rows    := (placed.takeWhile known).filterMap fun (i, pc) => row? set i pc
    unknown := (placed.find? fun p => !known p).map fun (i, pc) => (pc, i.opcode) }

/-- The instruction at `pc` has the opcode `o`, and this is the first that the set does not know. -/
structure FirstUnknown (set : InstructionSet) (code : Code) (pc : Nat) (o : Opcode) : Prop where
  there   : ∃ i, code[pc]? = some i ∧ i.opcode = o
  unknown : set.mnemonic? o = none
  before  : ∀ k < pc, ∀ i, code[k]? = some i → (set.mnemonic? i.opcode).isSome

theorem isSome_row?_iff {set : InstructionSet} {i : Instruction} {pc : Nat} :
    (row? set i pc).isSome ↔ (set.mnemonic? i.opcode).isSome := by
  rw [row?, Option.isSome_map]

/-- A listing is complete if every opcode is known. -/
theorem unknown_ofCode_eq_none_iff {set : InstructionSet} {code : Code} :
    (ofCode set code).unknown = none ↔ ∀ i ∈ code, (set.mnemonic? i.opcode).isSome := by
  have hplaced : (ofCode set code).unknown = none ↔
      ∀ p ∈ code.toList.zipIdx, (row? set p.1 p.2).isSome := by
    simp [ofCode, Option.isSome_iff_ne_none]
  rw [hplaced]
  constructor
  · intro h i hi
    obtain ⟨k, hk⟩ := List.mem_iff_getElem?.mp (Array.mem_toList_iff.mpr hi)
    exact isSome_row?_iff.mp (h (i, k) (List.mk_mem_zipIdx_iff_getElem?.mpr hk))
  · intro h p hp
    exact isSome_row?_iff.mpr (h p.1 (Array.mem_toList_iff.mp (List.fst_mem_of_mem_zipIdx hp)))

/-- It stops at the first opcode that is not. -/
theorem firstUnknown_of_unknown_ofCode {set : InstructionSet} {code : Code} {pc : Nat} {o : Opcode}
    (h : (ofCode set code).unknown = some (pc, o)) : FirstUnknown set code pc o := by
  rw [ofCode, Option.map_eq_some_iff] at h
  obtain ⟨⟨i, k⟩, h, he⟩ := h
  cases he
  obtain ⟨hi, j, hj, hget, hbefore⟩ := List.find?_eq_some_iff_getElem.mp h
  simp only [List.getElem_zipIdx, Prod.mk.injEq, Nat.zero_add] at hget
  obtain ⟨hget, rfl⟩ := hget
  refine ⟨⟨i, by simp [← hget], rfl⟩, ?_, fun l hl i' hi' => ?_⟩
  · simpa [row?] using hi
  · have hknown := hbefore l hl
    simp only [List.getElem_zipIdx, Bool.not_not, isSome_row?_iff] at hknown
    rw [← Array.getElem?_toList, List.getElem?_eq_some_iff] at hi'
    obtain ⟨-, rfl⟩ := hi'
    exact hknown

/-- The cells of a row. -/
def Row.cells (r : Row) : List String := [r.pc.repr, r.mnemonic, r.argument.text]

/-- Places and arguments stand to the right, mnemonics to the left. -/
def table (l : Listing) : Text.Table where
  columns := [⟨"PC", .right⟩, ⟨"Instruction", .left⟩, ⟨"Argument", .right⟩]
  rows    := l.rows.map Row.cells

/-- The listing as text. -/
def text (l : Listing) : String := l.table.render

end Listing

/-- The listing of a code all of whose opcodes are known. -/
def InstructionSet.disassemble (set : InstructionSet) (code : Code) : Option String :=
  let listing := Listing.ofCode set code
  if listing.unknown.isNone then some listing.text else none

end StackMachine
