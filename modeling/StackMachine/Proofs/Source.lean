import StackMachine.Proofs.Grammar

/-!
# Proofs — Source

Code as a source for the assembler, and back.  `InstructionSet.write` puts each instruction on a
line of its own, its mnemonic and then its argument in decimal; an argument of zero may be left out,
place by place.  What it writes assembles to the code again, with a line break at the end or without
(`assemble_write`).

The lines that it writes are lines of the grammar for the instructions written.  Such a line has no
line break in it and no white space at its end, so cutting the source gives the written lines back.
-/

namespace StackMachine

namespace InstructionSet

/-- The line of an instruction, or its opcode if the set does not know it. -/
def writeLine (set : InstructionSet) (omit0 : Bool) (i : Instruction) : Except Opcode String :=
  match set.mnemonic? i.opcode with
  | some m => .ok (if omit0 ∧ i.argument = 0 then m else m ++ " " ++ i.argument.text)
  | none   => .error i.opcode

/-- The source of a code, or its first opcode that the set does not know.  The argument is left out
where it is zero and `omits` says so of its place. -/
def write (set : InstructionSet) (omits : Nat → Bool) (code : Code) : Except Opcode String := do
  let lines ← code.toList.zipIdx.mapM fun (i, pc) => set.writeLine (omits pc) i
  return "\n".intercalate lines

end InstructionSet

/-! ### The lines of the grammar -/

namespace Line.Spells

variable {set : InstructionSet} {text : List Char} {i : Instruction}

/-- White space in a line is the one space before the argument. -/
theorem eq_space_of_isBlank (h : Spells set text i) (hset : set.WellFormed) {c : Char}
    (hc : c ∈ text) (hb : Text.isBlank c = true) : c = ' ' := by
  cases h with
  | bare ho => exact absurd hc ((hset.isMnemonic_of_opcode? ho).notMem hb)
  | full ho hd _ =>
      rcases List.mem_append.mp hc with hc | hc
      · exact absurd hc ((hset.isMnemonic_of_opcode? ho).notMem hb)
      · rcases List.mem_cons.mp hc with rfl | hc
        · rfl
        · exact absurd hc (hd.notMem hb)

theorem ne_nil (h : Spells set text i) (hset : set.WellFormed) : text ≠ [] := by
  cases h with
  | bare ho => exact (hset.isMnemonic_of_opcode? ho).ne_nil
  | full _ _ _ => simp

/-- Nothing is taken from the end of a line. -/
theorem rdropWhile_eq (h : Spells set text i) (hset : set.WellFormed) :
    text.rdropWhile Text.isBlank = text := by
  rw [List.rdropWhile_eq_self_iff]
  intro hne hb
  cases h with
  | bare ho =>
      exact (hset.isMnemonic_of_opcode? ho).notMem hb (List.getLast_mem hne)
  | full _ hd _ =>
      rw [List.getLast_append_of_ne_nil _ (by simp), List.getLast_cons hd.ne_nil] at hb
      exact hd.notMem hb (List.getLast_mem _)

end Line.Spells

/-- A written line is one for its instruction. -/
theorem InstructionSet.WellFormed.spells_of_writeLine {set : InstructionSet} (h : set.WellFormed)
    (hs : set.size < 2 ^ 32) {omit0 : Bool} {i : Instruction} {line : String}
    (hw : set.writeLine omit0 i = .ok line) : Line.Spells set line.toList i := by
  obtain ⟨o, w⟩ := i
  rw [writeLine] at hw
  cases hm : set.mnemonic? o with
  | none => simp [hm] at hw
  | some m =>
      have ho : set.opcode? m = some o := (h.opcode?_eq_some_iff hs).mpr hm
      simp only [hm, Except.ok.injEq] at hw
      -- a line without an argument stands for zero, which is what was left out
      by_cases h0 : omit0 = true ∧ w = 0
      · rw [if_pos h0] at hw
        obtain ⟨-, rfl⟩ := h0
        exact hw ▸ .bare ho
      · rw [if_neg h0] at hw
        obtain ⟨n, hd, hn, hwn⟩ := Word.ofLiteral?_eq_some_iff.mp (Word.ofLiteral?_text w)
        have ht : line.toList = m.toList ++ ' ' :: w.text.toList := by simp [← hw]
        rw [ht, hwn]
        exact .full ho (hwn ▸ hd) hn

/-! ### The lines of a source -/

theorem toList_break : "\n".toList = ['\n'] := rfl

/-- Lines that are put together with line breaks are cut apart again. -/
theorem filter_lines_intercalate {ls : List String}
    (h : ∀ l ∈ ls, l.toList ≠ [] ∧ '\n' ∉ l.toList ∧
      l.toList.rdropWhile Text.isBlank = l.toList) :
    (lines ("\n".intercalate ls)).filter (· ≠ []) = ls.map String.toList := by
  by_cases hne : ls = []
  · subst hne
    rfl
  have hbreak : ∀ cs ∈ ls.map String.toList, '\n' ∉ cs := by
    intro cs hc
    obtain ⟨l, hl, rfl⟩ := List.mem_map.mp hc
    exact (h l hl).2.1
  have hcut : lines ("\n".intercalate ls) = ls.map String.toList := by
    rw [lines, String.toList_intercalate, toList_break,
      List.splitOn_intercalate '\n' hbreak (by simpa using hne), List.map_map]
    exact List.map_congr_left fun l hl => (h l hl).2.2
  rw [hcut, List.filter_eq_self]
  intro cs hc
  obtain ⟨l, hl, rfl⟩ := List.mem_map.mp hc
  exact decide_eq_true (h l hl).1

/-- A line break at the end adds an empty line at most. -/
theorem filter_lines_append_break (source : String) :
    (lines (source ++ "\n")).filter (· ≠ []) = (lines source).filter (· ≠ []) := by
  have hcut : lines (source ++ "\n") = lines source ++ [[]] := by
    rw [lines, String.toList_append, toList_break, List.splitOn_append_cons_self,
      List.map_append]
    rfl
  rw [hcut, List.filter_append]
  simp

theorem InstructionSet.WellFormed.assemble_append_break {set : InstructionSet} (h : set.WellFormed)
    {source : String} {code : Code} :
    set.assemble (source ++ "\n") = .ok code ↔ set.assemble source = .ok code := by
  rw [h.assemble_eq_ok_iff, h.assemble_eq_ok_iff, filter_lines_append_break]

/-! ### Writing and assembling -/

/-- What is written is one line for each instruction. -/
theorem InstructionSet.write_eq_ok_iff {set : InstructionSet} {omits : Nat → Bool} {code : Code}
    {text : String} :
    set.write omits code = .ok text ↔
      ∃ ls, List.Forall₂ (fun p l => set.writeLine (omits p.2) p.1 = .ok l) code.toList.zipIdx ls ∧
        text = "\n".intercalate ls := by
  simp only [← mapM_eq_ok_iff, write]
  cases code.toList.zipIdx.mapM fun p => set.writeLine (omits p.2) p.1 <;>
    simp [bind, Except.bind, pure, Except.pure, eq_comm]

/-- A code can be written if all its opcodes are known. -/
theorem InstructionSet.exists_write {set : InstructionSet} {code : Code}
    (hk : ∀ i ∈ code, (set.mnemonic? i.opcode).isSome) (omits : Nat → Bool) :
    ∃ text, set.write omits code = .ok text := by
  simp only [write_eq_ok_iff]
  suffices hlines : ∀ p ∈ code.toList.zipIdx, ∃ l, set.writeLine (omits p.2) p.1 = .ok l by
    obtain ⟨ls, hls⟩ := exists_forall₂_iff.mpr hlines
    exact ⟨_, ls, hls, rfl⟩
  intro p hp
  have hmem : p.1 ∈ code := by simpa using List.fst_mem_of_mem_zipIdx hp
  obtain ⟨m, hm⟩ := Option.isSome_iff_exists.mp (hk p.1 hmem)
  simp [writeLine, hm]

/-- Lines that spell the instructions of a code are a source of it. -/
theorem InstructionSet.WellFormed.assemble_intercalate {set : InstructionSet} (h : set.WellFormed)
    {ls : List String} {code : Code}
    (hls : List.Forall₂ (fun (l : String) i => Line.Spells set l.toList i) ls code.toList) :
    set.assemble ("\n".intercalate ls) = .ok code := by
  rw [h.assemble_eq_ok_iff, filter_lines_intercalate, List.forall₂_map_left_iff]
  · exact hls
  · intro l hl
    obtain ⟨i, hi⟩ := exists_forall₂_iff.mp ⟨_, hls⟩ l hl
    refine ⟨hi.ne_nil h, fun hb => ?_, hi.rdropWhile_eq h⟩
    exact absurd (hi.eq_space_of_isBlank h hb (by decide)) (by decide)

/-- What is written assembles to what it was written for. -/
theorem InstructionSet.WellFormed.assemble_of_write {set : InstructionSet} (h : set.WellFormed)
    (hs : set.size < 2 ^ 32) {omits : Nat → Bool} {code : Code} {text : String}
    (hw : set.write omits code = .ok text) : set.assemble text = .ok code := by
  obtain ⟨ls, hls, rfl⟩ := write_eq_ok_iff.mp hw
  refine h.assemble_intercalate ?_
  rw [← List.zipIdx_map_fst 0 code.toList, List.forall₂_map_right_iff]
  exact List.Forall₂.flip (hls.imp fun p l hl => h.spells_of_writeLine hs hl)

/-- **Writing code out and assembling it again is the identity**: for a set of fewer than 2³²
instructions that registrations can make, and a code all of whose opcodes it knows, the source with
one line for each instruction assembles to the code, wherever arguments of zero are left out, and
with a line break at the end just as well. -/
theorem assemble_write {P : Action → Prop} {set : InstructionSet} (h : set.Reachable P)
    (hs : set.size < 2 ^ 32) {code : Code} (hk : ∀ i ∈ code, (set.mnemonic? i.opcode).isSome)
    (omits : Nat → Bool) :
    ∃ text, set.write omits code = .ok text ∧ set.assemble text = .ok code ∧
      set.assemble (text ++ "\n") = .ok code := by
  obtain ⟨text, hw⟩ := InstructionSet.exists_write hk omits
  have hset := h.wellFormed
  have ha := hset.assemble_of_write hs hw
  exact ⟨text, hw, ha, hset.assemble_append_break.mpr ha⟩

/-- The least word, an instruction with a number for a name, and two zeros, one left out. -/
theorem assemble_write_numbered :
    numbered.write (· == 2) #[⟨1, Int64.minValue⟩, ⟨13, 0⟩, ⟨2, 0⟩] =
      .ok "LOAD_CONST -9223372036854775808\n7 0\nEXIT" ∧
    numbered.assemble "LOAD_CONST -9223372036854775808\n7 0\nEXIT" =
      .ok #[⟨1, Int64.minValue⟩, ⟨13, 0⟩, ⟨2, 0⟩] := by
  have known : ∀ i ∈ (#[⟨1, Int64.minValue⟩, ⟨13, 0⟩, ⟨2, 0⟩] : Code),
      (numbered.mnemonic? i.opcode).isSome := by decide
  have hw : numbered.write (· == 2) #[⟨1, Int64.minValue⟩, ⟨13, 0⟩, ⟨2, 0⟩] =
      .ok "LOAD_CONST -9223372036854775808\n7 0\nEXIT" := by decide
  obtain ⟨text, ht, ha, -⟩ := assemble_write reachable_numbered (by decide) known (· == 2)
  obtain rfl := Except.ok.inj (hw.symm.trans ht)
  exact ⟨hw, ha⟩

end StackMachine
