import StackMachine.Proofs.Postfix

/-!
# Proofs — Typewriter

Texts as programs.  The source that types a text has three lines for each character: its code point
is loaded, written as a character, and taken off again.  Wherever these three instructions stand in
a program, they write the character that the low byte of the code point names, and leave the rest of
the state alone (`Typewriter.stroke_iterates`); by induction on the characters, those of a whole
text write one such character for each (`Typewriter.strokes_iterate`).  So a text comes out as it
is if all its characters fit a byte, and otherwise with each of them lowered to its code point
modulo 256 (`Typewriter.types_text`).
-/

namespace StackMachine

namespace Typewriter

/-! ### The program -/

/-- The lines that type a character. -/
def strokeLines (c : Char) : List String := ["LOAD_CONST " ++ c.toNat.repr, "WRITE_CHAR", "POP"]

/-- The lines of the program that types the text. -/
def lines (t : String) : List String := t.toList.flatMap strokeLines ++ ["LOAD_CONST 0", "EXIT"]

/-- The program as a source. -/
def source (t : String) : String := "\n".intercalate (lines t)

/-- The instructions of the lines that type a character. -/
def stroke (c : Char) : List Instruction :=
  [⟨Builtin.loadConst.opcode, .ofCount c.toNat⟩, ⟨Builtin.writeChar.opcode, 0⟩,
   ⟨Builtin.pop.opcode, 0⟩]

/-- The instructions of the lines. -/
def instructions (t : String) : List Instruction :=
  t.toList.flatMap stroke ++ [⟨Builtin.loadConst.opcode, 0⟩, ⟨Builtin.exit.opcode, 0⟩]

/-- The program as code. -/
def code (t : String) : Code := (instructions t).toArray

/-- The character whose code point is that of `c` modulo 256. -/
def lowered (c : Char) : Char := Char.ofNat (c.toNat % 256)

/-- The text with every character lowered. -/
def typed (t : String) : String := String.ofList (t.toList.map lowered)

/-! ### Characters -/

theorem toNat_lt (c : Char) : c.toNat < 2 ^ 63 := Nat.lt_of_lt_of_le c.val.toNat_lt (by decide)

theorem lowChar_ofCount (c : Char) : (Word.ofCount c.toNat).lowChar = lowered c := by
  rw [Word.lowChar, Word.toInt_ofCount (toNat_lt c)]
  rfl

theorem toNat_lowered (c : Char) : (lowered c).toNat = c.toNat % 256 := by
  have hlow := Word.toNat_lowChar (.ofCount c.toNat)
  rw [lowChar_ofCount, Word.toInt_ofCount (toNat_lt c)] at hlow
  exact Int.ofNat.inj hlow

theorem typed_of_le {t : String} (h : ∀ c ∈ t.toList, c.toNat ≤ 0xFF) : typed t = t := by
  have hlowered : ∀ c ∈ t.toList, lowered c = id c := fun c hc => by
    rw [lowered, Nat.mod_eq_of_lt (Nat.lt_succ_of_le (h c hc)), Char.ofNat_toNat, id]
  rw [typed, List.map_congr_left hlowered, List.map_id, String.ofList_toList]

/-! ### Assembling -/

theorem length_strokes (cs : List Char) : (cs.flatMap stroke).length = 3 * cs.length := by
  induction cs with
  | nil => rfl
  | cons c cs ih =>
      rw [List.flatMap_cons, List.length_append, ih, List.length_cons, Nat.mul_succ, Nat.add_comm]
      rfl

theorem size_code (t : String) : (code t).size = 3 * t.length + 2 := by
  rw [code, List.size_toArray, instructions, List.length_append, length_strokes,
    String.length_toList]
  rfl

theorem spells_strokes (cs : List Char) :
    List.Forall₂ (fun (l : String) i => Line.Spells .standard l.toList i)
      (cs.flatMap strokeLines) (cs.flatMap stroke) := by
  induction cs with
  | nil => exact .nil
  | cons c cs ih =>
      have hload := Builtin.loadConst.spells_count (toNat_lt c)
      exact .cons hload <| .cons Builtin.writeChar.spells_mnemonic <|
        .cons Builtin.pop.spells_mnemonic ih

theorem assemble_source (t : String) :
    InstructionSet.standard.assemble (source t) = .ok (code t) :=
  InstructionSet.wellFormed_standard.assemble_intercalate <|
    List.rel_append (spells_strokes t.toList) <|
      .cons (Builtin.loadConst.spells_argument 0) <| .cons Builtin.exit.spells_mnemonic .nil

/-! ### Typing -/

section Run

variable {code : Code} {s : State} {c : Char} {cs : List Char}

/-- **A stroke types a character** and leaves the stack as it was. -/
theorem stroke_iterates (out : Stdout) (hc : code.HasAt s.pc (stroke c)) :
    InstructionSet.standard.Iterates code out s 3 .next
      { s with pc := s.pc + 3, output := s.output.push (lowered c) } := by
  have hlow : ((lowered c).toNat : Int) = (Word.ofCount c.toNat).toInt % 256 := by
    rw [← lowChar_ofCount]
    exact Word.toNat_lowChar _
  have hloaded : InstructionSet.standard.Iterates code out s 1 .next _ :=
    .more .none (Builtin.Completes.loadConst.performs hc.head)
  have hwritten := hloaded.more ((Builtin.Completes.writeChar rfl hlow).performs (hc 1 _ rfl))
  exact hwritten.more ((Builtin.Completes.pop rfl).performs (hc 2 _ rfl))

/-- **Strokes type their characters**, one after another. -/
theorem strokes_iterate (out : Stdout) (hc : code.HasAt s.pc (cs.flatMap stroke)) :
    InstructionSet.standard.Iterates code out s (3 * cs.length) .next
      { s with pc := s.pc + 3 * cs.length,
               output := s.output ++ String.ofList (cs.map lowered) } := by
  induction cs generalizing s with
  | nil => simpa using InstructionSet.Iterates.none
  | cons c cs ih =>
      rw [List.flatMap_cons] at hc
      have hfirst := stroke_iterates out hc.left
      have hrest := ih (s := { s with pc := s.pc + 3, output := s.output.push (lowered c) })
        hc.right
      have hcount : 3 * (c :: cs).length = 3 + 3 * cs.length := Nat.add_comm ..
      have houtput : s.output ++ String.ofList ((c :: cs).map lowered) =
          s.output.push (lowered c) ++ String.ofList (cs.map lowered) := by
        rw [List.map_cons, String.ofList_cons, ← String.append_assoc, String.push_eq_append]
      rw [hcount, houtput, ← Nat.add_assoc]
      exact hfirst.trans hrest

end Run

/-- **The program of a text types it.**  For every text, the source with three lines for each
character and two at the end assembles, with a line break after it or without, to as many
instructions.  Run on a fresh standard machine, with a budget that allows all of them or with none,
it halts as it performs the last one, with the value zero, which is all that is on the stack.  What
it has written is the text with every character replaced by the one whose code point is its own
modulo 256, and so the text itself if no code point is above 255. -/
theorem types_text (t : String) (debug : Bool) (out : Stdout) (budget : Option Nat)
    (hb : ∀ limit ∈ budget, 3 * t.length + 2 ≤ limit) :
    let m : Machine := { debug }
    m.instructions.assemble (source t) = .ok (code t) ∧
    m.instructions.assemble (source t ++ "\n") = .ok (code t) ∧
    (code t).size = 3 * t.length + 2 ∧
    (∃ report, m.Reports (code t) out budget (3 * t.length + 2) report ∧
      report.result = .ok ⟨0, typed t⟩ ∧
      report.machine.state =
        { stack := [0], pc := (code t).size, codeLength := (code t).size, output := typed t }) ∧
    (typed t).toList.map Char.toNat = t.toList.map (fun c => c.toNat % 256) ∧
    ((∀ c ∈ t.toList, c.toNat ≤ 0xFF) → typed t = t) := by
  intro m
  have hcode : (code t).HasAt 0 (instructions t) := .toArray _
  have hstrokes := strokes_iterate (s := { codeLength := (code t).size }) out hcode.left
  have hend := hcode.right
  rw [length_strokes, Nat.zero_add] at hend
  rw [Nat.zero_add, String.empty_append] at hstrokes
  have hloaded := hstrokes.more (Builtin.Completes.loadConst.performs (hend 0 _ rfl))
  have hhalts := hloaded.more ((Builtin.Completes.exit rfl).performs (hend 1 _ rfl))
  obtain ⟨report, hr, hresult, hmachine⟩ :=
    Machine.exists_reports_of_closes (m := m) hhalts hb (.answer rfl)
  refine ⟨assemble_source t, ?_, size_code t, ⟨report, hr, hresult, ?_⟩, ?_, typed_of_le⟩
  · exact InstructionSet.wellFormed_standard.assemble_append_break.mpr (assemble_source t)
  · rw [hmachine, size_code]
    rfl
  · rw [typed, String.toList_ofList, List.map_map]
    exact List.map_congr_left fun c _ => toNat_lowered c

/-- A character of one byte, which comes out as it is, and one above, which does not; the budget is
just enough. -/
theorem types_text_euro :
    source "é€" = "LOAD_CONST 233\nWRITE_CHAR\nPOP\nLOAD_CONST 8364\nWRITE_CHAR\nPOP\n" ++
      "LOAD_CONST 0\nEXIT" ∧
    (∃ report, ({} : Machine).Reports (code "é€") .connected (some 8) 8 report ∧
      report.result = .ok ⟨0, "é¬"⟩ ∧
      report.machine.state = { stack := [0], pc := 8, codeLength := 8, output := "é¬" }) ∧
    ∃ report, ({} : Machine).Reports (code "é") .closed none 5 report ∧
      report.result = .ok ⟨0, "é"⟩ := by
  have hboth : typed "é€" = "é¬" := by decide
  obtain ⟨-, -, -, hruns, -, -⟩ := types_text "é€" false .connected (some 8) (by decide)
  obtain ⟨-, -, -, ⟨report, hr, hresult, -⟩, -, hsame⟩ := types_text "é" false .closed none nofun
  rw [hsame (List.forall_mem_singleton.mpr (by decide))] at hresult
  rw [hboth] at hruns
  exact ⟨by decide, hruns, report, hr, hresult⟩

end Typewriter

end StackMachine
