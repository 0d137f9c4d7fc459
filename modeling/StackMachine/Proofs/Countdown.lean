import StackMachine.Proofs.Budget
import StackMachine.Proofs.Postfix

/-!
# Proofs — Countdown

A loop with its exact count.  The program pushes a number, and then, as long as the number is not
zero, writes it and takes one from it.  A round of the loop is six instructions, the last round one
less, for its conditional jump leaves the loop (`Countdown.round`, `Countdown.again`,
`Countdown.leave`); by induction on the number that is left, the loop writes every number down to
one (`Countdown.loop`).  With the instruction before the loop and the one after it, these are
`6 * n + 1`, and a budget suffices exactly if it allows so many (`Countdown.halts_exactly`).
-/

namespace StackMachine

namespace Countdown

/-! ### The program -/

/-- The lines of the program that counts down from `n`. -/
def lines (n : Nat) : List String :=
  ["LOAD_CONST " ++ n.repr, "WRITE", "LOAD_CONST -1", "ADD", "DUP", "JMPZ 7", "JMP 1", "EXIT"]

/-- The program as a source. -/
def source (n : Nat) : String := "\n".intercalate (lines n)

/-- The instructions of the lines. -/
def instructions (n : Nat) : List Instruction :=
  [⟨Builtin.loadConst.opcode, .ofCount n⟩, ⟨Builtin.write.opcode, 0⟩,
   ⟨Builtin.loadConst.opcode, -1⟩, ⟨Builtin.add.opcode, 0⟩, ⟨Builtin.dup.opcode, 0⟩,
   ⟨Builtin.jmpz.opcode, 7⟩, ⟨Builtin.jmp.opcode, 1⟩, ⟨Builtin.exit.opcode, 0⟩]

/-- The program as code. -/
def code (n : Nat) : Code := (instructions n).toArray

/-- The decimal texts of `n`, of one less, and so on down to one. -/
def text : Nat → String
  | 0     => ""
  | n + 1 => (n + 1).repr ++ text n

theorem assemble_source {n : Nat} (hn : n < 2 ^ 63) :
    InstructionSet.standard.assemble (source n) = .ok (code n) := by
  refine InstructionSet.wellFormed_standard.assemble_intercalate ?_
  exact .cons (Builtin.loadConst.spells_count hn) <| .cons Builtin.write.spells_mnemonic <|
    .cons (Builtin.loadConst.spells_argument (-1)) <| .cons Builtin.add.spells_mnemonic <|
    .cons Builtin.dup.spells_mnemonic <| .cons (Builtin.jmpz.spells_argument 7) <|
    .cons (Builtin.jmp.spells_argument 1) <| .cons Builtin.exit.spells_mnemonic .nil

/-! ### The loop -/

/-- The state at the head of the loop, with `k` left to count and `o` written. -/
def atHead (k : Nat) (o : String) : State :=
  { stack := [.ofCount k], pc := 1, codeLength := 8, output := o }

/-- The state after a number is written and one is taken from it, which leaves `k` twice. -/
def counted (k : Nat) (o : String) : State :=
  { stack := [.ofCount k, .ofCount k], pc := 5, codeLength := 8, output := o }

/-- The state after the loop. -/
def afterLoop (o : String) : State := { stack := [0], pc := 7, codeLength := 8, output := o }

variable {n k : Nat}

theorem enter (n : Nat) (out : Stdout) :
    InstructionSet.standard.Iterates (code n) out { codeLength := 8 } 1 .next (atHead n "") :=
  .more .none (Builtin.Completes.loadConst.performs rfl)

/-- **A round of the loop** writes the number and takes one from it. -/
theorem round (n : Nat) (out : Stdout) (hk : k + 1 < 2 ^ 63) (o : String) :
    InstructionSet.standard.Iterates (code n) out (atHead (k + 1) o) 4 .next
      (counted k (o ++ (k + 1).repr)) := by
  have hk' : (Word.ofCount (k + 1)).toInt = ((k + 1 : Nat) : Int) := Word.toInt_ofCount hk
  have hwrites : Builtin.write.Completes 0 { atHead (k + 1) o with pc := 2 } .next
      { atHead (k + 1) (o ++ (k + 1).repr) with pc := 2 } [] := by
    rw [← Word.text_ofCount hk]
    exact .write rfl
  have hless : (Word.ofCount k).toInt =
      ((Word.ofCount (k + 1)).toInt + (-1 : Word).toInt).bmod (2 ^ 64) := by
    have hsum : ((k + 1 : Nat) : Int) + (-1 : Word).toInt = k := Int.add_sub_cancel k 1
    rw [hk', hsum, Word.toInt_ofCount (Nat.lt_of_succ_lt hk)]
    exact (Int.bmod_eq_of_le (by omega) (by omega)).symm
  have hwritten : InstructionSet.standard.Iterates (code n) out (atHead (k + 1) o) 1 .next _ :=
    .more .none (hwrites.performs rfl)
  have hloaded := hwritten.more (Builtin.Completes.loadConst.performs rfl)
  have hadded := hloaded.more ((Builtin.Completes.add rfl hless).performs rfl)
  exact hadded.more ((Builtin.Completes.dup rfl).performs rfl)

/-- With something left to count, the loop goes round again. -/
theorem again (n : Nat) (out : Stdout) (hk : k + 1 < 2 ^ 63) (o : String) :
    InstructionSet.standard.Iterates (code n) out (counted (k + 1) o) 2 .next
      (atHead (k + 1) o) := by
  have hne : Word.ofCount (k + 1) ≠ 0 := by
    intro h
    have hzero : ((k + 1 : Nat) : Int) = 0 := by
      rw [← Word.toInt_ofCount hk, h]
      rfl
    omega
  have hpasses : Builtin.jmpz.Completes 7 { counted (k + 1) o with pc := 6 } .next
      { atHead (k + 1) o with pc := 6 } [] :=
    .jmpzPassed rfl (show 7 < 8 by decide) rfl hne
  have hjumps : Builtin.jmp.Completes 1 { atHead (k + 1) o with pc := 7 } .next
      (atHead (k + 1) o) [] := .jmp rfl (show 1 < 8 by decide)
  exact .more (.more .none (hpasses.performs rfl)) (hjumps.performs rfl)

/-- With nothing left to count, the loop is over. -/
theorem leave (n : Nat) (out : Stdout) (o : String) :
    InstructionSet.standard.Iterates (code n) out (counted 0 o) 1 .next (afterLoop o) := by
  have hleaves : Builtin.jmpz.Completes 7 { counted 0 o with pc := 6 } .next (afterLoop o) [] :=
    .jmpzTaken rfl (show 7 < 8 by decide) rfl
  exact .more .none (hleaves.performs rfl)

/-- **The loop writes every number down to one.** -/
theorem loop (n : Nat) (out : Stdout) (hk : k + 1 < 2 ^ 63) (o : String) :
    InstructionSet.standard.Iterates (code n) out (atHead (k + 1) o) (6 * k + 5) .next
      (afterLoop (o ++ text (k + 1))) := by
  induction k generalizing o with
  | zero => exact (round n out hk o).trans (leave n out _)
  | succ k ih =>
      have hrest := ih (Nat.lt_of_succ_lt hk) (o ++ (k + 1 + 1).repr)
      rw [String.append_assoc] at hrest
      have hcount : 6 * (k + 1) + 5 = 4 + 2 + (6 * k + 5) := by omega
      rw [hcount]
      exact ((round n out hk o).trans (again n out (Nat.lt_of_succ_lt hk) _)).trans hrest

/-- The whole program, from its first instruction to its halt. -/
theorem halts (out : Stdout) (hn : 1 ≤ n) (hlt : n < 2 ^ 63) :
    InstructionSet.standard.Iterates (code n) out { codeLength := 8 } (6 * n + 1) .halt
      { stack := [0], pc := 8, codeLength := 8, output := text n } := by
  obtain ⟨k, rfl⟩ := Nat.exists_eq_add_of_le' hn
  have hloop := (enter (k + 1) out).trans (loop (k + 1) out hlt "")
  rw [String.empty_append] at hloop
  have hexits : Builtin.exit.Completes 0 { afterLoop (text (k + 1)) with pc := 8 } .halt
      { stack := [0], pc := 8, codeLength := 8, output := text (k + 1) } [] := .exit rfl
  have hcount : 6 * (k + 1) + 1 = 1 + (6 * k + 5) + 1 := by omega
  rw [hcount]
  exact hloop.more (hexits.performs rfl)

/-- **The countdown is right for every start, to the instruction.**  For every number from one on
whose countdown has a count of 64 bits, the program assembles; run on a fresh standard machine, it
halts as its `6 * n + 1`th instruction, with the value zero, which is all that is on the stack, and
the numbers from `n` down to one written one after the other.  Every budget that allows so many
instructions leaves the report as it is, and every smaller one is used up. -/
theorem halts_exactly {n : Nat} (hn : 1 ≤ n) (hsteps : 6 * n + 1 < 2 ^ 64) (debug : Bool)
    (out : Stdout) :
    let m : Machine := { debug }
    m.instructions.assemble (source n) = .ok (code n) ∧
    ∃ report, m.RunsTo (code n) out (6 * n + 1) .halted report ∧
      report.result = .ok ⟨0, text n⟩ ∧
      report.machine.state = { stack := [0], pc := 8, codeLength := 8, output := text n } ∧
      (∀ limit ≥ 6 * n + 1, m.runBounded (code n) limit out = report) ∧
      ∀ limit < 6 * n + 1, m.Exhausts (code n) out limit (m.runBounded (code n) limit out) ∧
        (m.runBounded (code n) limit out).result = .error (.stepLimitExceeded limit) := by
  intro m
  have hlt : n < 2 ^ 63 := by omega
  obtain ⟨es, hends⟩ :=
    (Program.iterates_halt_iff (p := m.program (code n) out)).mp (halts out hn hlt)
  have hruns : m.RunsTo (code n) out (6 * n + 1) .halted _ := Machine.runsTo_of_ends hends
  refine ⟨assemble_source hlt, _, hruns, ?_, ?_, fun limit hl => hruns.runBounded_eq hl,
    fun limit hl => ?_⟩
  · rw [Machine.ended_eq_reported]
    rfl
  · rw [Machine.ended_machine]
  · have hexhausts := hruns.exhausts hl
    exact ⟨hexhausts, hexhausts.result_eq⟩

/-- From three, as many instructions as the countdown takes and one less. -/
theorem halts_exactly_three :
    source 3 = "LOAD_CONST 3\nWRITE\nLOAD_CONST -1\nADD\nDUP\nJMPZ 7\nJMP 1\nEXIT" ∧
    (({} : Machine).runBounded (code 3) 19 .connected).result = .ok ⟨0, "321"⟩ ∧
    (({} : Machine).runBounded (code 3) 18 .connected).result =
      .error (.stepLimitExceeded 18) := by
  obtain ⟨-, report, -, hresult, -, henough, hless⟩ :=
    halts_exactly (n := 3) (by decide) (by decide) false .connected
  refine ⟨by decide, ?_, (hless 18 (by decide)).2⟩
  rw [henough 19 (by decide), hresult]
  decide

end Countdown

end StackMachine
