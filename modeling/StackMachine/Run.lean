import StackMachine.Log

/-!
# Run

Code being executed.  One step fetches the instruction at the program counter, moves the counter
past it and performs its action; a run advances by steps until an action halts, something faults, or
the caller has had enough.  Nothing but the state goes from one step to the next, so a run that was
left after some steps can be taken up again: `Program.advance_add` says that advancing in two parts
is advancing once.
-/

namespace StackMachine

/-- Code with the instructions it is written in, whether its run is traced, and the stream that it
prints to. -/
structure Program where
  instructions : InstructionSet
  code         : Code
  tracing      : Bool := false
  out          : Stdout := .connected

/-- How a run came to its end. -/
inductive Stop
  | halted
  | faulted (fault : Fault)
  deriving DecidableEq, Repr

/-- A run so far: the instructions completed, the state, all that was let out, and the end once it
is reached. -/
structure Run where
  steps : Nat := 0
  state : State
  log   : Log := #[]
  stop  : Option Stop := none

namespace Program

/-- What is let out when an instruction has been fetched. -/
def fetched (p : Program) (pc : Nat) (i : Instruction) : List Effect :=
  let event := .event (.exec pc i.opcode i.argument)
  if p.tracing then
    let name := (p.instructions.mnemonic? i.opcode).getD i.text
    [.trace (.exec name i.argument pc), event]
  else [event]

/-- What is let out when an action has completed and left this state. -/
def completed (p : Program) (s : State) : List Effect :=
  if p.tracing then [.trace (.stack s.stack)] else []

/-- One instruction: fetch it, move the counter past it, perform its action. -/
def step (p : Program) (s : State) : Outcome Effect Flow :=
  match p.code[s.pc]? with
  | none   => ⟨.error (.outOfBounds (.ofCount s.pc) p.code.size), s, []⟩
  | some i =>
    let moved := { s with pc := s.pc + 1 }
    match p.instructions.action? i.opcode with
    | none        => ⟨.error (.unknownOpcode i.opcode s.pc), moved, p.fetched s.pc i⟩
    | some action =>
      match action i.argument p.out moved with
      | ⟨.ok flow, t, ps⟩ =>
        ⟨.ok flow, t, p.fetched s.pc i ++ ps.map .print ++ p.completed t⟩
      | ⟨.error e, t, ps⟩ =>
        ⟨.error e, t, p.fetched s.pc i ++ ps.map .print ++ [.event (.faulted s.pc e)]⟩

/-- The run after one more step. -/
def next (p : Program) (r : Run) : Run :=
  let ⟨steps, s, log, _⟩ := r
  match p.step s with
  | ⟨.ok .next, s, es⟩ => ⟨steps + 1, s, log ++ es, none⟩
  | ⟨.ok .halt, s, es⟩ => ⟨steps + 1, s, log ++ es, some .halted⟩
  | ⟨.error e, s, es⟩  => ⟨steps, s, log ++ es, some (.faulted e)⟩

/-- The run after at most `n` more steps; one that has come to its end stays as it is. -/
def advance (p : Program) : Nat → Run → Run
  | 0,     r => r
  | n + 1, r => if r.stop.isSome then r else p.advance n (p.next r)

theorem advance_of_stop (p : Program) {r : Run} (h : r.stop.isSome = true) (n : Nat) :
    p.advance n r = r := by
  cases n with
  | zero => rfl
  | succ n => rw [advance, if_pos h]

/-- A run may be left and taken up again. -/
theorem advance_add (p : Program) (m n : Nat) (r : Run) :
    p.advance (m + n) r = p.advance n (p.advance m r) := by
  induction m generalizing r with
  | zero => rw [Nat.zero_add, advance]
  | succ m ih =>
    by_cases h : r.stop.isSome = true
    · rw [p.advance_of_stop h, p.advance_of_stop h, p.advance_of_stop h]
    · rw [Nat.succ_add, advance, if_neg h, ih, advance, if_neg h]

end Program

end StackMachine
