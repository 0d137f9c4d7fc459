import StackMachine.Fault

/-!
# Event

What the machine reports about its own working to whoever listens: each event has a level, a fixed
message and the fields of its constructor.
-/

namespace StackMachine

/-- How much attention an event asks for. -/
inductive Level
  | trace
  | debug
  | warn
  deriving DecidableEq, Repr

/-- Something worth a line in a log. -/
inductive Event
  /-- A mnemonic received its opcode. -/
  | registered (mnemonic : String) (opcode : Opcode)
  /-- A source became code of this many instructions. -/
  | assembled (instructions : Nat)
  /-- The instruction at `pc` has no mnemonic, so the run is not traced. -/
  | disassemblyFailed (pc : Nat) (opcode : Opcode)
  /-- A run of code of this length begins at `pc`. -/
  | runStarted (length pc : Nat)
  /-- The instruction at `pc` was fetched. -/
  | exec (pc : Nat) (opcode : Opcode) (argument : Word)
  /-- A line could not be printed. -/
  | printFailed
  /-- The action of the instruction at `pc` ended in a fault. -/
  | faulted (pc : Nat) (fault : Fault)
  /-- The run has used up its instructions. -/
  | stepLimitExceeded (limit : Nat)
  /-- The run halted with a value. -/
  | halted (value : Word) (steps : Nat)
  deriving DecidableEq, Repr

namespace Event

/-- Single instructions are traced; a line that is lost is a warning. -/
def level : Event → Level
  | .exec ..     => .trace
  | .printFailed => .warn
  | _            => .debug

/-- The text of the event, its fields left out. -/
def message : Event → String
  | .registered ..        => "instruction registered"
  | .assembled ..         => "assembled program"
  | .disassemblyFailed .. => "disassembly failed, tracing disabled"
  | .runStarted ..        => "run started"
  | .exec ..              => "exec"
  | .printFailed          => "PRINT could not write to stdout"
  | .faulted ..           => "instruction faulted"
  | .stepLimitExceeded .. => "step limit exceeded"
  | .halted ..            => "run halted"

end Event

end StackMachine
