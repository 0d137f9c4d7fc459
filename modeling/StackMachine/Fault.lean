import StackMachine.Instruction

/-!
# Fault

The ways in which the assembler, a run or a registration fails, and the text that reports each.
Nothing in the library recovers from a fault: it ends the call that raised it.
-/

namespace StackMachine

/-- What went wrong. -/
inductive Fault
  /-- Fewer words are on the stack than an instruction takes, or none is left at a halt. -/
  | stackUnderflow (required available : Nat)
  /-- The divisor is zero. -/
  | divisionByZero
  /-- A jump target, or the program counter itself, is no place in code of this length. -/
  | outOfBounds (target : Word) (length : Nat)
  /-- The first word of a line is not a mnemonic of the instruction set. -/
  | unknownInstruction (mnemonic : String) (line : Nat)
  /-- A line has too many words, or an argument that is no literal. -/
  | malformedInstruction (line : Nat) (text reason : String)
  /-- The instruction set has no action for an opcode. -/
  | unknownOpcode (opcode : Opcode) (pc : Nat)
  /-- The mnemonic is taken. -/
  | duplicateMnemonic (mnemonic : String)
  /-- No line of assembly could name such an instruction. -/
  | invalidMnemonic (mnemonic : String)
  /-- The instructions that a run was allowed are used up. -/
  | stepLimitExceeded (limit : Nat)
  deriving DecidableEq, Repr

/-- The report of a fault; names and source text stand in it as they are. -/
def Fault.message : Fault → String
  | .stackUnderflow required available =>
    "stack underflow: " ++ required.repr ++ " operand(s) required but " ++ available.repr
      ++ " present"
  | .divisionByZero => "division by zero"
  | .outOfBounds target length =>
    "program counter " ++ target.text ++ " out of bounds for code of length " ++ length.repr
  | .unknownInstruction mnemonic line =>
    "line " ++ line.repr ++ ": unknown instruction `" ++ mnemonic ++ "`"
  | .malformedInstruction line text reason =>
    "line " ++ line.repr ++ ": malformed instruction `" ++ text ++ "`: " ++ reason
  | .unknownOpcode opcode pc =>
    "no action bound to opcode " ++ opcode.toNat.repr ++ " at pc=" ++ pc.repr
  | .duplicateMnemonic mnemonic => "instruction `" ++ mnemonic ++ "` is already registered"
  | .invalidMnemonic mnemonic => "`" ++ mnemonic ++ "` is not a valid mnemonic"
  | .stepLimitExceeded limit => "step limit of " ++ limit.repr ++ " instruction(s) exceeded"

end StackMachine
