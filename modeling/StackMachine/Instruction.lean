import StackMachine.Word

/-!
# Instruction

What the machine executes: an opcode, which a set of instructions gives a meaning to, and a word as
its argument.  Code is an array of instructions, and a place in it is an index from zero.
-/

namespace StackMachine

/-- The number that stands for an instruction in code. -/
abbrev Opcode := UInt32

/-- An opcode with its argument; instructions that take no argument ignore it. -/
structure Instruction where
  opcode   : Opcode
  argument : Word
  deriving DecidableEq, Repr

/-- `#o(a)`, the text of an instruction that stands outside any instruction set. -/
def Instruction.text (i : Instruction) : String :=
  "#" ++ i.opcode.toNat.repr ++ "(" ++ i.argument.text ++ ")"

/-- Instructions in the order of their places. -/
abbrev Code := Array Instruction

/-- Whether a run goes on after an instruction. -/
inductive Flow
  | next
  | halt
  deriving DecidableEq, Repr

end StackMachine
