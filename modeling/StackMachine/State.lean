import StackMachine.Word

/-!
# State

What a run works on: the stack, the program counter, the length of the code being run, and the text
written so far.
-/

namespace StackMachine

/-- The stack has its top first. -/
structure State where
  stack      : List Word := []
  pc         : Nat := 0
  codeLength : Nat := 0
  output     : String := ""
  deriving DecidableEq, Repr

namespace State

/-- The number of words on the stack. -/
def depth (s : State) : Nat := s.stack.length

/-- An empty stack, no output and the counter at zero; the code keeps its length. -/
def reset (s : State) : State := { codeLength := s.codeLength }

/-- The counter at zero, and all else as it is. -/
def rewind (s : State) : State := { s with pc := 0 }

end State

end StackMachine
