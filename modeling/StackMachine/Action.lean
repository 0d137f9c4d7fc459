import StackMachine.Builtin
import StackMachine.Exec

/-!
# Action — the standard instructions

An action is what an opcode stands for: given the argument, a computation that says whether the run
goes on.  The counter has moved past the instruction before its action starts, so an action that
sets it decides what is fetched next.

Of the standard actions only `EXIT` halts.  A jump looks at its target before it looks at the stack,
and `DIV` at the divisor before it takes its operands off, so that each of them leaves the state as
it was if it faults.
-/

namespace StackMachine

/-- What an instruction does with its argument. -/
abbrev Action := Word → Exec Flow

/-- The word to be pushed for two operands, in the order in which they were pushed. -/
def Exec.combine (f : Word → Word → Word) : Exec Flow := do
  let (below, top) ← popPair
  push (f below top)
  return .next

/-- The action of a standard instruction. -/
def Builtin.action : Builtin → Action
  | .print, _ => do
    Exec.print (← Exec.top)
    return .next
  | .loadConst, value => do
    Exec.push value
    return .next
  | .exit, _ => do
    Exec.require (operands .exit)
    return .halt
  | .pop, _ => do
    let _ ← Exec.pop
    return .next
  | .add, _ => Exec.combine (· + ·)
  | .div, _ => do
    Exec.require (operands .div)
    if (← Exec.top) = 0 then Exec.raise .divisionByZero
    else Exec.combine (· / ·)
  | .eq, _  => Exec.combine fun below top => Word.ofBool (below == top)
  | .neq, _ => Exec.combine fun below top => Word.ofBool (below != top)
  | .dup, _ => do
    Exec.push (← Exec.top)
    return .next
  | .jmp, target => do
    Exec.jump target
    return .next
  | .jmpz, target => do
    let pc ← Exec.target target
    if (← Exec.pop) = 0 then Exec.setPc pc
    return .next
  | .write, _ => do
    Exec.writeWord (← Exec.top)
    return .next
  | .writeChar, _ => do
    Exec.writeChar (← Exec.top).lowChar
    return .next

end StackMachine
