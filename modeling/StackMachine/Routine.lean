import StackMachine.Action

/-!
# Routine — actions made of operations

A routine spells out the action of an instruction as a list of operations on the state.  The
operations of one call share two scratch words, which they set from what they take off the stack and
compute operands from.  A routine ends at its first fault, at its first halt, or after its last
operation; whatever was done before a fault stays done.
-/

namespace StackMachine

/-- The two words that the operations of one call share. -/
structure Scratch where
  a : Word := 0
  b : Word := 0
  deriving DecidableEq, Repr

/-- Where an operation takes a word from. -/
inductive Operand
  | word (value : Word)
  /-- The argument of the instruction. -/
  | argument
  | a
  | b
  /-- The program counter. -/
  | pc
  /-- The length of the code. -/
  | length
  /-- The number of words on the stack. -/
  | depth
  /-- `a + b` -/
  | sum
  /-- `a - b` -/
  | difference
  /-- `a * b` -/
  | product
  /-- `-a` -/
  | negation
  deriving DecidableEq, Repr

/-- The word an operand stands for. -/
def Operand.eval (argument : Word) (r : Scratch) (s : State) : Operand → Word
  | .word value => value
  | .argument   => argument
  | .a          => r.a
  | .b          => r.b
  | .pc         => .ofCount s.pc
  | .length     => .ofCount s.codeLength
  | .depth      => .ofCount s.depth
  | .sum        => r.a + r.b
  | .difference => r.a - r.b
  | .product    => r.a * r.b
  | .negation   => -r.a

/-- One thing that a routine can do. -/
inductive Operation
  | push (e : Operand)
  /-- Sets `a` to the word taken off. -/
  | pop
  /-- Sets `a` to the lower and `b` to the upper of the two words taken off. -/
  | popPair
  /-- Sets `a` to the top. -/
  | top
  | require (count : Nat)
  /-- Sets `a` to the place that the operand stands for. -/
  | target (e : Operand)
  | jump (e : Operand)
  | writeWord (e : Operand)
  | writeChar (c : Char)
  | reset
  | raise (fault : Fault)
  | halt
  /-- The action of a standard instruction. -/
  | builtin (b : Builtin) (e : Operand)
  deriving DecidableEq, Repr

/-- What an operation answers. -/
inductive Value
  | none
  | word (value : Word)
  | pair (lower upper : Word)
  | flow (f : Flow)
  deriving DecidableEq, Repr

/-- An answer, the scratch words after it, and whether the routine goes on. -/
structure Yield where
  value   : Value
  scratch : Scratch
  flow    : Flow := .next
  deriving DecidableEq, Repr

namespace Operation

/-- The word that an operand stands for at this point. -/
def operand (argument : Word) (r : Scratch) (e : Operand) : Exec Word := do
  return e.eval argument r (← Exec.get)

/-- One operation of a call with this argument. -/
def perform (argument : Word) (r : Scratch) : Operation → Exec Yield
  | .push e => do
    Exec.push (← operand argument r e)
    return ⟨.none, r, .next⟩
  | .pop => do
    let value ← Exec.pop
    return ⟨.word value, { r with a := value }, .next⟩
  | .popPair => do
    let (lower, upper) ← Exec.popPair
    return ⟨.pair lower upper, ⟨lower, upper⟩, .next⟩
  | .top => do
    let value ← Exec.top
    return ⟨.word value, { r with a := value }, .next⟩
  | .require count => do
    Exec.require count
    return ⟨.none, r, .next⟩
  | .target e => do
    let place := Word.ofCount (← Exec.target (← operand argument r e))
    return ⟨.word place, { r with a := place }, .next⟩
  | .jump e => do
    Exec.jump (← operand argument r e)
    return ⟨.none, r, .next⟩
  | .writeWord e => do
    Exec.writeWord (← operand argument r e)
    return ⟨.none, r, .next⟩
  | .writeChar c => do
    Exec.writeChar c
    return ⟨.none, r, .next⟩
  | .reset => do
    Exec.reset
    return ⟨.none, r, .next⟩
  | .raise fault => Exec.raise fault
  | .halt => return ⟨.none, r, .halt⟩
  | .builtin b e => do
    let flow ← b.action (← operand argument r e)
    return ⟨.flow flow, r, flow⟩

end Operation

/-- Operations in the order in which they are performed. -/
abbrev Routine := List Operation

namespace Routine

/-- The rest of a call, with the scratch words as they stand. -/
def run (argument : Word) : Scratch → Routine → Exec Flow
  | _, []        => return .next
  | r, op :: ops => do
    let y ← op.perform argument r
    match y.flow with
    | .next => run argument y.scratch ops
    | .halt => return .halt

/-- The action that performs the operations, from fresh scratch words on every call. -/
def action (ops : Routine) : Action := fun argument => run argument {} ops

end Routine

/-! ### A bench for single operations -/

/-- A state and scratch words on which operations are performed one by one; neither a fault nor a
halt ends the work. -/
structure Bench where
  state    : State := {}
  scratch  : Scratch := {}
  argument : Word := 0

/-- One operation: its answer or fault, what it printed, and the bench after it. -/
def Bench.perform (b : Bench) (out : Stdout) (op : Operation) :
    Except Fault Value × List Print × Bench :=
  match op.perform b.argument b.scratch out b.state with
  | ⟨.ok y, s, ps⟩    => (.ok y.value, ps, { b with state := s, scratch := y.scratch })
  | ⟨.error e, s, ps⟩ => (.error e, ps, { b with state := s })

end StackMachine
