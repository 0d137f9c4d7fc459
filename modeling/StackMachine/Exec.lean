import StackMachine.Fault
import StackMachine.State

/-!
# Exec

Computations on a `State` that may fault and may print.  A fault does not undo what was done before
it: the state and the printed lines up to it are kept.  The operations below are what instructions
are made of; each checks all it needs before it changes anything, so that on a fault it leaves the
state as it was.  Printing to a stream that nobody reads is no fault.
-/

namespace StackMachine

/-- The stream that printed lines go to: it takes them, or its reader is gone. -/
inductive Stdout
  | connected
  | closed
  deriving DecidableEq, Repr

/-- What became of one attempt to print. -/
inductive Print
  /-- The word stands on a line of its own. -/
  | line (value : Word)
  /-- The stream did not take the line. -/
  | failed
  deriving DecidableEq, Repr

/-- How a computation ended, the state it left, and what it emitted on the way. -/
structure Outcome (ε α : Type) where
  result  : Except Fault α
  state   : State
  emitted : List ε

/-- A computation on a state, given the stream that it prints to. -/
def Exec (α : Type) : Type := Stdout → State → Outcome Print α

namespace Exec

variable {α β : Type}

/-- The value, with nothing changed. -/
protected def pure (a : α) : Exec α := fun _ s => ⟨.ok a, s, []⟩

/-- The second computation continues the first, unless that faulted. -/
protected def bind (x : Exec α) (f : α → Exec β) : Exec β := fun out s =>
  match x out s with
  | ⟨.ok a, s, ps⟩    =>
    let ⟨r, s, qs⟩ := f a out s
    ⟨r, s, ps ++ qs⟩
  | ⟨.error e, s, ps⟩ => ⟨.error e, s, ps⟩

instance : Monad Exec where
  pure := Exec.pure
  bind := Exec.bind

/-- The state as it is. -/
def get : Exec State := fun _ s => ⟨.ok s, s, []⟩

/-- A change of the state. -/
def modify (f : State → State) : Exec Unit := fun _ s => ⟨.ok (), f s, []⟩

/-- A fault. -/
def raise (e : Fault) : Exec α := fun _ s => ⟨.error e, s, []⟩

/-! ### The stack -/

/-- The list has at least `n` elements; no more than these are looked at. -/
def hasDepth : Nat → List Word → Bool
  | 0,     _      => true
  | _ + 1, []     => false
  | n + 1, _ :: s => hasDepth n s

theorem hasDepth_iff {n : Nat} {s : List Word} : hasDepth n s = true ↔ n ≤ s.length := by
  induction n generalizing s with
  | zero => simp [hasDepth]
  | succ n ih =>
    cases s with
    | nil => simp [hasDepth]
    | cons w s => simp [hasDepth, ih]

/-- At least `n` words are on the stack. -/
def require (n : Nat) : Exec Unit := do
  let s ← get
  if hasDepth n s.stack then pure () else raise (.stackUnderflow n s.depth)

/-- A word on top. -/
def push (w : Word) : Exec Unit := modify fun s => { s with stack := w :: s.stack }

/-- The top, taken off. -/
def pop : Exec Word := do
  match (← get).stack with
  | []        => raise (.stackUnderflow 1 0)
  | w :: rest => do
    modify fun s => { s with stack := rest }
    return w

/-- The two topmost words, taken off: the lower one first, as they were pushed. -/
def popPair : Exec (Word × Word) := do
  require 2
  let top ← pop
  let below ← pop
  return (below, top)

/-- The top, left in place. -/
def top : Exec Word := do
  match (← get).stack with
  | []     => raise (.stackUnderflow 1 0)
  | w :: _ => return w

/-! ### The program counter -/

/-- The place in the code that a word stands for. -/
def target (w : Word) : Exec Nat := do
  let s ← get
  if 0 ≤ w.toInt ∧ w.toInt < s.codeLength then return w.toInt.toNat
  else raise (.outOfBounds w s.codeLength)

/-- The counter at another place. -/
def setPc (pc : Nat) : Exec Unit := modify fun s => { s with pc }

/-- The counter at the place that a word stands for. -/
def jump (w : Word) : Exec Unit := do setPc (← target w)

/-! ### The output -/

/-- The decimal text of a word, after the output. -/
def writeWord (w : Word) : Exec Unit := modify fun s => { s with output := s.output ++ w.text }

/-- A character after the output. -/
def writeChar (c : Char) : Exec Unit := modify fun s => { s with output := s.output.push c }

/-- An empty stack, no output and the counter at zero. -/
def reset : Exec Unit := modify State.reset

/-- An attempt to print a word on a line of its own. -/
def print (w : Word) : Exec Unit := fun out s =>
  match out with
  | .connected => ⟨.ok (), s, [.line w]⟩
  | .closed    => ⟨.ok (), s, [.failed]⟩

end Exec

end StackMachine
