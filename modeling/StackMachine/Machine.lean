import StackMachine.Assembly
import StackMachine.Run
import StackMachine.Text.Quoted

/-!
# Machine

An instruction set and a state that lasts from run to run, with a switch for debugging.  A run
starts where the counter stands and ends at the first halt or fault, or after as many instructions
as it is allowed; its result is the top of the stack and all output so far.  A budget is looked at
before each fetch, so a run that halts within it is not told from one without it.

While the switch is on, a run is traced: first the code is listed, then each instruction and the
stack after it.  Code that cannot be listed to its end is listed as far as it goes, and its run is
not traced.
-/

namespace StackMachine

/-- The standard machine unless other instructions are given. -/
structure Machine where
  instructions : InstructionSet := .standard
  state        : State := {}
  debug        : Bool := false

/-- What a run that halted leaves: the top of the stack, and the output. -/
structure Answer where
  value  : Word
  output : String
  deriving DecidableEq, Repr

/-- How a run ended, the machine after it, and what was let out. -/
structure Report where
  result  : Except Fault Answer
  machine : Machine
  log     : Log

namespace Machine

/-- One more instruction, and its opcode. -/
def register (m : Machine) (mnemonic : String) (action : Action) :
    Except Fault (Opcode × Machine) := do
  let (o, instructions) ← m.instructions.register mnemonic action
  return (o, { m with instructions })

/-- An empty stack, no output and the counter at zero. -/
def reset (m : Machine) : Machine := { m with state := m.state.reset }

/-- The counter at zero. -/
def rewind (m : Machine) : Machine := { m with state := m.state.rewind }

/-- The state of the machine as text: a line of figures, and the stack below it. -/
def text (m : Machine) : String :=
  "PC: " ++ m.state.pc.repr ++ "\tInstructions: " ++ m.instructions.size.repr ++ "\tOutput: "
    ++ Text.quoted m.state.output ++ "\n" ++ stackText m.state.stack

/-! ### Runs -/

/-- The code is listed as far as it goes before a run that is to be traced. -/
def preamble (m : Machine) (code : Code) : List Effect :=
  if m.debug then
    let listing := Listing.ofCode m.instructions code
    .trace (.preamble listing) :: match listing.unknown with
      | none         => []
      | some (pc, o) => [.event (.disassemblyFailed pc o)]
  else []

/-- The program that a run of the code executes; it is traced if all of it could be listed. -/
def program (m : Machine) (code : Code) (out : Stdout) : Program where
  instructions := m.instructions
  code         := code
  tracing      := m.debug && (Listing.ofCode m.instructions code).unknown.isNone
  out          := out

/-- A run of the code before its first instruction. -/
def start (m : Machine) (code : Code) : Run where
  state := { m.state with codeLength := code.size }
  log   := (m.preamble code ++ [Effect.event (.runStarted code.size m.state.pc)]).toArray

/-- The report of a run that came to its end.  A halt needs a word on the stack to report. -/
def conclude (m : Machine) (r : Run) : Stop → Report
  | .faulted e => ⟨.error e, { m with state := r.state }, r.log⟩
  | .halted    =>
    match r.state.stack with
    | []         => ⟨.error (.stackUnderflow 1 0), { m with state := r.state }, r.log⟩
    | value :: _ =>
      ⟨.ok ⟨value, r.state.output⟩, { m with state := r.state },
        r.log.push (.event (.halted value r.steps))⟩

/-- The report of a run that used up its instructions. -/
def exhaust (m : Machine) (r : Run) (limit : Nat) : Report :=
  ⟨.error (.stepLimitExceeded limit), { m with state := r.state },
    r.log.push (.event (.stepLimitExceeded limit))⟩

/-- A run of at most `limit` instructions. -/
def runBounded (m : Machine) (code : Code) (limit : Nat) (out : Stdout) : Report :=
  let r := (m.program code out).advance limit (m.start code)
  match r.stop with
  | some stop => m.conclude r stop
  | none      => m.exhaust r limit

/-- A run without a budget, if it ends within `fuel` instructions. -/
def run? (m : Machine) (code : Code) (fuel : Nat) (out : Stdout) : Option Report :=
  let r := (m.program code out).advance fuel (m.start code)
  r.stop.map (m.conclude r)

end Machine

end StackMachine
