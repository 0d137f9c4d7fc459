import StackMachine.Machine

/-!
# Session

A machine at work on one code after another.  A session answers each command, and a command that
faults does not end it; the code that is current stays so until another takes its place.
-/

namespace StackMachine

/-- A machine and the code that a run would execute. -/
structure Session where
  machine : Machine
  code    : Code := #[]

/-- What a session can be told to do. -/
inductive Command
  /-- Adds an instruction whose action is a routine. -/
  | register (mnemonic : String) (body : Routine)
  /-- Makes the code of a source the current one. -/
  | assemble (source : String)
  /-- Makes a code the current one. -/
  | load (code : Code)
  /-- Runs the current code, for at most `limit` instructions if there is a limit. -/
  | run (limit : Option Nat) (out : Stdout)
  | rewind
  | reset
  | setDebug (on : Bool)

/-- What a session answers to a command. -/
inductive Reply
  | done
  | opcode (o : Opcode)
  | code (c : Code)
  | answer (a : Answer)
  /-- A run without a limit did not end while the session waited for it. -/
  | unfinished

/-- The answer to a command, what was let out, and the session after it. -/
structure Response where
  result  : Except Fault Reply
  log     : Log
  session : Session

namespace Session

/-- The events of the registrations that made the machine. -/
def opening (s : Session) : Log := (s.machine.instructions.registrations.map .event).toArray

/-- The response that passes on the report of a run. -/
def reported (s : Session) (report : Report) : Response :=
  ⟨report.result.map .answer, report.log, { s with machine := report.machine }⟩

/-- One command; a run without a limit is waited for until it has executed `patience`
instructions, and is then given up with the machine as it was. -/
def perform (patience : Nat) (s : Session) : Command → Response
  | .register mnemonic body =>
    match s.machine.register mnemonic body.action with
    | .ok (o, machine) =>
      ⟨.ok (.opcode o), #[.event (.registered mnemonic o)], { s with machine }⟩
    | .error e => ⟨.error e, #[], s⟩
  | .assemble source =>
    match s.machine.instructions.assemble source with
    | .ok code => ⟨.ok (.code code), #[.event (.assembled code.size)], { s with code }⟩
    | .error e => ⟨.error e, #[], s⟩
  | .load code => ⟨.ok (.code code), #[], { s with code }⟩
  | .run (some limit) out => s.reported (s.machine.runBounded s.code limit out)
  | .run none out =>
    match s.machine.run? s.code patience out with
    | some report => s.reported report
    | none        => ⟨.ok .unfinished, #[], s⟩
  | .rewind      => ⟨.ok .done, #[], { s with machine := s.machine.rewind }⟩
  | .reset       => ⟨.ok .done, #[], { s with machine := s.machine.reset }⟩
  | .setDebug on => ⟨.ok .done, #[], { s with machine := { s.machine with debug := on } }⟩

/-- The listing of the current code, if the machine knows all of it. -/
def disassembly (s : Session) : Option String := s.machine.instructions.disassemble s.code

end Session

end StackMachine
