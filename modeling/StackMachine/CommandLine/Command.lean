import StackMachine.CommandLine.Options
import StackMachine.CommandLine.Workspace
import StackMachine.Machine

/-!
# CommandLine — Command

What the command does.  It assembles a program and either lists it or runs it.  A run prints what
the program prints; then, if it halted, the output of the program and the exit value on a line of
its own, and otherwise the fault as an error, with the state of the machine if that is being
debugged.  The exit code is zero for success, one for a program that cannot be read, assembled or
run to a halt, and two for arguments that are refused.
-/

namespace StackMachine.CommandLine

/-- The end of a command that was not refused: its exit code, and what it wrote. -/
structure Exit where
  code   : Nat
  stdout : String := ""
  stderr : String := ""
  deriving DecidableEq, Repr

/-- The lines that answer a request for help. -/
def usageLines : List String :=
  ["Assemble and run a stack machine program",
   "",
   "Usage: stackvm [OPTIONS] <PROGRAM>",
   "",
   "Arguments:",
   "  <PROGRAM>  Program to run, one instruction per line. Use `-` to read stdin",
   "",
   "Options:",
   "      --debug          Print a disassembly and trace every executed instruction to stderr",
   "      --max-steps <N>  Fail instead of running more than this many instructions",
   "      --disassemble    Print the disassembly and exit without running",
   "  -h, --help           Print help"]

/-- The answer to a request for help. -/
def usage : String := String.join (usageLines.map (· ++ "\n"))

/-- What is left to do once the program has been read. -/
inductive Task
  | done (e : Exit)
  | run (m : Machine) (code : Code) (limit : Option Nat)

/-- The end of a command that fails before it runs anything. -/
def Exit.failure (reason : String) : Exit where
  code   := 1
  stderr := "error: " ++ reason ++ "\n"

/-- The end of a command that lists its code. -/
def Exit.listing (text : Option String) : Exit :=
  match text with
  | some text => { code := 0, stdout := text ++ "\n" }
  | none      => .failure "code references an unregistered opcode"

/-- The task that the options and the text of the program set. -/
def Task.of (o : Options) (text : Except ReadError String) : Task :=
  match text with
  | .error e    => .done (.failure ("could not read " ++ o.program ++ ": " ++ e.message))
  | .ok source  =>
    let m : Machine := { debug := o.debug }
    match m.instructions.assemble source with
    | .error fault => .done (.failure fault.message)
    | .ok code     =>
      if o.disassemble then .done (.listing (m.instructions.disassemble code))
      else .run m code o.maxSteps

/-- What follows the output of a program so that the next text starts a line. -/
def lineEnd (output : String) : String :=
  if output.toList.getLast?.all (· = '\n') then "" else "\n"

/-- What is written after a run, apart from what the run let out itself. -/
def closing (r : Report) : Exit :=
  match r.result with
  | .ok answer   =>
    { code   := 0
      stdout := answer.output ++ lineEnd answer.output ++ "exit value: " ++ answer.value.text
        ++ "\n" }
  | .error fault =>
    { code   := 1
      stderr := "error: " ++ fault.message ++ "\n"
        ++ if r.machine.debug then r.machine.text ++ "\n" else "" }

/-- The end of a command whose run is over. -/
def Exit.ofReport (r : Report) : Exit :=
  let e := closing r
  { e with stdout := r.log.stdout ++ e.stdout, stderr := r.log.stderr ++ e.stderr }

/-- The end of a task, if a run without a limit ends within `fuel` instructions. -/
def Task.exit? (fuel : Nat) : Task → Option Exit
  | .done e                   => some e
  | .run m code (some limit) => some (.ofReport (m.runBounded code limit .connected))
  | .run m code none         => (m.run? code fuel .connected).map .ofReport

/-- The end of a command, or the reason why its arguments are refused. -/
def execute (fuel : Nat) (w : Workspace) (arguments : List String) :
    Except UsageError (Option Exit) := do
  match ← Invocation.of arguments with
  | .help  => return some { code := 0, stdout := usage }
  | .run o => return (Task.of o (w.read o.program)).exit? fuel

end StackMachine.CommandLine
