import StackMachine.CommandLine.Command

/-!
# Main

The command at work: the files it reads are those of the system, and what a run lets out is written
while it goes on, so that a program which never halts is heard too.  The run advances by slices; the
log of each is written and then forgotten.  A line that the stream does not take is lost, and the
run goes on without it.
-/

namespace StackMachine.Main

open CommandLine

/-- The number of a system error, which arrives negated from some calls. -/
def errorNumber (code : UInt32) : UInt32 := if code < 0x80000000 then code else 0 - code

/-- Why the system could not read a file. -/
def readError (e : IO.Error) : ReadError :=
  match e with
  | .noFileOrDirectory ..       => .notFound
  | .inappropriateType _ code _ =>
    if errorNumber code = 20 then .notDirectory else .isDirectory
  | .invalidArgument _ code _   =>
    if errorNumber code = 36 then .nameTooLong else .other (toString e)
  | _                           => .other (toString e)

/-- All bytes of a stream. -/
partial def readAll (input : IO.FS.Stream) (read : ByteArray) : IO ByteArray := do
  let chunk ← input.read 65536
  if chunk.isEmpty then return read else readAll input (read ++ chunk)

/-- The text of a program, a hyphen standing for standard input. -/
def readProgram (path : String) : IO (Except ReadError String) := do
  try
    let content ←
      if path = "-" then readAll (← IO.getStdin) .empty else IO.FS.readBinFile path
    return decode content
  catch e => return .error (readError e)

/-- The instructions executed between two writes. -/
def sliceSize : Nat := 4096

/-- Writes what a part of a run let out. -/
def writeLog (log : Log) : IO Unit := do
  let out ← IO.getStdout
  let err ← IO.getStderr
  for e in log do
    err.putStr e.stderr
    try out.putStr e.stdout catch _ => pure ()

/-- The report of a run that may still execute `limit` instructions of the `budget` it was given. -/
partial def finish (m : Machine) (p : Program) (budget limit : Option Nat) (r : Run) :
    IO Report := do
  writeLog r.log
  let r := { r with log := #[] }
  match r.stop, limit with
  | some stop, _     => return m.conclude r stop
  | none,     some 0 => return m.exhaust r (budget.getD 0)
  | none,     _      =>
    let size := (limit.getD sliceSize).min sliceSize
    finish m p budget (limit.map (· - size)) (p.advance size r)

/-- Does a task, and ends the command. -/
def perform (t : Task) : IO UInt32 := do
  let e ← match t with
    | .done e           => pure e
    | .run m code limit =>
      closing <$> finish m (m.program code .connected) limit limit (m.start code)
  (← IO.getStdout).putStr e.stdout
  (← IO.getStderr).putStr e.stderr
  return UInt32.ofNat e.code

end StackMachine.Main

/-- Runs the command with these arguments. -/
def main (arguments : List String) : IO UInt32 := do
  match StackMachine.CommandLine.Invocation.of arguments with
  | .error e     =>
    IO.eprintln (e.message ++ "\n\nUsage: stackvm [OPTIONS] <PROGRAM>\n\n"
      ++ "For more information, try '--help'.")
    return 2
  | .ok .help    =>
    IO.print StackMachine.CommandLine.usage
    return 0
  | .ok (.run o) =>
    StackMachine.Main.perform (.of o (← StackMachine.Main.readProgram o.program))
