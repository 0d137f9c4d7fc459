import StackMachine.Event
import StackMachine.Exec
import StackMachine.Listing
import StackMachine.StackTable

/-!
# Log

All that a machine lets out while it works, in one order: lines it prints, the trace of a run that
is being debugged, and events.  What reaches standard output, what reaches standard error and what
a subscriber to the events sees are three projections of one log.
-/

namespace StackMachine

/-- A part of the trace of a run. -/
inductive Trace
  /-- The code that is about to run. -/
  | preamble (listing : Listing)
  /-- The instruction that was fetched. -/
  | exec (mnemonic : String) (argument : Word) (pc : Nat)
  /-- The stack after an instruction, its top first. -/
  | stack (words : List Word)
  deriving DecidableEq, Repr

/-- The trace as it is written; an empty line follows every table. -/
def Trace.text : Trace → String
  | .preamble listing =>
    "=== running vm ======================\ndisassembly of run code:\n" ++ listing.text ++ "\n"
      ++ (match listing.unknown with
          | none         => ""
          | some (pc, o) =>
            "could not disassemble - opcode " ++ o.toNat.repr ++ " at pc=" ++ pc.repr
              ++ " unknown...\nturning off debug mode.\n")
      ++ "=== end of disassembly\n\n"
  | .exec mnemonic argument pc =>
    "-- exec " ++ mnemonic ++ " arg=" ++ argument.text ++ " at pc=" ++ pc.repr ++ "\n"
  | .stack words => stackText words ++ "\n"

/-- One thing let out. -/
inductive Effect
  | print (p : Print)
  | trace (t : Trace)
  | event (e : Event)
  deriving DecidableEq, Repr

namespace Effect

/-- The part that reaches standard output. -/
def stdout : Effect → String
  | .print (.line value) => value.text ++ "\n"
  | _                    => ""

/-- The part that reaches standard error. -/
def stderr : Effect → String
  | .trace t => t.text
  | _        => ""

/-- The event that is reported; a line that could not be printed is one. -/
def event? : Effect → Option Event
  | .print .failed => some .printFailed
  | .event e       => some e
  | _              => none

end Effect

/-- Effects in the order in which they were let out. -/
abbrev Log := Array Effect

namespace Log

/-- The text on standard output. -/
def stdout (log : Log) : String := String.join (log.toList.map Effect.stdout)

/-- The text on standard error. -/
def stderr (log : Log) : String := String.join (log.toList.map Effect.stderr)

/-- The events reported. -/
def events (log : Log) : List Event := log.toList.filterMap Effect.event?

end Log

end StackMachine
