import StackMachine.Text.ControlSequence

/-!
# CommandLine — Options

The arguments of the command: one program to run and a few options in any order.  Arguments are read
from left to right.  An option that takes a value, and the program itself, stay pending until the
next option, the next program or the end of the arguments settles them, so a value is looked at only
then; an argument that is refused at sight comes before a pending one that would be refused.  After
`--` every argument is a program.
-/

namespace StackMachine.CommandLine

/-! ### Step counts -/

/-- Why a text is no count of steps. -/
inductive CountError
  | empty
  | invalidDigit
  | tooLarge
  deriving DecidableEq, Repr

def CountError.message : CountError → String
  | .empty        => "cannot parse integer from empty string"
  | .invalidDigit => "invalid digit found in string"
  | .tooLarge     => "number too large to fit in target type"

/-- The count that starts with the digits of `n`; the first digit that is wrong, or that makes the
count exceed 64 bits, decides the error. -/
def countFrom (n : Nat) : List Char → Except CountError Nat
  | []      => .ok n
  | c :: cs =>
    if c.isDigit then
      let m := 10 * n + (c.toNat - '0'.toNat)
      if m < 2 ^ 64 then countFrom m cs else .error .tooLarge
    else .error .invalidDigit

/-- The count that a text stands for: digits, after a plus sign if there is one. -/
def count (s : String) : Except CountError Nat :=
  match s.toList with
  | []             => .error .empty
  | ['+']          => .error .invalidDigit
  | '+' :: digits  => countFrom 0 digits
  | digits         => countFrom 0 digits

/-! ### Usage errors -/

/-- What can be given on the command line besides a request for help. -/
inductive Parameter
  | debug
  | disassemble
  | maxSteps
  | program
  deriving DecidableEq, Repr

def Parameter.text : Parameter → String
  | .debug       => "--debug"
  | .disassemble => "--disassemble"
  | .maxSteps    => "--max-steps <N>"
  | .program     => "<PROGRAM>"

/-- Why the arguments are refused. -/
inductive UsageError
  /-- No program is given. -/
  | missingProgram
  /-- No option has this name, or a program is given already. -/
  | unexpectedArgument (argument : String)
  | missingValue (p : Parameter)
  | invalidCount (value : String) (reason : CountError)
  | repeated (p : Parameter)
  /-- A value is given to an option that takes none. -/
  | unexpectedValue (option value : String)
  deriving DecidableEq, Repr

namespace UsageError

/-- What is wrong with the arguments.  Arguments are quoted without their control sequences. -/
def message : UsageError → String
  | .missingProgram        =>
    "error: the following required arguments were not provided:\n  <PROGRAM>"
  | .unexpectedArgument a  =>
    "error: unexpected argument '" ++ Text.withoutControls a ++ "' found"
  | .missingValue p        =>
    "error: a value is required for '" ++ p.text ++ "' but none was supplied"
  | .invalidCount v reason =>
    "error: invalid value '" ++ Text.withoutControls v ++ "' for '" ++ Parameter.maxSteps.text
      ++ "': " ++ reason.message
  | .repeated p            =>
    "error: the argument '" ++ p.text ++ "' cannot be used multiple times"
  | .unexpectedValue opt v =>
    "error: unexpected value '" ++ Text.withoutControls v ++ "' for '" ++ opt
      ++ "' found; no more were expected"

/-- The first line of the message, without the carriage return of its line end. -/
def headline (e : UsageError) : String :=
  let line := e.message.toList.takeWhile (· ≠ '\n')
  .ofList <|
    if '\n' ∈ e.message.toList && line.getLast? = some '\r' then line.dropLast else line

end UsageError

/-! ### Reading arguments -/

/-- What the command is to do. -/
structure Options where
  program     : String
  debug       : Bool := false
  disassemble : Bool := false
  maxSteps    : Option Nat := none
  deriving DecidableEq, Repr

/-- Arguments that were accepted. -/
inductive Invocation
  | help
  | run (o : Options)
  deriving DecidableEq, Repr

/-- The form of an argument. -/
inductive Form
  /-- `--` -/
  | separator
  /-- `--name` or `--name=value` -/
  | long (name : String) (value : Option String)
  /-- A hyphen and a letter, whatever follows them. -/
  | short (letter : Char)
  /-- Anything else, a lone hyphen and the empty argument included. -/
  | plain
  deriving DecidableEq, Repr

/-- The name and the value of a long option, which the first equals sign separates. -/
def Form.ofLong (cs : List Char) : Form :=
  .long (.ofList (cs.takeWhile (· ≠ '='))) <|
    match cs.dropWhile (· ≠ '=') with
    | []         => none
    | _ :: value => some (.ofList value)

def Form.of (argument : String) : Form :=
  match argument.toList with
  | ['-', '-']      => .separator
  | '-' :: '-' :: r => .ofLong r
  | '-' :: c :: _   => .short c
  | _               => .plain

/-- What was met last and is still to be settled. -/
inductive Pending
  | nothing
  | maxSteps (value : Option String)
  | program (path : String)
  deriving DecidableEq, Repr

/-- What the arguments so far amount to. -/
structure Draft where
  program     : Option String := none
  debug       : Bool := false
  disassemble : Bool := false
  maxSteps    : Option Nat := none
  pending     : Pending := .nothing
  /-- Whether `--` was met. -/
  separated   : Bool := false
  deriving DecidableEq, Repr

namespace Draft

/-- The draft with a limit on the steps. -/
def limit (d : Draft) (value : String) : Except UsageError Draft :=
  if d.maxSteps.isSome then .error (.repeated .maxSteps)
  else match count value with
    | .ok n         => .ok { d with maxSteps := some n }
    | .error reason => .error (.invalidCount value reason)

/-- The draft with nothing pending. -/
def settle (d : Draft) : Except UsageError Draft :=
  let settled := { d with pending := .nothing }
  match d.pending with
  | .nothing               => .ok settled
  | .maxSteps none         => .error (.missingValue .maxSteps)
  | .maxSteps (some value) => settled.limit value
  | .program ""            => .error (.missingValue .program)
  | .program path          => .ok { settled with program := some path }

/-- A program is given, be it pending or settled. -/
def hasProgram (d : Draft) : Bool :=
  match d.pending with
  | .program _ => true
  | _          => d.program.isSome

/-- The draft with a program to run. -/
def addProgram (d : Draft) (path : String) : Except UsageError Draft :=
  if d.hasProgram then .error (.unexpectedArgument path)
  else return { ← d.settle with pending := .program path }

/-- The draft with the debug option. -/
def addDebug (d : Draft) : Except UsageError Draft := do
  let d ← d.settle
  if d.debug then .error (.repeated .debug) else return { d with debug := true }

/-- The draft with the disassemble option. -/
def addDisassemble (d : Draft) : Except UsageError Draft := do
  let d ← d.settle
  if d.disassemble then .error (.repeated .disassemble) else return { d with disassemble := true }

/-- The draft with a limit, given with the option or to come as the next argument. -/
def addMaxSteps (d : Draft) (value : Option String) : Except UsageError Draft := do
  let d ← d.settle
  match value with
  | some v => d.limit v
  | none   => return { d with pending := .maxSteps none }

/-- The draft with an argument that is no option: a value that is waited for, or a program. -/
def addPlain (d : Draft) (argument : String) : Except UsageError Draft :=
  match d.pending with
  | .maxSteps none => .ok { d with pending := .maxSteps (some argument) }
  | _              => d.addProgram argument

/-- The options of a complete draft. -/
def options (d : Draft) : Except UsageError Options := do
  let d ← d.settle
  match d.program with
  | some program => return { d with program }
  | none         => .error .missingProgram

/-- The rest of the arguments. -/
def read : Draft → List String → Except UsageError Invocation
  | d, []               => return .run (← d.options)
  | d, argument :: rest =>
    if d.separated then do read (← d.addProgram argument) rest
    else match Form.of argument with
      | .separator              => read { d with separated := true } rest
      | .plain                  => do read (← d.addPlain argument) rest
      | .short 'h'              => do let _ ← d.settle; return .help
      | .short c                => .error (.unexpectedArgument (.ofList ['-', c]))
      | .long "help" none       => do let _ ← d.settle; return .help
      | .long "debug" none      => do read (← d.addDebug) rest
      | .long "disassemble" none => do read (← d.addDisassemble) rest
      | .long "max-steps" value => do read (← d.addMaxSteps value) rest
      | .long name value        =>
        match value with
        | some v =>
          if name ∈ ["help", "debug", "disassemble"] then
            .error (.unexpectedValue ("--" ++ name) v)
          else .error (.unexpectedArgument ("--" ++ name))
        | none   => .error (.unexpectedArgument ("--" ++ name))

end Draft

/-- The meaning of the arguments. -/
def Invocation.of (arguments : List String) : Except UsageError Invocation :=
  Draft.read {} arguments

end StackMachine.CommandLine
