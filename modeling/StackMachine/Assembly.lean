import StackMachine.InstructionSet
import StackMachine.Text.Segment

/-!
# Assembly

Code as text: one instruction on a line, a mnemonic that may be followed by one space and a literal.
Lines are numbered from one as they stand in the source.  White space at the end of a line is
dropped, and a line that has nothing else is skipped.  A line is cut at every single space, so that
a leading space or two spaces in a row make an empty word.  The number of words is looked at first,
then the mnemonic, then the argument; the first line with something wrong decides the fault, and
there is no partial code.
-/

namespace StackMachine

/-- A line that holds an instruction: its number in the source, and its text up to the last
character that is not white space. -/
structure Line where
  number : Nat
  text   : String
  deriving DecidableEq, Repr

namespace Line

/-- The lines of a source that are not blank. -/
def ofSource (source : String) : List Line :=
  ((Text.split source '\n').zipIdx 1).filterMap fun (raw, n) =>
    let text := Text.trimEnd raw
    if text = "" then none else some ⟨n, text⟩

/-- Why a line with this many words after the mnemonic is malformed. -/
def tooManyArguments (found : Nat) : String :=
  "expected at most one argument but found " ++ found.repr

/-- Why a line with this argument is malformed. -/
def notAnInteger (argument : String) : String := "`" ++ argument ++ "` is not a 64 bit integer"

/-- The opcode that the first word of the line names. -/
def opcode (l : Line) (set : InstructionSet) (mnemonic : String) : Except Fault Opcode :=
  match set.opcode? mnemonic with
  | some o => .ok o
  | none   => .error (.unknownInstruction mnemonic l.number)

/-- The value of the second word of the line. -/
def argument (l : Line) (word : String) : Except Fault Word :=
  match Word.ofLiteral? word with
  | some w => .ok w
  | none   => .error (.malformedInstruction l.number l.text (notAnInteger word))

/-- The instruction on the line; its argument is zero if none is written.  Only a blank line has no
word at all, and it names the empty mnemonic. -/
def instruction (l : Line) (set : InstructionSet) : Except Fault Instruction :=
  match Text.split l.text ' ' with
  | []               => return ⟨← l.opcode set "", 0⟩
  | [mnemonic]       => return ⟨← l.opcode set mnemonic, 0⟩
  | [mnemonic, word] => return ⟨← l.opcode set mnemonic, ← l.argument word⟩
  | _ :: arguments   =>
    .error (.malformedInstruction l.number l.text (tooManyArguments arguments.length))

end Line

/-- The code of a source, or the fault of its first bad line. -/
def InstructionSet.assemble (set : InstructionSet) (source : String) : Except Fault Code := do
  let instructions ← (Line.ofSource source).mapM fun l => l.instruction set
  return instructions.toArray

end StackMachine
