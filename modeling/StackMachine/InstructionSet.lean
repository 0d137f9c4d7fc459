import StackMachine.Event
import StackMachine.Routine
import StackMachine.Text.Blank

/-!
# InstructionSet

The instructions that a machine knows.  Each has a mnemonic, by which assembly names it, an opcode,
by which code refers to it, and an action.  Opcodes are handed out from zero in the order of
registration, so an opcode is an index into the list of entries.  A set only grows: no instruction
is ever removed, and no mnemonic is given twice.
-/

namespace StackMachine

/-- A mnemonic is a word of a line: it is not empty and has no white space in it. -/
def IsMnemonic (s : String) : Prop := s ≠ "" ∧ ∀ c ∈ s.toList, Text.isBlank c = false

instance (s : String) : Decidable (IsMnemonic s) :=
  have := List.decidableBAll (fun c => Text.isBlank c = false) s.toList
  inferInstanceAs (Decidable (_ ∧ _))

/-- A mnemonic and the action it stands for. -/
structure Entry where
  mnemonic : String
  action   : Action

/-- The entries in the order of their opcodes. -/
structure InstructionSet where
  entries : Array Entry

namespace InstructionSet

/-- No instructions. -/
def empty : InstructionSet := ⟨#[]⟩

/-- The standard instructions. -/
def standard : InstructionSet := ⟨(Builtin.all.map fun b => ⟨b.mnemonic, b.action⟩).toArray⟩

/-- The number of instructions. -/
def size (set : InstructionSet) : Nat := set.entries.size

/-- The entry of an opcode. -/
def entry? (set : InstructionSet) (o : Opcode) : Option Entry := set.entries[o.toNat]?

/-- The opcode of a mnemonic. -/
def opcode? (set : InstructionSet) (mnemonic : String) : Option Opcode :=
  (set.entries.findIdx? fun e => e.mnemonic == mnemonic).map UInt32.ofNat

/-- The mnemonic of an opcode. -/
def mnemonic? (set : InstructionSet) (o : Opcode) : Option String :=
  (set.entry? o).map Entry.mnemonic

/-- The action of an opcode. -/
def action? (set : InstructionSet) (o : Opcode) : Option Action := (set.entry? o).map Entry.action

/-- The mnemonics with their opcodes, in the order of the opcodes. -/
def toList (set : InstructionSet) : List (Opcode × String) :=
  set.entries.toList.zipIdx.map fun (e, i) => (UInt32.ofNat i, e.mnemonic)

/-- A new instruction, and the opcode it received: the least one that was free.  An unusable
mnemonic is refused before a taken one. -/
def register (set : InstructionSet) (mnemonic : String) (action : Action) :
    Except Fault (Opcode × InstructionSet) :=
  if ¬ IsMnemonic mnemonic then .error (.invalidMnemonic mnemonic)
  else if (set.opcode? mnemonic).isSome then .error (.duplicateMnemonic mnemonic)
  else .ok (UInt32.ofNat set.size, ⟨set.entries.push ⟨mnemonic, action⟩⟩)

/-- The event of each registration that made the set. -/
def registrations (set : InstructionSet) : List Event :=
  set.toList.map fun (o, m) => .registered m o

end InstructionSet

end StackMachine
