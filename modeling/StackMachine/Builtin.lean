/-!
# Builtin

The thirteen instructions of the standard set, by name: their mnemonics, and how many operands each
needs on the stack.
-/

namespace StackMachine

/-- An instruction of the standard set. -/
inductive Builtin
  | print
  | loadConst
  | exit
  | pop
  | add
  | div
  | eq
  | neq
  | dup
  | jmp
  | jmpz
  | write
  | writeChar
  deriving DecidableEq, Repr

namespace Builtin

/-- Every instruction once, in the order of their opcodes. -/
def all : List Builtin :=
  [.print, .loadConst, .exit, .pop, .add, .div, .eq, .neq, .dup, .jmp, .jmpz, .write, .writeChar]

/-- The name in assembly. -/
def mnemonic : Builtin → String
  | .print     => "PRINT"
  | .loadConst => "LOAD_CONST"
  | .exit      => "EXIT"
  | .pop       => "POP"
  | .add       => "ADD"
  | .div       => "DIV"
  | .eq        => "EQ"
  | .neq       => "NEQ"
  | .dup       => "DUP"
  | .jmp       => "JMP"
  | .jmpz      => "JMPZ"
  | .write     => "WRITE"
  | .writeChar => "WRITE_CHAR"

/-- The number of words that must be on the stack. -/
def operands : Builtin → Nat
  | .loadConst | .jmp         => 0
  | .add | .div | .eq | .neq => 2
  | _                         => 1

/-- The instruction of a mnemonic, which has to match exactly. -/
def ofMnemonic? (s : String) : Option Builtin := all.find? fun b => b.mnemonic == s

theorem mem_all (b : Builtin) : b ∈ all := by cases b <;> decide

theorem mnemonic_injective {b c : Builtin} (h : b.mnemonic = c.mnemonic) : b = c := by
  revert h
  cases b <;> cases c <;> decide

theorem ofMnemonic?_eq_some_iff {s : String} {b : Builtin} :
    ofMnemonic? s = some b ↔ b.mnemonic = s := by
  constructor
  · intro h
    simpa using List.find?_some h
  · rintro rfl
    cases b <;> rfl

end Builtin

end StackMachine
