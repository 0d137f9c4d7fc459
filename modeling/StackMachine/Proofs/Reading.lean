import StackMachine.Assembly

/-!
# Proofs — Reading

How a line is read.  Of the set a line asks for one thing, the opcode of its first word; how many
words there are, and what the second is worth, is the same for every set (`Line.words`).
`l.Reads set r`: in the order in which these are looked at, the set makes `r` of the line, and
`Line.instruction_eq_iff` says that this is what the assembler makes of it.
-/

namespace StackMachine

namespace Line

variable {set : InstructionSet} {l : Line}

/-- The first word of the line, and the value of the second if it can be read; no set is needed to
say either. -/
def words (l : Line) : Except Fault (String × Except Fault Word) :=
  match Text.split l.text ' ' with
  | []               => .ok ("", .ok 0)
  | [mnemonic]       => .ok (mnemonic, .ok 0)
  | [mnemonic, word] => .ok (mnemonic, l.argument word)
  | _ :: arguments   =>
    .error (.malformedInstruction l.number l.text (tooManyArguments arguments.length))

theorem instruction_eq (l : Line) (set : InstructionSet) :
    l.instruction set = l.words >>= fun p => l.opcode set p.1 >>= fun o => p.2.map (⟨o, ·⟩) := by
  rw [instruction, words]
  rcases Text.split l.text ' ' with _ | ⟨m, _ | ⟨word, _ | ⟨_, _⟩⟩⟩
  · rfl
  · rfl
  · cases l.argument word <;> rfl
  · rfl

/-- What a set makes of a line, in the order in which things are looked at: the number of words, the
opcode of the first, and the value of the second. -/
inductive Reads (l : Line) (set : InstructionSet) : Except Fault Instruction → Prop where
  | malformed {f : Fault} (h : l.words = .error f) : Reads l set (.error f)
  | unknown {m : String} {a : Except Fault Word} (h : l.words = .ok (m, a))
      (ho : set.opcode? m = none) : Reads l set (.error (.unknownInstruction m l.number))
  | argument {m : String} {f : Fault} {o : Opcode} (h : l.words = .ok (m, .error f))
      (ho : set.opcode? m = some o) : Reads l set (.error f)
  | instruction {m : String} {w : Word} {o : Opcode} (h : l.words = .ok (m, .ok w))
      (ho : set.opcode? m = some o) : Reads l set (.ok ⟨o, w⟩)

/-- **What a line asks of a set is one opcode.** -/
theorem instruction_eq_iff {r : Except Fault Instruction} :
    l.instruction set = r ↔ l.Reads set r := by
  rw [instruction_eq]
  constructor
  · rintro rfl
    rcases hw : l.words with f | ⟨m, a⟩
    · exact .malformed hw
    · simp only [bind, Except.bind, opcode]
      cases ho : set.opcode? m with
      | none => exact .unknown hw ho
      | some o =>
          cases a with
          | error f => exact .argument hw ho
          | ok w => exact .instruction hw ho
  · intro h
    cases h with
    | malformed h =>
        rw [h]
        rfl
    | unknown h ho | argument h ho | instruction h ho =>
        simp only [h, opcode, ho, bind, Except.bind, Except.map]

/-- **What stands on a line is read alike in another place**: the number is for the faults alone. -/
theorem instruction_renumbered {n : Nat} {g : Fault → Fault}
    (hu : ∀ m, g (.unknownInstruction m l.number) = .unknownInstruction m n)
    (hm : ∀ t r, g (.malformedInstruction l.number t r) = .malformedInstruction n t r) :
    instruction { l with number := n } set = (l.instruction set).mapError g := by
  have hopcode : ∀ m, opcode { l with number := n } set m = (l.opcode set m).mapError g := by
    intro m
    rw [opcode, opcode]
    cases set.opcode? m with
    | none => exact congrArg _ (hu m).symm
    | some o => rfl
  have hargument : ∀ w, argument { l with number := n } w = (l.argument w).mapError g := by
    intro w
    rw [argument, argument]
    cases Word.ofLiteral? w with
    | none => exact congrArg _ (hm _ _).symm
    | some v => rfl
  rw [instruction, instruction]
  dsimp only
  rcases Text.split l.text ' ' with _ | ⟨m, _ | ⟨w, _ | ⟨_, _⟩⟩⟩
  · simp only [hopcode]
    cases l.opcode set "" <;> rfl
  · simp only [hopcode]
    cases l.opcode set m <;> rfl
  · simp only [hopcode, hargument]
    cases l.opcode set m <;> cases l.argument w <;> rfl
  · exact congrArg _ (hm _ _).symm

/-- No mnemonic is reported of a line that has too many words. -/
theorem words_ne_unknown (m : String) (n : Nat) : l.words ≠ .error (.unknownInstruction m n) := by
  rw [words]
  split <;> nofun

/-- Nor is one where an argument is. -/
theorem words_ne_ok_unknown (k m : String) (n : Nat) :
    l.words ≠ .ok (k, .error (.unknownInstruction m n)) := by
  intro h
  rw [words] at h
  split at h <;> simp only [Except.ok.injEq, Prod.mk.injEq, reduceCtorEq, and_false] at h
  rw [argument] at h
  split at h
  · cases h.2
  · cases h.2

/-- The opcode of what a line stands for is one that the set gives out. -/
theorem exists_opcode?_of_instruction {i : Instruction} (h : l.instruction set = .ok i) :
    ∃ m, set.opcode? m = some i.opcode := by
  cases instruction_eq_iff.mp h with
  | instruction _ ho => exact ⟨_, ho⟩

/-- A mnemonic is reported as unknown only if it is. -/
theorem opcode?_eq_none_of_instruction {m : String} {n : Nat}
    (h : l.instruction set = .error (.unknownInstruction m n)) : set.opcode? m = none := by
  cases instruction_eq_iff.mp h with
  | malformed hw => exact absurd hw (words_ne_unknown m n)
  | unknown _ ho => exact ho
  | argument hw _ => exact absurd hw (words_ne_ok_unknown _ m n)

end Line

end StackMachine
