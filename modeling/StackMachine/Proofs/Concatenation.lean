import StackMachine.Proofs.Diagnosis

/-!
# Proofs — Concatenation

Sources that are put together with a line break between them.  The code is the code of the first and
then that of the second.  What is wrong with the first is reported as before; what is wrong with the
second is reported of a line so much further down, by the line breaks of the first and the one
between (`InstructionSet.assemble_append_break`).

The lines of such a source are those of the first and those of the second, counted on
(`Line.ofSource_append_break`), and a line that stands further down is read alike, but for the
number in its faults (`Line.instruction_below`).
-/

namespace StackMachine

/-- The fault of a line, as of one so many lines further down. -/
def Fault.below (count : Nat) : Fault → Fault
  | .unknownInstruction mnemonic line => .unknownInstruction mnemonic (line + count)
  | .malformedInstruction line text reason => .malformedInstruction (line + count) text reason
  | f => f

/-- A traversal whose steps report their faults otherwise does so too. -/
theorem mapM_mapError {α β ε ε' : Type} (f : α → Except ε β) (g : ε → ε') (xs : List α) :
    xs.mapM (fun x => (f x).mapError g) = (xs.mapM f).mapError g := by
  induction xs with
  | nil => rfl
  | cons x xs ih =>
      rw [List.mapM_cons, List.mapM_cons, ih]
      cases f x with
      | error e => rfl
      | ok y => cases xs.mapM f <;> rfl

namespace Line

variable {set : InstructionSet} {l : Line}

theorem instruction_below (l : Line) (count : Nat) :
    (l.below count).instruction set = (l.instruction set).mapError (.below count) :=
  instruction_renumbered (fun _ => rfl) fun _ _ => rfl

end Line

namespace InstructionSet

variable {set : InstructionSet}

/-- **Assembly takes concatenation to concatenation.** -/
theorem assemble_append_break (set : InstructionSet) (first second : String) :
    set.assemble (first ++ "\n" ++ second) = (do
      let c ← set.assemble first
      let d ← (set.assemble second).mapError (.below (first.toList.count '\n' + 1))
      return c ++ d) := by
  have hbelow : ∀ count, (fun l : Line => (l.below count).instruction set) =
      fun l => (l.instruction set).mapError (.below count) :=
    fun count => funext fun l => l.instruction_below count
  rw [assemble, assemble, assemble, Line.ofSource_append_break, List.mapM_append, List.mapM_map,
    Function.comp_def, hbelow, mapM_mapError]
  cases (Line.ofSource first).mapM fun l => l.instruction set <;>
    cases (Line.ofSource second).mapM fun l => l.instruction set <;>
    simp [bind, Except.bind, pure, Except.pure, Except.mapError]

/-- What the assembler reports is of some line. -/
theorem assemble_error_cases {source : String} {f : Fault} (h : set.assemble source = .error f) :
    (∃ m n, f = .unknownInstruction m n) ∨ ∃ n t r, f = .malformedInstruction n t r := by
  obtain ⟨before, l, after, hsource, -, hl⟩ := assemble_eq_error_iff.mp h
  have hmem : l ∈ Line.ofSource source := by simp [hsource]
  obtain ⟨t, -, hd⟩ := Line.exists_mem_ofSource_iff.mp ⟨l, hmem, rfl, hl⟩
  cases hd with
  | unknown => exact .inl ⟨_, _, rfl⟩
  | tooMany | argument => exact .inr ⟨_, _, _, rfl⟩

end InstructionSet

/-- **Sources are assembled one after the other.**  With a line break between them, two sources that
assemble make the code of the first and then that of the second.  The fault of the first is that of
the whole.  If only the second has one, it is reported as it was, but for its line, which is further
down by one more than the line breaks of the first. -/
theorem assemble_concat (set : InstructionSet) (first second : String) :
    let whole := first ++ "\n" ++ second
    let count := first.toList.count '\n' + 1
    (∀ c d, set.assemble first = .ok c → set.assemble second = .ok d →
      set.assemble whole = .ok (c ++ d)) ∧
    (∀ f, set.assemble first = .error f → set.assemble whole = .error f) ∧
    ∀ c f, set.assemble first = .ok c → set.assemble second = .error f →
      (∃ m n, f = .unknownInstruction m n ∧
        set.assemble whole = .error (.unknownInstruction m (n + count))) ∨
      ∃ n t r, f = .malformedInstruction n t r ∧
        set.assemble whole = .error (.malformedInstruction (n + count) t r) := by
  intro whole count
  have hwhole := set.assemble_append_break first second
  refine ⟨fun c d hc hd => ?_, fun f hf => ?_, fun c f hc hf => ?_⟩
  · rw [hc, hd] at hwhole
    exact hwhole
  · rw [hf] at hwhole
    exact hwhole
  · rw [hc, hf] at hwhole
    rcases InstructionSet.assemble_error_cases hf with ⟨m, n, rfl⟩ | ⟨n, t, r, rfl⟩
    · exact .inl ⟨m, n, rfl, hwhole⟩
    · exact .inr ⟨n, t, r, rfl, hwhole⟩

/-- The first source ends in line breaks, and each of them counts. -/
theorem assemble_concat_breaks :
    InstructionSet.standard.assemble "PRINT\n\n" = .ok #[⟨0, 0⟩] ∧
    InstructionSet.standard.assemble "POP\nPUSH 1" = .error (.unknownInstruction "PUSH" 2) ∧
    InstructionSet.standard.assemble "PRINT\n\n\nPOP\nPUSH 1" =
      .error (.unknownInstruction "PUSH" 5) := by
  have hfirst : InstructionSet.standard.assemble "PRINT\n\n" = .ok #[⟨0, 0⟩] := by decide +kernel
  have hsecond : InstructionSet.standard.assemble "POP\nPUSH 1" =
      .error (.unknownInstruction "PUSH" 2) := by decide +kernel
  refine ⟨hfirst, hsecond, ?_⟩
  obtain ⟨-, -, herror⟩ := assemble_concat .standard "PRINT\n\n" "POP\nPUSH 1"
  obtain ⟨m, n, ⟨⟩, hwhole⟩ | ⟨_, _, _, ⟨⟩, -⟩ := herror _ _ hfirst hsecond
  exact hwhole

end StackMachine
