import StackMachine.Proofs.Grammar
import StackMachine.Proofs.Listed
import StackMachine.Proofs.Reading
import StackMachine.Proofs.Registration
import StackMachine.Proofs.Simulation

/-!
# Proofs — Growth

Registering more instructions is conservative.  Whatever a set makes of a source or of a code, the
larger set makes of it too, unless the smaller one came to an instruction that it did not know and
the larger one knows.

* A line asks a set for one thing, the opcode of its first word (`Line.instruction_eq_iff`).  So the
  larger set reads each line as the smaller one does, its faults included, except where that one
  word is new (`Line.instruction_error_of_extends`), and the first bad line stays the first.
* A code whose opcodes are known is listed alike (`InstructionSet.Extends.listing_eq`), and each
  step of it is the same step (`Program.step_eq_of_extends`): result, state, and all that is let
  out.

`register_conservative` puts these together for any history of registrations.
-/

namespace StackMachine

/-- The fault is that of a mnemonic that the smaller set does not have and the larger has. -/
def Fault.IsResolved (set set' : InstructionSet) (f : Fault) : Prop :=
  ∃ m line, f = .unknownInstruction m line ∧ set.opcode? m = none ∧ (set'.opcode? m).isSome

/-! ### Lines -/

namespace Line

variable {set set' : InstructionSet} {l : Line}

theorem instruction_of_extends (h : set.Extends set') {i : Instruction}
    (hi : l.instruction set = .ok i) : l.instruction set' = .ok i := by
  rw [instruction_eq_iff] at hi ⊢
  cases hi with
  | instruction hw ho => exact .instruction hw (h.opcode?_eq ho)

theorem instruction_error_of_extends (h : set.Extends set') {f : Fault}
    (hf : l.instruction set = .error f) :
    l.instruction set' = .error f ∨ f.IsResolved set set' := by
  rw [instruction_eq_iff] at hf ⊢
  cases hf with
  | malformed hw => exact .inl (.malformed hw)
  | argument hw ho => exact .inl (.argument hw (h.opcode?_eq ho))
  | @unknown m _ hw ho =>
      -- the one way to fare better is that the larger set has the word
      cases ho' : set'.opcode? m with
      | none => exact .inl (.unknown hw ho')
      | some o => exact .inr ⟨m, _, rfl, ho, by rw [ho']; rfl⟩

end Line

/-! ### Sources -/

namespace InstructionSet.Extends

variable {set set' : InstructionSet} {source : String}

theorem assemble_of_ok (h : set.Extends set') {code : Code} (ha : set.assemble source = .ok code) :
    set'.assemble source = .ok code := by
  rw [assemble_eq_ok_iff_forall₂] at ha ⊢
  exact ha.imp fun _ _ hi => Line.instruction_of_extends h hi

/-- **The first bad line stays the first**, and is reported alike unless its mnemonic is new. -/
theorem assemble_ne_error_iff (h : set.Extends set') {f : Fault}
    (ha : set.assemble source = .error f) :
    set'.assemble source ≠ .error f ↔ f.IsResolved set set' := by
  obtain ⟨before, l, after, hl, hok, hf⟩ := assemble_eq_error_iff.mp ha
  have hok' : ∀ k ∈ before, ∃ i, k.instruction set' = .ok i := fun k hk =>
    (hok k hk).imp fun _ hi => Line.instruction_of_extends h hi
  constructor
  · intro hne
    refine (Line.instruction_error_of_extends h hf).resolve_left fun hf' => hne ?_
    exact assemble_eq_error_iff.mpr ⟨before, l, after, hl, hok', hf'⟩
  · -- the larger set has the mnemonic, so that no line of it is reported for it
    rintro ⟨m, n, rfl, -, hm⟩ ha'
    obtain ⟨_, k, _, -, -, hk⟩ := assemble_eq_error_iff.mp ha'
    rw [Line.opcode?_eq_none_of_instruction hk] at hm
    cases hm

end InstructionSet.Extends

/-! ### Code -/

namespace InstructionSet.Extends

variable {set set' : InstructionSet} {code : Code}

/-- An opcode that is known keeps its mnemonic. -/
theorem mnemonic?_eq_of_isSome (h : set.Extends set') {o : Opcode}
    (hk : (set.mnemonic? o).isSome) : set'.mnemonic? o = set.mnemonic? o := by
  obtain ⟨m, hm⟩ := Option.isSome_iff_exists.mp hk
  rw [hm, h.mnemonic?_eq hm]

/-- An opcode that is known keeps its action. -/
theorem action?_eq_of_isSome (h : set.Extends set') {o : Opcode}
    (hk : (set.mnemonic? o).isSome) : set'.action? o = set.action? o := by
  rw [mnemonic?, Option.isSome_map] at hk
  obtain ⟨e, he⟩ := Option.isSome_iff_exists.mp hk
  rw [action?, action?, he, h.entry?_eq he]

/-- A code that is known to a set is known to any larger one. -/
theorem known (h : set.Extends set') (hk : ∀ i ∈ code, (set.mnemonic? i.opcode).isSome) :
    ∀ i ∈ code, (set'.mnemonic? i.opcode).isSome := fun i hi => by
  rw [h.mnemonic?_eq_of_isSome (hk i hi)]
  exact hk i hi

theorem listing_eq (h : set.Extends set') (hk : ∀ i ∈ code, (set.mnemonic? i.opcode).isSome) :
    Listing.ofCode set' code = Listing.ofCode set code := by
  rw [Listing.ofCode_of_known hk, Listing.ofCode_of_known (h.known hk)]
  congr 1
  refine List.filterMap_congr fun p hp => ?_
  have hmem : p.1 ∈ code := Array.mem_toList_iff.mp (List.fst_mem_of_mem_zipIdx hp)
  simp only [Listing.row?, h.mnemonic?_eq_of_isSome (hk p.1 hmem)]

theorem disassemble_eq (h : set.Extends set')
    (hk : ∀ i ∈ code, (set.mnemonic? i.opcode).isSome) :
    set'.disassemble code = set.disassemble code := by
  rw [disassemble, disassemble, h.listing_eq hk]

end InstructionSet.Extends

/-- **Each step is the same step**, with all that it lets out. -/
theorem Program.step_eq_of_extends {p q : Program} (hcode : q.code = p.code) (hout : q.out = p.out)
    (htracing : q.tracing = p.tracing) (h : p.instructions.Extends q.instructions)
    (hk : ∀ i ∈ p.code, (p.instructions.mnemonic? i.opcode).isSome) (s : State) :
    q.step s = p.step s := by
  cases hi : p.code[s.pc]? with
  | none => rw [step_of_none hi, step_of_none (hcode ▸ hi), hcode]
  | some i =>
      have hknown := hk i (Array.mem_of_getElem? hi)
      have hfetched : q.fetched s.pc i = p.fetched s.pc i := by
        rw [fetched, fetched, htracing, h.mnemonic?_eq_of_isSome hknown]
      simp only [step, hcode, hi, h.action?_eq_of_isSome hknown, hout, hfetched, completed,
        htracing]

/-- The report with other instructions in the machine. -/
def Report.withSet (report : Report) (set : InstructionSet) : Report :=
  { report with machine := { report.machine with instructions := set } }

namespace Machine

variable {set set' : InstructionSet} {code : Code}

/-- The reports of a code that a set knows, under any larger set. -/
theorem reports_withSet_iff (h : set.Extends set')
    (hk : ∀ i ∈ code, (set.mnemonic? i.opcode).isSome) (state : State) (debug : Bool)
    (out : Stdout) (budget : Option Nat) (n : Nat) (report' : Report) :
    Reports ⟨set', state, debug⟩ code out budget n report' ↔
      ∃ report, Reports ⟨set, state, debug⟩ code out budget n report ∧
        report' = report.withSet set' := by
  have hlisting := h.listing_eq hk
  have hstep : ∀ s, (program ⟨set', state, debug⟩ code out).step s =
      (program ⟨set, state, debug⟩ code out).step s :=
    Program.step_eq_of_extends rfl rfl (by simp only [program, hlisting]) h hk
  have hreported : ∀ es t c, reported ⟨set', state, debug⟩ code n es t c =
      (reported ⟨set, state, debug⟩ code n es t c).withSet set' := by
    intro es t c
    simp only [reported, start, preamble, hlisting, Report.withSet]
  constructor
  · intro h'
    obtain ⟨es, t, c, hr, rfl⟩ := h'.runs
    exact ⟨_, reports_of_runs (hr.of_step_eq fun s => (hstep s).symm), hreported es t c⟩
  · rintro ⟨report, h', rfl⟩
    obtain ⟨es, t, c, hr, rfl⟩ := h'.runs
    rw [← hreported]
    exact reports_of_runs (hr.of_step_eq hstep)

end Machine

/-- **Growing a set is conservative.**

Let a set receive any further calls for registration, refused ones included.  A source that
assembles does so to the same code.  One that does not is refused with the same fault, unless that
is the fault of a mnemonic which the set had not and has now.  And a code whose opcodes were known
is listed alike, and runs alike from any state, under any budget, traced or not: it comes back
exactly if it did before, with a report that differs in the set of the machine alone. -/
theorem register_conservative (set : InstructionSet) (calls : List Entry) :
    let set' := set.after calls
    (∀ source code, set.assemble source = .ok code → set'.assemble source = .ok code) ∧
    (∀ source f, set.assemble source = .error f →
      (set'.assemble source ≠ .error f ↔ f.IsResolved set set')) ∧
    ∀ code : Code, (∀ i ∈ code, (set.mnemonic? i.opcode).isSome) →
      set'.disassemble code = set.disassemble code ∧
      ∀ state debug out budget n report',
        Machine.Reports ⟨set', state, debug⟩ code out budget n report' ↔
          ∃ report, Machine.Reports ⟨set, state, debug⟩ code out budget n report ∧
            report' = report.withSet set' := by
  intro set'
  have h : set.Extends set' := set.extends_after calls
  exact ⟨fun _ _ ha => h.assemble_of_ok ha, fun _ _ ha => h.assemble_ne_error_iff ha,
    fun code hk => ⟨h.disassemble_eq hk, Machine.reports_withSet_iff h hk⟩⟩

/-- A call for an instruction that is new, and one for a name that is taken. -/
def twiceAndAdd : List Entry :=
  [⟨"TWICE", Routine.action [.builtin .dup .argument, .builtin .add .argument]⟩,
    ⟨"ADD", Routine.action [.halt]⟩]

theorem register_conservative_twice :
    let set := InstructionSet.standard
    let set' := set.after twiceAndAdd
    let code : Code := #[⟨1, 5⟩, ⟨2, 0⟩]
    set'.assemble "LOAD_CONST 5\nEXIT" = .ok code ∧
    set'.assemble "HALVE\nTWICE" = .error (.unknownInstruction "HALVE" 1) ∧
    set'.assemble "TWICE\nHALVE" ≠ .error (.unknownInstruction "TWICE" 1) ∧
    set'.disassemble code = set.disassemble code ∧
    ∃ report, Machine.Reports ⟨set, {}, true⟩ code .connected (some 2) 2 report ∧
      report.result = .ok ⟨5, ""⟩ ∧
      Machine.Reports ⟨set', {}, true⟩ code .connected (some 2) 2 (report.withSet set') := by
  intro set set' code
  obtain ⟨hok, herror, hknown⟩ := register_conservative set twiceAndAdd
  have hhalve : ¬ (Fault.unknownInstruction "HALVE" 1).IsResolved set set' := by
    rintro ⟨m, _, ⟨⟩, -, hm⟩
    exact absurd hm (by decide +kernel)
  have htwice : (Fault.unknownInstruction "TWICE" 1).IsResolved set set' :=
    ⟨_, _, rfl, by decide +kernel, by decide +kernel⟩
  obtain ⟨hlisted, hruns⟩ := hknown code (by decide)
  have hreport : Machine.Reports ⟨set, {}, true⟩ code .connected (some 2) 2 _ := .bounded 2
  have hbefore : set.assemble "LOAD_CONST 5\nEXIT" = .ok code := by decide +kernel
  have hfirst : set.assemble "HALVE\nTWICE" = .error (.unknownInstruction "HALVE" 1) := by
    decide +kernel
  have hnew : set.assemble "TWICE\nHALVE" = .error (.unknownInstruction "TWICE" 1) := by
    decide +kernel
  exact ⟨hok _ _ hbefore, not_ne_iff.mp (mt (herror _ _ hfirst).mp hhalve),
    (herror _ _ hnew).mpr htwice, hlisted, _, hreport, rfl, (hruns ..).mpr ⟨_, hreport, rfl⟩⟩

end StackMachine
