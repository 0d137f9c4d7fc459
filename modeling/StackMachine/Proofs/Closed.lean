import StackMachine.Proofs.Growth
import StackMachine.Proofs.Loop
import StackMachine.Proofs.Plain

/-!
# Proofs — Closed

Assembled code stays within its instructions.  The assembler takes each opcode from the set
(`Line.exists_opcode?_of_instruction`), and an opcode that a set gives out has a mnemonic and an
action, in that set and in any larger one.  So assembled code is listed to its end, its debugged
runs are traced, and no run of it comes to an opcode without an action (`assembled_closed`).
-/

namespace StackMachine

namespace InstructionSet

variable {set : InstructionSet} {o : Opcode} {code : Code}

/-- An opcode that the set gives out has a mnemonic. -/
theorem isSome_mnemonic?_of_opcode? {m : String} (h : set.opcode? m = some o) :
    (set.mnemonic? o).isSome := by
  rw [opcode?_eq, Option.map_eq_some_iff] at h
  obtain ⟨i, hi, rfl⟩ := h
  obtain ⟨hlt, -⟩ := List.findIdx?_eq_some_iff_getElem.mp hi
  rw [mnemonic?_eq, isSome_getElem?, UInt32.toNat_ofNat']
  -- even an opcode that has wrapped is a place in the list
  exact Nat.lt_of_le_of_lt (Nat.mod_le i _) hlt

/-- **The set knows what it assembles.** -/
theorem known_of_assemble {source : String} (h : set.assemble source = .ok code) :
    ∀ i ∈ code, (set.mnemonic? i.opcode).isSome := by
  intro i hi
  have hlines := (assemble_eq_ok_iff_forall₂.mp h).flip
  obtain ⟨l, hl⟩ := exists_forall₂_iff.mp ⟨_, hlines⟩ i (Array.mem_toList_iff.mpr hi)
  obtain ⟨m, hm⟩ := Line.exists_opcode?_of_instruction hl
  exact isSome_mnemonic?_of_opcode? hm

/-- What has a mnemonic has an action. -/
theorem isSome_action?_iff : (set.action? o).isSome ↔ (set.mnemonic? o).isSome := by
  simp only [action?, mnemonic?, Option.isSome_map]

end InstructionSet

/-! ### What is let out of known code -/

/-- Each fetch that is reported as an event stands in the trace, with the mnemonic that the set has
for it. -/
def Effect.Traced (set : InstructionSet) (es : List Effect) : Prop :=
  ∀ pc o w, .event (.exec pc o w) ∈ es →
    ∃ mnemonic, set.mnemonic? o = some mnemonic ∧ .trace (.exec mnemonic w pc) ∈ es

namespace Effect.Traced

variable {set : InstructionSet} {es fs : List Effect}

theorem append (hes : Traced set es) (hfs : Traced set fs) : Traced set (es ++ fs) := by
  intro pc o w h
  rcases List.mem_append.mp h with h | h
  · exact (hes pc o w h).imp fun _ => And.imp_right (List.mem_append_left _)
  · exact (hfs pc o w h).imp fun _ => And.imp_right (List.mem_append_right _)

theorem of_notMem (h : ∀ pc o w, .event (.exec pc o w) ∉ es) : Traced set es :=
  fun pc o w he => absurd he (h pc o w)

end Effect.Traced

/-- A traced program traces each instruction that its set knows. -/
theorem Program.traced_step {p : Program} (hp : p.tracing = true)
    (hk : ∀ i ∈ p.code, (p.instructions.mnemonic? i.opcode).isSome) (s : State) :
    Effect.Traced p.instructions (p.step s).emitted := by
  rcases p.emitted_step_cases s with h | ⟨i, es, hi, h, hes⟩
  · rw [h]
    nofun
  · obtain ⟨mnemonic, hm⟩ := Option.isSome_iff_exists.mp (hk i (Array.mem_of_getElem? hi))
    have hfetched : p.fetched s.pc i = [.trace (.exec mnemonic i.argument s.pc),
        .event (.exec s.pc i.opcode i.argument)] := by
      simp only [fetched, hp, if_true, hm, Option.getD_some]
    rw [h, hfetched]
    -- the one event of a fetch is that of the instruction; none of what follows it is one
    refine .append ?_ (.of_notMem fun pc o w he => by cases hes _ he)
    intro pc o w he
    obtain ⟨rfl, rfl, rfl⟩ : pc = s.pc ∧ o = i.opcode ∧ w = i.argument := by simpa using he
    exact ⟨mnemonic, hm, List.mem_cons_self⟩

/-- What is reported of a listing is no affair of single instructions. -/
theorem Program.ne_disassemblyFailed_of_mem_emitted (p : Program) (s : State) (pc : Nat)
    (o : Opcode) : ∀ e ∈ (p.step s).emitted, e ≠ .event (.disassemblyFailed pc o) := by
  rcases p.emitted_step_cases s with h | ⟨i, es, -, h, hes⟩
  · rw [h]
    nofun
  · rw [h, List.forall_mem_append]
    refine ⟨?_, fun e he => ?_⟩
    · rw [fetched]
      split <;> simp
    · cases hes e he <;> rintro ⟨⟩

namespace Machine

variable {m : Machine} {code : Code} {out : Stdout} {budget : Option Nat} {n : Nat}
  {report : Report} (hk : ∀ i ∈ code, (m.instructions.mnemonic? i.opcode).isSome)

include hk

theorem tracing_program_of_known : (m.program code out).tracing = m.debug := by
  rw [program, Listing.unknown_ofCode_eq_none_iff.mpr hk]
  exact Bool.and_true _

theorem preamble_of_known : m.preamble code =
    if m.debug then [.trace (.preamble (Listing.ofCode m.instructions code))] else [] := by
  simp only [preamble, Listing.unknown_ofCode_eq_none_iff.mpr hk]

/-- It is not reported that the code could not be listed. -/
theorem Reports.disassemblyFailed_notMem (h : m.Reports code out budget n report) (pc : Nat)
    (o : Opcode) : .event (.disassemblyFailed pc o) ∉ report.log := by
  obtain ⟨es, t, c, hs, rfl⟩ := h.runs
  have hes := hs.forall_mem fun s =>
    (m.program code out).ne_disassemblyFailed_of_mem_emitted s pc o
  suffices hlog : ∀ e ∈ (m.reported code n es t c).log.toList,
      e ≠ .event (.disassemblyFailed pc o) by
    exact fun he => hlog _ (Array.mem_toList_iff.mpr he) rfl
  simp only [toList_log_reported, preamble_of_known hk, List.forall_mem_append]
  refine ⟨⟨?_, ?_⟩, hes, ?_⟩
  · split <;> simp
  · simp
  · exact forall_mem_closing (Q := (· ≠ .event (.disassemblyFailed pc o))) nofun nofun n t c

/-- A debugged run is traced from its first instruction to its last. -/
theorem Reports.traced (h : m.Reports code out budget n report) (hd : m.debug = true) :
    Effect.Traced m.instructions report.log.toList := by
  obtain ⟨es, t, c, hs, rfl⟩ := h.runs
  have htracing : (m.program code out).tracing = true := (tracing_program_of_known hk).trans hd
  have hes := hs.emitted nofun Effect.Traced.append (Program.traced_step htracing hk)
  simp only [toList_log_reported, preamble_of_known hk, hd]
  refine .append (.of_notMem ?_) (.append hes (.of_notMem fun pc o w he => ?_))
  · simp
  · exact forall_mem_closing (Q := (· ≠ .event (.exec pc o w))) nofun nofun n t c _ he rfl

end Machine

/-! ### Faults of known code -/

namespace Machine

variable {P : Action → Prop} {m : Machine} {code : Code} {out : Stdout} {budget : Option Nat}
  {n : Nat} {report : Report}

/-- The run came to an instruction whose action is in `P`, and the action itself ended in the
fault. -/
def RaisedBy (P : Action → Prop) (m : Machine) (code : Code) (out : Stdout) (budget : Option Nat)
    (e : Fault) : Prop :=
  ∃ k t i a, m.Looks code out budget k t ∧ code[t.pc]? = some i ∧
    m.instructions.action? i.opcode = some a ∧ P a ∧
    (a i.argument out { t with pc := t.pc + 1 }).result = .error e

/-- No standard action ends in an unknown opcode, and the loop does not come to one. -/
theorem Reports.raisedBy_of_unknownOpcode
    (hk : ∀ i ∈ code, (m.instructions.mnemonic? i.opcode).isSome)
    (hm : m.instructions.Reachable P) (h : m.Reports code out budget n report) {o : Opcode}
    {pc : Nat} (hr : report.result = .error (.unknownOpcode o pc)) :
    m.RaisedBy P code out budget (.unknownOpcode o pc) := by
  obtain he | he | ⟨t, hl, he⟩ := h.error_cases hr
  · cases he
  · cases he
  · rcases hs : (m.program code out).step t with ⟨r, u, es⟩
    rw [hs] at he
    subst he
    -- the step failed: the fault is that of the loop, which finds an action, or that of the action
    cases Program.step_error_iff.mp ⟨es, hs⟩ with
    | unknownOpcode hi ha =>
        have hknown := hk _ (Array.mem_of_getElem? hi)
        have hnone : m.instructions.action? _ = none := ha
        rw [← InstructionSet.isSome_action?_iff, hnone] at hknown
        cases hknown
    | action hp =>
        obtain @⟨i, a, _, _, ps, hi, ha, ho⟩ := hp
        have hresult : (a i.argument out { t with pc := t.pc + 1 }).result =
            .error (.unknownOpcode o pc) := congrArg Outcome.result ho
        refine ⟨n, t, i, a, hl, hi, ha, ?_, hresult⟩
        obtain hP | ⟨b, rfl⟩ := hm.action_cases ha
        · exact hP
        · exact ((Exec.plain_action b i.argument).isOperational _ _ _ hresult).elim

end Machine

/-- **Assembled code is closed over its instructions.**

Let a set that registrations can make assemble a source to a code, and let it then receive any
further calls for registration.  The code is disassembled, into one row for each of its
instructions.  On a machine with these instructions, in any state and under any budget, a debugged
run of it is traced, and no event reports code that could not be listed; wherever the run finds an
instruction there is an action for it; and an unknown opcode is reported only if an action that was
registered raised that very fault. -/
theorem assembled_closed {P : Action → Prop} {set : InstructionSet} (h : set.Reachable P)
    {calls : List Entry} (hc : ∀ e ∈ calls, P e.action) {source : String} {code : Code}
    (ha : set.assemble source = .ok code) :
    let set' := set.after calls
    let listing := Listing.ofCode set' code
    (set'.disassemble code = some listing.text ∧ listing.Complete set' code ∧
      Text.breaks listing.text = code.size + 3) ∧
    ∀ (m : Machine) (out : Stdout) (budget : Option Nat), m.instructions = set' →
      (m.debug = true → m.preamble code = [.trace (.preamble listing)] ∧
        (m.program code out).tracing = true) ∧
      (∀ n report, m.Reports code out budget n report →
        (∀ pc o, .event (.disassemblyFailed pc o) ∉ report.log) ∧
        (m.debug = true → Effect.Traced set' report.log.toList)) ∧
      (∀ k t, m.Looks code out budget k t → ∀ i, code[t.pc]? = some i →
        (set'.action? i.opcode).isSome) ∧
      ∀ n report o pc, m.Reports code out budget n report →
        report.result = .error (.unknownOpcode o pc) →
        m.RaisedBy P code out budget (.unknownOpcode o pc) := by
  intro set' listing
  have hset : set'.Reachable P := h.after hc
  have hk : ∀ i ∈ code, (set'.mnemonic? i.opcode).isSome :=
    (set.extends_after calls).known (InstructionSet.known_of_assemble ha)
  have hcomplete : listing.Complete set' code := Listing.complete_ofCode hk
  refine ⟨⟨?_, hcomplete, ?_⟩, ?_⟩
  · rw [InstructionSet.disassemble, hcomplete.unknown]
    rfl
  · rw [Listing.breaks_text_ofCode hset.wellFormed, hcomplete.length]
  · rintro m out budget hm
    rw [← hm] at hk hset
    refine ⟨fun hd => ⟨?_, ?_⟩, fun n report hr => ⟨?_, ?_⟩, ?_, ?_⟩
    · rw [Machine.preamble_of_known hk, if_pos hd, hm]
    · rw [Machine.tracing_program_of_known hk, hd]
    · exact hr.disassemblyFailed_notMem hk
    · exact hm ▸ hr.traced hk
    · intro k t _ i hi
      rw [InstructionSet.isSome_action?_iff, ← hm]
      exact hk i (Array.mem_of_getElem? hi)
    · exact fun n report o pc hr => hr.raisedBy_of_unknownOpcode hk hset

/-- Raises the fault of an opcode that is not in the code. -/
def ghost : Action := Routine.action [.raise (.unknownOpcode 77 0)]

/-- A registered action that raises the fault itself, on a machine that has received one more. -/
theorem assembled_closed_ghost :
    let set : InstructionSet := ⟨InstructionSet.standard.entries.push ⟨"GHOST", ghost⟩⟩
    let set' : InstructionSet := ⟨set.entries.push ⟨"LATER", ghost⟩⟩
    let m : Machine := { instructions := set', debug := true }
    let code : Code := #[⟨1, 5⟩, ⟨13, 0⟩]
    set.Reachable (· = ghost) ∧ set.assemble "LOAD_CONST 5\nGHOST" = .ok code ∧
    set.after [⟨"LATER", ghost⟩] = set' ∧
    set'.disassemble code = some (Listing.ofCode set' code).text ∧
    (m.program code .connected).tracing = true ∧
    ∃ report, m.Reports code .connected none 1 report ∧
      report.result = .error (.unknownOpcode 77 0) ∧ Effect.Traced set' report.log.toList ∧
      m.RaisedBy (· = ghost) code .connected none (.unknownOpcode 77 0) := by
  intro set set' m code
  have reachable : set.Reachable (· = ghost) :=
    .register .standard rfl (InstructionSet.register_of_notMem _ (by decide) (by decide))
  have assembles : set.assemble "LOAD_CONST 5\nGHOST" = .ok code := by decide +kernel
  have after : set.after [⟨"LATER", ghost⟩] = set' :=
    congrArg Prod.snd (InstructionSet.call_of_notMem (by decide) (by decide))
  have reports : m.Reports code .connected none 1 _ :=
    .unbounded (show m.run? code 2 .connected = some _ from rfl)
  have closed := @assembled_closed _ set reachable [⟨"LATER", ghost⟩] (by simp) _ _ assembles
  rw [after] at closed
  obtain ⟨⟨listed, -, -⟩, runs⟩ := closed
  obtain ⟨traced, reported, -, raised⟩ := runs m .connected none rfl
  exact ⟨reachable, assembles, after, listed, (traced rfl).2, _, reports, rfl,
    (reported _ _ reports).2 rfl, raised _ _ _ _ reports rfl⟩

end StackMachine
