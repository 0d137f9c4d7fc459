import StackMachine.Proofs.Chronicle
import StackMachine.Proofs.Composed
import StackMachine.Proofs.Reachable

/-!
# Proofs — Printing

What a run of the standard instructions prints.  Of the operations that actions are made of, one
looks at the stream; what is built from the others (`Exec.Quiet`) prints nothing, and every standard
action but that of `PRINT` is (`Exec.Quiet.action`).  So each fetch prints one line if it finds
`PRINT` and a word on the stack, and nothing otherwise (`printedAt`), whatever else becomes of the
instruction; and a run prints what its fetches print, in their order
(`Machine.Reports.exists_stdout`).
-/

namespace StackMachine

/-! ### Computations that print nothing -/

namespace Exec

variable {α β : Type}

/-- The computation prints nothing. -/
def Silent (x : Exec α) : Prop := ∀ out s, (x out s).emitted = []

/-- Built from operations of which none looks at the stream. -/
inductive Quiet : ∀ {α : Type}, Exec α → Prop where
  | pure {α : Type} (a : α) : Quiet (Pure.pure a : Exec α)
  | bind {α β : Type} {x : Exec α} {f : α → Exec β} (hx : Quiet x) (hf : ∀ a, Quiet (f a)) :
      Quiet (x >>= f)
  | get : Quiet get
  | modify (f : State → State) : Quiet (modify f)
  | raise {α : Type} (e : Fault) : Quiet (raise e : Exec α)

namespace Quiet

theorem require (n : Nat) : Quiet (require n) := by
  refine get.bind fun s => ?_
  split
  · exact pure ()
  · exact raise _

theorem push (w : Word) : Quiet (push w) := modify _

theorem pop : Quiet pop := by
  refine get.bind fun s => ?_
  split
  · exact raise _
  · exact (modify _).bind fun _ => pure _

theorem popPair : Quiet popPair :=
  (require 2).bind fun _ => pop.bind fun _ => pop.bind fun _ => pure _

theorem top : Quiet top := by
  refine get.bind fun s => ?_
  split
  · exact raise _
  · exact pure _

theorem target (w : Word) : Quiet (target w) := by
  refine get.bind fun s => ?_
  split
  · exact pure _
  · exact raise _

theorem setPc (pc : Nat) : Quiet (setPc pc) := modify _

theorem jump (w : Word) : Quiet (jump w) := (target w).bind fun pc => setPc pc

theorem writeWord (w : Word) : Quiet (writeWord w) := modify _

theorem writeChar (c : Char) : Quiet (writeChar c) := modify _

theorem reset : Quiet reset := modify _

theorem combine (f : Word → Word → Word) : Quiet (combine f) :=
  popPair.bind fun _ => (push _).bind fun _ => pure _

/-- **Only one standard action is not built so.** -/
theorem action {b : Builtin} (hb : b ≠ .print) (w : Word) : Quiet (b.action w) := by
  cases b with
  | print => exact absurd rfl hb
  | loadConst => exact (push w).bind fun _ => pure _
  | exit => exact (require 1).bind fun _ => pure _
  | pop => exact pop.bind fun _ => pure _
  | add => exact combine _
  | eq => exact combine fun below top => Word.ofBool (below == top)
  | neq => exact combine fun below top => Word.ofBool (below != top)
  | div =>
      refine (require 2).bind fun _ => top.bind fun v => ?_
      split
      · exact raise _
      · exact combine _
  | dup => exact top.bind fun v => (push v).bind fun _ => pure _
  | jmp => exact (jump w).bind fun _ => pure _
  | jmpz =>
      refine (target w).bind fun pc => pop.bind fun v => ?_
      split
      · exact (setPc pc).bind fun _ => pure _
      · exact pure _
  | write => exact top.bind fun v => (writeWord v).bind fun _ => pure _
  | writeChar => exact top.bind fun v => (writeChar v.lowChar).bind fun _ => pure _

/-- Such a computation goes the same way with every stream, and prints nothing. -/
theorem exists_eq {x : Exec α} (h : Quiet x) (s : State) : ∃ r t, ∀ out, x out s = ⟨r, t, []⟩ := by
  induction h generalizing s with
  | pure a => exact ⟨.ok a, s, fun _ => rfl⟩
  | get => exact ⟨.ok s, s, fun _ => rfl⟩
  | modify f => exact ⟨.ok (), f s, fun _ => rfl⟩
  | raise e => exact ⟨.error e, s, fun _ => rfl⟩
  | bind _ _ ihx ihf =>
      obtain ⟨e | a, t, hx⟩ := ihx s
      · exact ⟨.error e, t, fun out => bind_of_error (hx out)⟩
      · obtain ⟨r, u, hf⟩ := ihf a t
        exact ⟨r, u, fun out => (bind_of_ok_nil (hx out)).trans (hf out)⟩

theorem silent {x : Exec α} (h : Quiet x) : Silent x := by
  intro out s
  obtain ⟨r, t, hx⟩ := h.exists_eq s
  rw [hx]

end Quiet

/-- What is printed by the one that does. -/
theorem emitted_action_print (w : Word) (s : State) :
    (Builtin.print.action w .connected s).emitted = s.stack.head?.toList.map .line := by
  have h : Builtin.print.action w = top >>= fun v => print v >>= fun _ => pure .next := rfl
  rw [h]
  cases hs : s.stack with
  | nil =>
      rw [bind_of_error (top_of_nil hs)]
      rfl
  | cons v vs =>
      rw [bind_of_ok (top_of_cons hs)]
      rfl

end Exec

namespace InstructionSet

/-- An opcode of the standard set is that of a standard instruction, or has no entry. -/
theorem standard_cases (o : Opcode) :
    (∃ b : Builtin, standard.mnemonic? o = some b.mnemonic ∧ standard.action? o = some b.action) ∨
      standard.mnemonic? o = none ∧ standard.action? o = none := by
  simp only [mnemonic?, action?]
  cases he : standard.entry? o with
  | none => exact .inr ⟨rfl, rfl⟩
  | some e =>
      have hmem : e ∈ standard.entries := Array.mem_of_getElem? he
      simp only [standard, List.mem_toArray, List.mem_map] at hmem
      obtain ⟨b, -, rfl⟩ := hmem
      exact .inl ⟨b, rfl, rfl⟩

end InstructionSet

/-! ### What is printed at a fetch -/

/-- What the instruction that is fetched in `s` prints: the top of the stack on a line of its own,
if the instruction is `PRINT` and there is a top. -/
def printedAt (code : Code) (s : State) : String :=
  match code[s.pc]?, s.stack with
  | some i, top :: _ =>
    if InstructionSet.standard.mnemonic? i.opcode = some "PRINT" then top.text ++ "\n" else ""
  | _, _ => ""

section PrintedAt

variable {code : Code} {s : State} {i : Instruction}

theorem printedAt_of_print (hi : code[s.pc]? = some i)
    (hm : InstructionSet.standard.mnemonic? i.opcode = some "PRINT") :
    printedAt code s = s.stack.head?.elim "" fun w => w.text ++ "\n" := by
  cases hs : s.stack with
  | nil => simp only [printedAt, hi, hs, List.head?_nil, Option.elim_none]
  | cons w ws => simp only [printedAt, hi, hs, hm, if_true, List.head?_cons, Option.elim_some]

theorem printedAt_of_ne (hi : code[s.pc]? = some i)
    (hm : InstructionSet.standard.mnemonic? i.opcode ≠ some "PRINT") : printedAt code s = "" := by
  cases hs : s.stack with
  | nil => simp only [printedAt, hi, hs]
  | cons w ws => simp only [printedAt, hi, hs, if_neg hm]

end PrintedAt

namespace Effect

theorem printed_map_line (w? : Option Word) :
    printed ((w?.toList.map Print.line).map print) = w?.elim "" fun w => w.text ++ "\n" := by
  cases w? with
  | none => rfl
  | some w =>
      show String.join [w.text ++ "\n"] = _
      rw [String.join_cons]
      exact String.append_empty

end Effect

namespace Program

variable {p : Program} {s : State} {i : Instruction}

/-- Only what its action prints is printed at a fetch. -/
theorem printed_step (hi : p.code[s.pc]? = some i) :
    Effect.printed (p.step s).emitted = Effect.printed ((p.prints s).map .print) := by
  have hfetched : Effect.printed (p.fetched s.pc i) = "" := by
    rw [← Effect.printed_untraced, untraced_fetched]
    rfl
  obtain ⟨r, t, after, hc, hs⟩ := exists_comes hi
  have hafter : Effect.printed after = "" := by
    cases hc with
    | completed =>
        rw [← Effect.printed_untraced, untraced_completed]
        rfl
    | faulted | unknown => rfl
  rw [hs, Effect.printed_append, Effect.printed_append, hfetched, hafter, String.empty_append,
    String.append_empty]

/-- **A fetch of a standard instruction prints its line or nothing.** -/
theorem printed_step_standard (hp : p.instructions = .standard) (hout : p.out = .connected)
    (hpc : s.pc < p.code.size) : Effect.printed (p.step s).emitted = printedAt p.code s := by
  have hi := Array.getElem?_eq_getElem hpc
  rw [printed_step hi]
  obtain ⟨b, hm, ha⟩ | ⟨hm, ha⟩ := InstructionSet.standard_cases p.code[s.pc].opcode
  · rw [← hp] at ha
    rw [prints_of_some hi ha, hout]
    by_cases hb : b = .print
    · subst hb
      rw [printedAt_of_print hi hm, Exec.emitted_action_print, Effect.printed_map_line]
    · have hne : b.mnemonic ≠ "PRINT" := fun h => hb (Builtin.mnemonic_injective h)
      rw [printedAt_of_ne hi (by simpa [hm] using hne), (Exec.Quiet.action hb _).silent]
      rfl
  · rw [← hp] at ha
    rw [printedAt_of_ne hi (by simp [hm]), prints_of_none hi ha]
    rfl

theorem printed_flatMap_standard (hp : p.instructions = .standard) (hout : p.out = .connected)
    {ts : List State} (hts : ∀ u ∈ ts, u.pc < p.code.size) :
    Effect.printed (ts.flatMap fun u => (p.step u).emitted) =
      String.join (ts.map (printedAt p.code)) := by
  induction ts with
  | nil => rfl
  | cons u us ih =>
      rw [List.forall_mem_cons] at hts
      rw [List.flatMap_cons, Effect.printed_append, printed_step_standard hp hout hts.1, ih hts.2,
        List.map_cons, String.join_cons]

end Program

/-- **A run prints what its fetches print.** -/
theorem Machine.Reports.exists_stdout {m : Machine} {code : Code} {budget : Option Nat} {n : Nat}
    {report : Report} (hm : m.instructions = .standard)
    (h : m.Reports code .connected budget n report) :
    ∃ ts, m.Journal code .connected budget ts ∧
      report.log.stdout = String.join (ts.map (printedAt code)) := by
  obtain ⟨es, t, c, hs, rfl⟩ := h.runs
  obtain ⟨ts, hj, rfl, -⟩ := hs.journal
  refine ⟨ts, hj, ?_⟩
  rw [stdout_reported]
  exact Program.printed_flatMap_standard (p := m.program code .connected) hm rfl fun _ => hj.pc_lt

end StackMachine
