import StackMachine.Proofs.Framing

/-!
# Proofs — History

Code on a machine that has been in use.  A machine's history is whatever can be done with it:
registrations, runs of any code, changes of the counter and of the switch, resets
(`Machine.History`).  None of these changes an instruction that is there, so code that halts on a
fresh standard machine does the same afterwards, on top of what the history left (`Reports.rerun`),
and each further time on top of that (`Reports.reruns`).
-/

namespace StackMachine

namespace Machine

variable {code : Code} {out : Stdout} {n : Nat}

/-- What can become of a machine in use. -/
inductive History (m : Machine) : Machine → Prop where
  | begin : History m m
  | register {t t' : Machine} {mnemonic : String} {a : Action} {o : Opcode} (h : History m t)
      (hr : t.register mnemonic a = .ok (o, t')) : History m t'
  | run {t : Machine} {code : Code} {out : Stdout} {budget : Option Nat} {n : Nat} {report : Report}
      (h : History m t) (hr : t.Reports code out budget n report) : History m report.machine
  | rewind {t : Machine} (h : History m t) : History m t.rewind
  | reset {t : Machine} (h : History m t) : History m t.reset
  | setDebug {t : Machine} (h : History m t) (debug : Bool) : History m { t with debug }

theorem register_eq_ok {m m' : Machine} {mnemonic : String} {a : Action} {o : Opcode}
    (h : m.register mnemonic a = .ok (o, m')) :
    ∃ instructions, m.instructions.register mnemonic a = .ok (o, instructions) ∧
      m' = { m with instructions } := by
  rw [register] at h
  cases hr : m.instructions.register mnemonic a with
  | error e =>
      rw [hr] at h
      cases h
  | ok p =>
      rw [hr] at h
      cases h
      exact ⟨_, rfl, rfl⟩

/-- No instruction is lost or changed. -/
theorem History.extends {m t : Machine} (h : History m t) :
    m.instructions.Extends t.instructions := by
  induction h with
  | begin => exact .refl _
  | register _ hr ih =>
      obtain ⟨set, hset, rfl⟩ := register_eq_ok hr
      exact ih.trans (InstructionSet.register_extends hset)
  | run _ hr ih =>
      rw [hr.machine_eq]
      exact ih
  | rewind _ ih | reset _ ih | setDebug _ _ ih => exact ih

/-- `k` runs of the code, each from the start of it, and each halting after `n` instructions. -/
inductive Reruns (code : Code) (out : Stdout) (n : Nat) (m : Machine) : Nat → Machine → Prop where
  | none : Reruns code out n m 0 m
  | more {k : Nat} {t : Machine} {report : Report} (h : Reruns code out n m k t)
      (hr : t.rewind.Reports code out none n report) :
      Reruns code out n m (k + 1) report.machine

theorem Reruns.history {m t : Machine} {k : Nat} (h : m.Reruns code out n k t) :
    m.History t := by
  induction h with
  | none => exact .begin
  | more _ hr ih => exact ih.rewind.run hr

theorem Reruns.unique {m t t' : Machine} {k : Nat} (h : m.Reruns code out n k t)
    (h' : m.Reruns code out n k t') : t = t' := by
  induction h generalizing t' with
  | none =>
      cases h'
      rfl
  | more _ hr ih =>
      cases h' with
      | more h' hr' =>
          obtain rfl := ih h'
          rw [(hr.unique hr').2]

/-! ### The same code again -/

section Rerun

variable {debug : Bool} {fresh : Report} {answer : Answer}
  (hfresh : Reports { debug } code out none n fresh) (hok : fresh.result = .ok answer)

include hfresh hok

/-- The output that a run answers with is the one it leaves. -/
theorem Reports.output_eq : answer.output = fresh.machine.state.output := by
  obtain ⟨es, t, c, -, rfl⟩ := hfresh.runs
  rw [reported_result, Machine.answer.eq_def] at hok
  split at hok
  · cases hok
  · cases hok
  · split at hok
    · cases hok
    · cases hok
      rfl

/-- Code that halts on a fresh machine does so on top of what any other has, from its start. -/
theorem Reports.rerun {m : Machine} (hm : InstructionSet.standard.Extends m.instructions) :
    ∃ report, m.rewind.Reports code out none n report ∧
      fresh.OnTop m.state.stack m.state.output report := by
  -- the length of the code is set anew by each run, so the state before it is `{}` but for the base
  refine hfresh.onto (A := fun _ => False) ?_ rfl hm ?_ (fun _ => False.elim) False.elim
  · simp [start, Machine.rewind, State.rewind, State.onto]
  · simp [hok]

/-- `k` runs of it put `k` copies of its stack and of its output on top of what was there. -/
theorem Reports.reruns {m : Machine} (hm : InstructionSet.standard.Extends m.instructions)
    (k : Nat) :
    ∃ t, m.Reruns code out n k t ∧
      t.state.stack = (List.replicate k fresh.machine.state.stack).flatten ++ m.state.stack ∧
      t.state.output = m.state.output ++ String.join (List.replicate k answer.output) := by
  induction k with
  | zero => exact ⟨m, .none, rfl, by simp⟩
  | succ k ih =>
      obtain ⟨t, ht, hstack, houtput⟩ := ih
      obtain ⟨report, hr, hon⟩ := hfresh.rerun hok (hm.trans ht.history.extends)
      refine ⟨report.machine, .more ht hr, ?_, ?_⟩
      · rw [hon.state, State.onto, hstack, List.replicate_succ, List.flatten_cons,
          List.append_assoc]
      · rw [hon.state, State.onto, houtput, ← hfresh.output_eq hok, List.replicate_succ',
          String.join_append, String.append_assoc]
        simp

end Rerun

/-- **What lies underneath never influences a run**, and so code can be run again.

A run of standard instructions that ends in no underflow does the same on top of any base and after
any output: as many instructions, the same value or fault, the same printed lines, and the same
state on top of the base.  Code that halts on a fresh standard machine therefore halts, from its
start, on one with any history, and each of `k` such runs adds the same words to the stack and the
same text to the output. -/
theorem reports_framed (code : Code) (out : Stdout) (n : Nat) :
    (∀ (m : Machine) (budget : Option Nat) (report : Report), m.instructions = .standard →
      m.Reports code out budget n report → (∀ e, report.result = .error e → e.Supplied) →
      ∀ (base : List Word) (before : String), ∃ report',
        Reports { m with state := m.state.onto base before } code out budget n report' ∧
          report.OnTop base before report') ∧
    ∀ (debug : Bool) (fresh : Report) (value : Word) (text : String),
      Reports { debug } code out none n fresh → fresh.result = .ok ⟨value, text⟩ →
      ∀ m, History { debug } m → ∀ k,
        (∃ t, m.Reruns code out n k t) ∧
        ∀ t, m.Reruns code out n k t →
          t.state.stack = (List.replicate k fresh.machine.state.stack).flatten ++ m.state.stack ∧
          t.state.output = m.state.output ++ String.join (List.replicate k text) ∧
          ∃ report, t.rewind.Reports code out none n report ∧
            report.result = .ok ⟨value, t.state.output ++ text⟩ ∧
            report.log.stdout = fresh.log.stdout := by
  constructor
  · intro m budget report hm h hr base before
    exact h.onto rfl hm (.refl _) hr (fun _ h => h) fun _ h => h
  · intro debug fresh value text h hok m hm k
    obtain ⟨t, ht, hstack, houtput⟩ := h.reruns hok hm.extends k
    refine ⟨⟨t, ht⟩, fun t' ht' => ?_⟩
    obtain rfl := ht.unique ht'
    obtain ⟨report, hr, hon⟩ := h.rerun hok (hm.extends.trans ht.history.extends)
    exact ⟨hstack, houtput, report, hr, by rw [hon.result, hok]; rfl, hon.stdout⟩

/-- Code that writes a one, on a machine that holds a seven, and twice again on the machine that it
has run on. -/
theorem reports_framed_ones :
    ∃ fresh above t,
      Reports {} #[⟨1, 1⟩, ⟨11, 0⟩, ⟨2, 0⟩] .connected none 3 fresh ∧
      fresh.result = .ok ⟨1, "1"⟩ ∧
      Reports { state := { stack := [7], output := "7" } } #[⟨1, 1⟩, ⟨11, 0⟩, ⟨2, 0⟩] .connected
        none 3 above ∧
      above.result = .ok ⟨1, "71"⟩ ∧ above.machine.state.stack = [1, 7] ∧
      fresh.machine.Reruns #[⟨1, 1⟩, ⟨11, 0⟩, ⟨2, 0⟩] .connected 3 2 t ∧
      t.state.stack = [1, 1, 1] ∧ t.state.output = "111" := by
  have hfresh : Reports {} #[⟨1, 1⟩, ⟨11, 0⟩, ⟨2, 0⟩] .connected none 3 _ :=
    .unbounded (show run? _ _ 3 _ = some _ from rfl)
  obtain ⟨framed, again⟩ := reports_framed #[⟨1, 1⟩, ⟨11, 0⟩, ⟨2, 0⟩] .connected 3
  obtain ⟨above, habove, hon⟩ := framed {} none _ rfl hfresh nofun [7] "7"
  obtain ⟨⟨t, ht⟩, hall⟩ := again false _ 1 "1" hfresh rfl _ (.run .begin hfresh) 2
  obtain ⟨hstack, houtput, -⟩ := hall t ht
  refine ⟨_, above, t, hfresh, rfl, habove, ?_, ?_, ht, hstack, houtput⟩
  · rw [hon.result]
    rfl
  · rw [hon.state]
    rfl

end Machine

end StackMachine
