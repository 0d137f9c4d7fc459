import StackMachine.Proofs.Budget
import StackMachine.Proofs.Loop
import StackMachine.Proofs.Registration

/-!
# Proofs — Counter

Where the program counter can be.  It lasts from run to run while the length of the code changes, so
that a run can start beyond the end of its code, and the counter is not bounded by the length of the
code that is set.  The bound is the length of the longest code that the machine has run
(`Machine.Used.pc_le`).

Within a run that starts in its code the bound is the length of that code.  An action finds the
counter where the fetch has put it and can leave it there, at zero or at a place in the code
(`State.Evolves.pc_cases`), whether it faults or not, so each step keeps the bound
(`Program.Bounds.step`).  A run that starts beyond its code fetches nothing.
-/

namespace StackMachine

/-- What operations can make of the counter. -/
theorem State.Evolves.pc_cases {s t : State} (h : s.Evolves t) :
    t.pc = s.pc ∨ t.pc = 0 ∨ t.pc < s.codeLength := by
  induction h with
  | refl | stack | output => exact .inl rfl
  | jump s h => exact .inr (.inr h)
  | reset => exact .inr (.inl rfl)
  | trans h₁ _ ih₁ ih₂ =>
      rw [h₁.codeLength_eq] at ih₂
      rcases ih₂ with h | h
      · rw [h]
        exact ih₁
      · exact .inr h

/-! ### Within a run -/

namespace Program

variable {p : Program} {n : Nat} {s t : State} {es : List Effect}

/-- Nothing is fetched beyond the code. -/
theorem Steps.eq_of_size_le (h : p.Steps n s es t) (hs : p.code.size ≤ s.pc) : n = 0 ∧ t = s := by
  cases h with
  | refl => exact ⟨rfl, rfl⟩
  | more h _ =>
      rw [step_of_none (Array.getElem?_eq_none hs)] at h
      cases h

theorem Runs.eq_of_size_le {budget : Option Nat} {c : Option Stop} (h : p.Runs budget n s es t c)
    (hs : p.code.size ≤ s.pc) : t = s := by
  refine h.invariant (I := (· = s)) ?_ rfl
  rintro _ rfl
  rw [step_of_none (Array.getElem?_eq_none hs)]

/-- The state is set to the length of the code, and its counter is in the code or at the end of
it. -/
structure Bounds (p : Program) (s : State) : Prop where
  length_eq : s.codeLength = p.code.size
  pc_le     : s.pc ≤ p.code.size

/-- **A step leaves the counter in the code or at its end.** -/
theorem Bounds.step (hp : p.instructions.Reachable Action.Composed) (h : p.Bounds s) :
    p.Bounds (p.step s).state := by
  refine ⟨(Machine.step_codeLength hp s).trans h.length_eq, ?_⟩
  rcases Nat.lt_or_ge s.pc p.code.size with hlt | hge
  · rcases p.step_state_cases s with hs | hs | ⟨i, a, -, ha, hs⟩
    · rw [hs]
      exact h.pc_le
    · rw [hs]
      exact hlt
    · -- the action starts with the counter moved on, and the length is the one that jumps look at
      have haction := (hp.action Builtin.composed_action ha i.argument).evolves p.out
        { s with pc := s.pc + 1 }
      rw [hs]
      rcases haction.pc_cases with hn | hz | hj
      · rw [hn]
        exact hlt
      · rw [hz]
        exact Nat.zero_le _
      · exact Nat.le_of_lt (h.length_eq ▸ hj)
  · rw [step_of_none (Array.getElem?_eq_none hge)]
    exact h.pc_le

end Program

namespace Machine

variable {m : Machine} {code : Code} {out : Stdout} {budget : Option Nat} {n k pc : Nat} {t : State}
  {report : Report}

/-! #### A run that starts beyond its code -/

theorem Looks.eq_start (h : m.Looks code out budget k t) (hpc : code.size ≤ m.state.pc) :
    k = 0 ∧ t = (m.start code).state := by
  obtain ⟨es, hs⟩ := h.steps
  exact hs.eq_of_size_le hpc

theorem not_fetches (hpc : code.size ≤ m.state.pc) : ¬ m.Fetches code out budget pc := by
  rintro ⟨k, t, hl, rfl, hlt⟩
  obtain ⟨-, rfl⟩ := hl.eq_start hpc
  exact Nat.not_lt_of_le hpc hlt

theorem Reports.pc_eq (h : m.Reports code out budget n report) (hpc : code.size ≤ m.state.pc) :
    report.machine.state.pc = m.state.pc := by
  obtain ⟨es, t, c, hs, rfl⟩ := h.runs
  obtain rfl := hs.eq_of_size_le hpc
  rfl

/-! #### A run that starts in its code or at the end of it -/

section Bounds

variable (hm : m.instructions.Reachable Action.Composed) (hpc : m.state.pc ≤ code.size)

include hm hpc

theorem Looks.bounds (h : m.Looks code out budget k t) : (m.program code out).Bounds t := by
  obtain ⟨es, hs⟩ := h.steps
  exact hs.invariant (fun _ => .step hm) ⟨rfl, hpc⟩

theorem Reports.pc_le (h : m.Reports code out budget n report) :
    report.machine.state.pc ≤ code.size := by
  obtain ⟨es, t, c, hs, rfl⟩ := h.runs
  exact (hs.invariant (I := (m.program code out).Bounds) (fun _ => .step hm) ⟨rfl, hpc⟩).pc_le

end Bounds

end Machine

/-! ### From run to run -/

/-- The length of the longest of some codes. -/
def longest (codes : List Code) : Nat := codes.foldr (fun code n => max code.size n) 0

@[simp] theorem longest_nil : longest [] = 0 := rfl

@[simp] theorem longest_cons (code : Code) (codes : List Code) :
    longest (code :: codes) = max code.size (longest codes) := rfl

theorem longest_lt {codes : List Code} {n : Nat} (hn : 0 < n) (h : ∀ code ∈ codes, code.size < n) :
    longest codes < n := by
  induction codes with
  | nil => exact hn
  | cons code codes ih =>
      rw [List.forall_mem_cons] at h
      exact Nat.max_lt.mpr ⟨h.1, ih h.2⟩

namespace Machine

/-- What can have become of a new machine in use, and the codes that it has run, the last one first.
Registered actions are composed; a call for registration may be refused. -/
inductive Used : Machine → List Code → Prop where
  | new {set : InstructionSet} (h : set.Reachable Action.Composed) (debug : Bool) :
      Used { instructions := set, debug } []
  | register {m : Machine} {codes : List Code} (h : Used m codes) {e : Entry}
      (he : e.action.Composed) : Used { m with instructions := (m.instructions.call e).2 } codes
  | run {m : Machine} {codes : List Code} (h : Used m codes) {code : Code} {out : Stdout}
      {budget : Option Nat} {n : Nat} {report : Report}
      (hr : m.Reports code out budget n report) : Used report.machine (code :: codes)
  | rewind {m : Machine} {codes : List Code} (h : Used m codes) : Used m.rewind codes
  | reset {m : Machine} {codes : List Code} (h : Used m codes) : Used m.reset codes
  | setDebug {m : Machine} {codes : List Code} (h : Used m codes) (debug : Bool) :
      Used { m with debug } codes

variable {m : Machine} {codes : List Code}

theorem Used.reachable (h : m.Used codes) : m.instructions.Reachable Action.Composed := by
  induction h with
  | new h => exact h
  | register _ he ih => exact ih.call he
  | run _ hr ih =>
      rw [hr.machine_eq]
      exact ih
  | rewind _ ih | reset _ ih | setDebug _ _ ih => exact ih

/-- **The counter is at most the length of the longest code so far.** -/
theorem Used.pc_le (h : m.Used codes) : m.state.pc ≤ longest codes := by
  induction h with
  | new => exact Nat.le_refl 0
  | register _ _ ih | setDebug _ _ ih => exact ih
  | rewind | reset => exact Nat.zero_le _
  | @run m codes h code _ _ _ _ hr ih =>
      -- a run that starts beyond the code does not move the counter
      rcases Nat.le_total m.state.pc code.size with hle | hle
      · exact Nat.le_trans (hr.pc_le h.reachable hle) (Nat.le_max_left _ _)
      · rw [hr.pc_eq hle]
        exact Nat.le_trans ih (Nat.le_max_right _ _)

/-- Wherever a run looks for an instruction, the counter is within its code, unless it has not moved
since before the run. -/
theorem Used.pc_cases (h : m.Used codes) {code : Code} {out : Stdout} {budget : Option Nat}
    {k : Nat} {t : State} (hl : m.Looks code out budget k t) :
    t.pc ≤ code.size ∨ k = 0 ∧ t.pc = m.state.pc := by
  rcases Nat.le_total m.state.pc code.size with hle | hle
  · exact .inl (hl.bounds h.reachable hle).pc_le
  · obtain ⟨rfl, rfl⟩ := hl.eq_start hle
    exact .inr ⟨rfl, rfl⟩

/-- A run that finds no instruction ends there. -/
theorem Looks.reports_outOfBounds {code : Code} {out : Stdout} {budget : Option Nat} {k : Nat}
    {t : State} (hl : m.Looks code out budget k t) (hpc : code.size ≤ t.pc) :
    ∃ report, m.Reports code out budget k report ∧
      report.result = .error (.outOfBounds (.ofCount t.pc) code.size) ∧
      report.machine.state = t := by
  obtain ⟨es, hs⟩ := hl.steps
  have hstep : (m.program code out).step t = _ :=
    Program.step_of_none (Array.getElem?_eq_none hpc)
  exact ⟨_, reports_of_runs (.ends (.faulted hs hstep) hl.within), rfl, rfl⟩

/-- **The counter is safe over whole sessions.**

Let a machine have been in use in any way, with composed actions and codes of fewer than 2⁶³
instructions.  Its counter is at most the length of the longest code that it has run.  Whatever code
of such a length it runs next, the counter is at most the length of the longest code then, wherever
the run looks for an instruction: it can be moved on and is a word without loss.  If an instruction
is there, the counter is within the code after it, whether it faults or not; if none is, the run
ends with the counter reported as it is, and if it is not the first that was looked for, that is the
length of the code.  A run that comes back has fetched nothing and left the counter as it was, or
leaves it within the code. -/
theorem counter_safe (h : m.Used codes) (hcodes : ∀ code ∈ codes, code.size < 2 ^ 63) :
    m.state.pc ≤ longest codes ∧
    ∀ (code : Code) (out : Stdout) (budget : Option Nat), code.size < 2 ^ 63 →
      (∀ k t, m.Looks code out budget k t →
        t.pc ≤ longest (code :: codes) ∧ t.pc + 1 < 2 ^ 64 ∧ (Word.ofCount t.pc).toInt = t.pc ∧
        (t.pc < code.size → ((m.program code out).step t).state.pc ≤ code.size) ∧
        (code.size ≤ t.pc → (0 < k → t.pc = code.size) ∧
          ∃ report, m.Reports code out budget k report ∧
            report.result = .error (.outOfBounds (.ofCount t.pc) code.size) ∧
            report.machine.state = t)) ∧
      ∀ n report, m.Reports code out budget n report →
        (∀ pc, ¬ m.Fetches code out budget pc) ∧ report.machine.state.pc = m.state.pc ∨
          report.machine.state.pc ≤ code.size := by
  refine ⟨h.pc_le, fun code out budget hcode => ⟨fun k t hl => ?_, fun n report hr => ?_⟩⟩
  · have hle : t.pc ≤ longest (code :: codes) := by
      rw [longest_cons]
      rcases h.pc_cases hl with hpc | ⟨-, hpc⟩
      · exact Nat.le_trans hpc (Nat.le_max_left _ _)
      · rw [hpc]
        exact Nat.le_trans h.pc_le (Nat.le_max_right _ _)
    have hlt : t.pc < 2 ^ 63 :=
      Nat.lt_of_le_of_lt hle (longest_lt (by decide) (List.forall_mem_cons.mpr ⟨hcode, hcodes⟩))
    refine ⟨hle, by omega, Word.toInt_ofCount hlt, fun hin => ?_, fun hout => ⟨fun hk => ?_, ?_⟩⟩
    · obtain ⟨es, hs⟩ := hl.steps
      have hbounds : (m.program code out).Bounds t :=
        ⟨steps_codeLength h.reachable hs, Nat.le_of_lt hin⟩
      exact (hbounds.step h.reachable).pc_le
    · rcases h.pc_cases hl with hpc | ⟨rfl, -⟩
      · exact Nat.le_antisymm hpc hout
      · cases hk
    · exact hl.reports_outOfBounds hout
  · rcases Nat.le_total m.state.pc code.size with hle | hle
    · exact .inr (hr.pc_le h.reachable hle)
    · exact .inl ⟨fun _ => not_fetches hle, hr.pc_eq hle⟩

/-- A machine that has run off the end of two instructions, and then meets a code of one: its first
look is beyond the code, and the place is reported as it is. -/
theorem counter_safe_stale :
    let m : Machine := { state := { stack := [2, 1], pc := 2, codeLength := 2 } }
    m.Used [#[⟨1, 1⟩, ⟨1, 2⟩]] ∧ m.state.pc ≤ longest [#[⟨1, 1⟩, ⟨1, 2⟩]] ∧
    (Word.ofCount 2).toInt = 2 ∧
    (∀ pc, ¬ m.Fetches #[⟨2, 0⟩] .connected none pc) ∧
    ∃ report, m.Reports #[⟨2, 0⟩] .connected none 0 report ∧
      report.result = .error (.outOfBounds (.ofCount 2) 1) ∧ report.machine.state.pc = 2 := by
  intro m
  have first : Reports {} #[⟨1, 1⟩, ⟨1, 2⟩] .connected none 2 _ :=
    .unbounded (show run? _ _ 3 _ = some _ from rfl)
  have used : m.Used [#[⟨1, 1⟩, ⟨1, 2⟩]] := (Used.new .standard false).run first
  obtain ⟨bound, next⟩ := counter_safe used (by simp)
  obtain ⟨looks, reports⟩ := next #[⟨2, 0⟩] .connected none (by decide)
  obtain ⟨-, -, word, -, beyond⟩ := looks 0 _ (Program.Looks.zero nofun)
  obtain ⟨-, report, hr, hresult, hstate⟩ := beyond (by decide)
  refine ⟨used, bound, word, ?_, report, hr, hresult, by rw [hstate]; rfl⟩
  rcases reports 0 report hr with ⟨unfetched, -⟩ | hle
  · exact unfetched
  · rw [hstate] at hle
    exact absurd hle (by decide)

end Machine

/-- **Whatever a session is told to do, its machine stays one in use**: a run that comes back is one
more code that was run. -/
theorem Session.used_perform {s : Session} {codes : List Code} (h : s.machine.Used codes)
    (patience : Nat) (c : Command) :
    (s.perform patience c).session.machine.Used codes ∨
      (s.perform patience c).session.machine.Used (s.code :: codes) := by
  cases c with
  | register mnemonic body =>
      rw [(s.perform_register patience mnemonic body).2]
      exact .inl (h.register (e := ⟨mnemonic, body.action⟩) body.composed_action)
  | assemble source =>
      rw [perform]
      cases s.machine.instructions.assemble source <;> exact .inl h
  | load code => exact .inl h
  | run limit out =>
      cases limit with
      | some limit => exact .inr (h.run (.bounded limit))
      | none =>
          rw [perform]
          cases hr : s.machine.run? s.code patience out with
          | some report => exact .inr (h.run (.unbounded hr))
          | none => exact .inl h -- given up, with the machine as it was
  | rewind => exact .inl h.rewind
  | reset => exact .inl h.reset
  | setDebug on => exact .inl (h.setDebug on)

end StackMachine
