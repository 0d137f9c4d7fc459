import Mathlib.Algebra.Group.Nat.Defs
import StackMachine.Proofs.Report

/-!
# Proofs — Loop

The execution loop, said once more without it.  One step takes the instruction at the counter, moves
the counter past it, and performs its action on what is then the state
(`InstructionSet.Performs`).  `Iterates n f s t`: `n` such steps in a row lead from `s` to `t`, the
last of them answering `f`, and all before it asking for the next.  A state from which no step
succeeds fails in one of three ways, each with its own state (`InstructionSet.Fails`); after `n`
steps a run is over in one of four (`InstructionSet.Closes`).

`reports_iff_iterates` says that a run comes back with a result and a state exactly if the iteration
leads to them.
-/

namespace StackMachine

namespace InstructionSet

variable (set : InstructionSet) (code : Code) (out : Stdout)

/-- The instruction at the counter of `s`, performed on `s` with the counter moved past it, comes to
`r` and leaves `t`. -/
inductive Performs (s : State) : Except Fault Flow → State → Prop where
  | intro {i : Instruction} {a : Action} {r : Except Fault Flow} {t : State} {ps : List Print}
      (hi : code[s.pc]? = some i) (ha : set.action? i.opcode = some a)
      (h : a i.argument out { s with pc := s.pc + 1 } = ⟨r, t, ps⟩) : Performs s r t

/-- No step succeeds from `s`: nothing is there to fetch, and the state is as it was; what is there
has no action, and the counter has moved on; or the action faults, and the state is what the action
made of it. -/
inductive Fails (s : State) : Fault → State → Prop where
  | outOfBounds (h : code.size ≤ s.pc) : Fails s (.outOfBounds (.ofCount s.pc) code.size) s
  | unknownOpcode {i : Instruction} (hi : code[s.pc]? = some i)
      (ha : set.action? i.opcode = none) :
      Fails s (.unknownOpcode i.opcode s.pc) { s with pc := s.pc + 1 }
  | action {e : Fault} {t : State} (h : set.Performs code out s (.error e) t) : Fails s e t

/-- `n` steps from `s` succeed and lead to `t`; all but possibly the last ask for the next, and the
last answers `f`. -/
inductive Iterates (s : State) : Nat → Flow → State → Prop where
  | none : Iterates s 0 .next s
  | more {n : Nat} {f : Flow} {t u : State} (hs : Iterates s n .next t)
      (h : set.Performs code out t (.ok f) u) : Iterates s (n + 1) f u

/-- What a run comes back with that is in `t` after `n` steps, the last of which answered `f`: the
result, and the state that it is left in. -/
inductive Closes (budget : Option Nat) (n : Nat) (t : State) :
    Flow → Except Fault Answer → State → Prop where
  | answer {value : Word} {rest : List Word} (h : t.stack = value :: rest) :
      Closes budget n t .halt (.ok ⟨value, t.output⟩) t
  | empty (h : t.stack = []) : Closes budget n t .halt (.error (.stackUnderflow 1 0)) t
  | exhausted (hb : budget = some n) : Closes budget n t .next (.error (.stepLimitExceeded n)) t
  | failed {e : Fault} {u : State} (hb : budget ≠ some n) (h : set.Fails code out t e u) :
      Closes budget n t .next (.error e) u

variable {set code out}

/-- A step that asks for the next, before the others. -/
theorem Iterates.cons {n : Nat} {f : Flow} {s t u : State}
    (h : set.Performs code out s (.ok .next) t) (hs : set.Iterates code out t n f u) :
    set.Iterates code out s (n + 1) f u := by
  induction hs with
  | none => exact .more .none h
  | more _ h' ih => exact .more ih h'

/-- Steps that ask for the next, before the others. -/
theorem Iterates.trans {m n : Nat} {f : Flow} {s t u : State}
    (h : set.Iterates code out s m .next t) (hs : set.Iterates code out t n f u) :
    set.Iterates code out s (m + n) f u := by
  induction hs with
  | none => exact h
  | more _ h' ih => exact .more ih h'

end InstructionSet

/-! ### One step of a program -/

namespace Program

variable {p : Program} {n : Nat} {s t u : State} {f : Flow} {e : Fault}

/-- **A step succeeds or fails**, whatever the program lets out. -/
theorem performs_or_fails (p : Program) (s : State) :
    (∃ f, (p.step s).result = .ok f ∧
      p.instructions.Performs p.code p.out s (.ok f) (p.step s).state) ∨
    ∃ e, (p.step s).result = .error e ∧
      p.instructions.Fails p.code p.out s e (p.step s).state := by
  cases hi : p.code[s.pc]? with
  | none =>
      rw [step_of_none hi]
      exact .inr ⟨_, rfl, .outOfBounds (Array.getElem?_eq_none_iff.mp hi)⟩
  | some i =>
      cases ha : p.instructions.action? i.opcode with
      | none =>
          rw [step_of_unknown hi ha]
          exact .inr ⟨_, rfl, .unknownOpcode hi ha⟩
      | some a =>
          rcases h : a i.argument p.out { s with pc := s.pc + 1 } with ⟨e | f, t, ps⟩
          · rw [step_of_error hi ha h]
            exact .inr ⟨e, rfl, .action (.intro hi ha h)⟩
          · rw [step_of_ok hi ha h]
            exact .inl ⟨f, rfl, .intro hi ha h⟩

theorem step_ok_iff :
    (∃ es, p.step s = ⟨.ok f, t, es⟩) ↔ p.instructions.Performs p.code p.out s (.ok f) t := by
  constructor
  · rintro ⟨es, h⟩
    rcases p.performs_or_fails s with ⟨g, hr, hp⟩ | ⟨e, hr, -⟩ <;> rw [h] at hr
    · cases hr
      rwa [h] at hp
    · cases hr
  · rintro ⟨hi, ha, h⟩
    exact ⟨_, step_of_ok hi ha h⟩

theorem step_error_iff :
    (∃ es, p.step s = ⟨.error e, t, es⟩) ↔ p.instructions.Fails p.code p.out s e t := by
  constructor
  · rintro ⟨es, h⟩
    rcases p.performs_or_fails s with ⟨g, hr, -⟩ | ⟨e, hr, hf⟩ <;> rw [h] at hr
    · cases hr
    · cases hr
      rwa [h] at hf
  · rintro (h | ⟨hi, ha⟩ | ⟨⟨hi, ha, h⟩⟩)
    · exact ⟨_, step_of_none (Array.getElem?_eq_none_iff.mpr h)⟩
    · exact ⟨_, step_of_unknown hi ha⟩
    · exact ⟨_, step_of_error hi ha h⟩

/-! ### Steps in a row -/

theorem iterates_next_iff :
    p.instructions.Iterates p.code p.out s n .next t ↔ ∃ es, p.Steps n s es t := by
  constructor
  · generalize hf : Flow.next = f
    intro h
    induction h with
    | none => exact ⟨[], .refl s⟩
    | more _ h ih =>
        subst hf
        obtain ⟨es, hs⟩ := ih rfl
        obtain ⟨fs, h⟩ := step_ok_iff.mpr h
        exact ⟨_, hs.trans (.one h)⟩
  · rintro ⟨es, h⟩
    induction h with
    | refl => exact .none
    | more h _ ih => exact ih.cons (step_ok_iff.mp ⟨_, h⟩)

theorem iterates_halt_iff :
    p.instructions.Iterates p.code p.out s n .halt t ↔ ∃ es, p.Ends n s es t .halted := by
  constructor
  · rintro (_ | ⟨hs, h⟩)
    obtain ⟨es, hs⟩ := iterates_next_iff.mp hs
    obtain ⟨fs, h⟩ := step_ok_iff.mpr h
    exact ⟨_, .halted hs h⟩
  · rintro ⟨_, _ | _⟩
    rename_i hs h
    exact .more (iterates_next_iff.mpr ⟨_, hs⟩) (step_ok_iff.mp ⟨_, h⟩)

theorem ends_faulted_iff :
    (∃ es, p.Ends n s es u (.faulted e)) ↔
      ∃ t, p.instructions.Iterates p.code p.out s n .next t ∧
        p.instructions.Fails p.code p.out t e u := by
  constructor
  · rintro ⟨_, _ | _⟩
    rename_i hs h
    exact ⟨_, iterates_next_iff.mpr ⟨_, hs⟩, step_error_iff.mp ⟨_, h⟩⟩
  · rintro ⟨t, hs, h⟩
    obtain ⟨es, hs⟩ := iterates_next_iff.mp hs
    obtain ⟨fs, h⟩ := step_error_iff.mpr h
    exact ⟨_, .faulted hs h⟩

end Program

/-! ### The loop -/

theorem Word.toInt_ofCount {n : Nat} (h : n < 2 ^ 63) : (ofCount n).toInt = n :=
  Int64.toInt_ofNat_of_lt h

theorem Word.text_ofCount {n : Nat} (h : n < 2 ^ 63) : (ofCount n).text = n.repr := by
  rw [text, toInt_ofCount h]
  rfl

/-- Where a run is left, said of steps in a row. -/
theorem Program.exists_runs_iff {p : Program} {budget : Option Nat} {n : Nat} {s t : State}
    {r : Except Fault Answer} :
    (∃ es c, p.Runs budget n s es t c ∧ r = Machine.answer n t c) ↔
      ∃ f u, p.instructions.Iterates p.code p.out s n f u ∧ (∀ limit ∈ budget, n ≤ limit) ∧
        p.instructions.Closes p.code p.out budget n u f r t := by
  constructor
  · rintro ⟨es, c, h | ⟨h, hb⟩, rfl⟩
    · rename_i stop hb
      cases stop with
      | halted =>
          refine ⟨.halt, t, iterates_halt_iff.mpr ⟨es, h⟩, hb, ?_⟩
          cases hs : t.stack with
          | nil =>
              simp only [Machine.answer, hs]
              exact .empty hs
          | cons w ws =>
              simp only [Machine.answer, hs]
              exact .answer hs
      | faulted e =>
          obtain ⟨u, hu, hf⟩ := ends_faulted_iff.mp ⟨es, h⟩
          -- a fault is reached only if the budget reaches beyond the steps before it
          refine ⟨.next, u, hu, fun limit hl => Nat.le_of_succ_le (hb limit hl), .failed ?_ hf⟩
          rintro rfl
          exact Nat.not_succ_le_self n (hb n rfl)
    · subst hb
      refine ⟨.next, t, iterates_next_iff.mpr ⟨es, h⟩, ?_, .exhausted rfl⟩
      rintro _ ⟨⟩
      exact Nat.le_refl n
  · rintro ⟨f, u, hu, hb, h⟩
    cases h with
    | answer hs =>
        obtain ⟨es, h⟩ := iterates_halt_iff.mp hu
        exact ⟨es, _, .ends h hb, by simp only [Machine.answer, hs]⟩
    | empty hs =>
        obtain ⟨es, h⟩ := iterates_halt_iff.mp hu
        exact ⟨es, _, .ends h hb, by simp only [Machine.answer, hs]⟩
    | exhausted hn =>
        obtain ⟨es, h⟩ := iterates_next_iff.mp hu
        exact ⟨es, _, .exhausts h hn, rfl⟩
    | failed hn hf =>
        obtain ⟨es, h⟩ := ends_faulted_iff.mpr ⟨u, hu, hf⟩
        refine ⟨es, _, .ends h fun limit hl => ?_, rfl⟩
        refine Nat.lt_of_le_of_ne (hb limit hl) ?_
        rintro rfl
        exact hn hl

namespace Machine

/-- Steps after which a run is over are those of a run that comes back. -/
theorem exists_reports_of_closes {m : Machine} {code : Code} {out : Stdout} {budget : Option Nat}
    {n : Nat} {f : Flow} {r : Except Fault Answer} {t u : State}
    (hu : m.instructions.Iterates code out { m.state with codeLength := code.size } n f u)
    (hb : ∀ limit ∈ budget, n ≤ limit) (h : m.instructions.Closes code out budget n u f r t) :
    ∃ report, m.Reports code out budget n report ∧ report.result = r ∧
      report.machine = { m with state := t } := by
  obtain ⟨es, c, hr, rfl⟩ :=
    (Program.exists_runs_iff (p := m.program code out)).mpr ⟨f, u, hu, hb, h⟩
  exact ⟨_, reports_of_runs hr, rfl, rfl⟩

/-- **The execution loop iterates one step**: fetch, move the counter on, act.  A run comes back
after `n` instructions with the result `r` and the state `t` exactly if `n` steps in a row, no more
than the budget, lead from the start to where a run is over in `r` and `t`.  A run under a budget
always comes back; all of the machine but its state is as it was; and a counter below 2⁶³ that is
outside the code is reported as it is. -/
theorem reports_iff_iterates (m : Machine) (code : Code) (out : Stdout) (budget : Option Nat) :
    (∀ n r t,
      (∃ report, m.Reports code out budget n report ∧ report.result = r ∧
        report.machine = { m with state := t }) ↔
      ∃ f u, m.instructions.Iterates code out { m.state with codeLength := code.size } n f u ∧
        (∀ limit ∈ budget, n ≤ limit) ∧ m.instructions.Closes code out budget n u f r t) ∧
    (∀ n report, m.Reports code out budget n report →
      report.machine = { m with state := report.machine.state }) ∧
    (∀ limit, ∃ n report, m.Reports code out (some limit) n report) ∧
    ∀ pc < 2 ^ 63, (Word.ofCount pc).toInt = pc := by
  refine ⟨fun n r t => ?_, fun n report h => h.machine_eq, fun limit => ⟨_, _, .bounded limit⟩,
    fun pc h => Word.toInt_ofCount h⟩
  refine Iff.trans ?_ (Program.exists_runs_iff (p := m.program code out))
  constructor
  · rintro ⟨report, h, rfl, ht⟩
    obtain ⟨es, u, c, hr, rfl⟩ := h.runs
    obtain rfl : u = t := congrArg Machine.state ht
    exact ⟨es, c, hr, rfl⟩
  · rintro ⟨es, c, hr, rfl⟩
    exact ⟨_, reports_of_runs hr, rfl, rfl⟩

/-- A division by zero, which leaves its operands and the counter past it; and a counter that is
outside the code before anything is fetched. -/
theorem reports_iff_iterates_standard :
    (∃ report, ({} : Machine).Reports #[⟨1, 4⟩, ⟨1, 0⟩, ⟨5, 0⟩, ⟨2, 0⟩] .connected none 2 report ∧
      report.result = .error .divisionByZero ∧
      report.machine = { state := { stack := [0, 4], pc := 3, codeLength := 4 } }) ∧
    (∃ report, ({ state := { pc := 7 } } : Machine).Reports #[⟨2, 0⟩] .connected (some 5) 0 report ∧
      report.result = .error (.outOfBounds (.ofCount 7) 1) ∧
      report.machine = { state := { pc := 7, codeLength := 1 } }) ∧
    (Word.ofCount 7).toInt = 7 := by
  refine ⟨((reports_iff_iterates {} _ _ none).1 2 _ _).mpr ?_,
    ((reports_iff_iterates _ _ _ (some 5)).1 0 _ _).mpr ?_,
    (reports_iff_iterates {} #[] .connected none).2.2.2 7 (by decide)⟩
  · have loads : InstructionSet.standard.Iterates #[⟨1, 4⟩, ⟨1, 0⟩, ⟨5, 0⟩, ⟨2, 0⟩] .connected
        { codeLength := 4 } 2 .next { stack := [0, 4], pc := 2, codeLength := 4 } :=
      .more (.more .none (.intro rfl rfl rfl)) (.intro rfl rfl rfl)
    exact ⟨.next, _, loads, nofun, .failed nofun (.action (.intro rfl rfl rfl))⟩
  · exact ⟨.next, _, .none, by simp, .failed (by simp) (.outOfBounds (by decide))⟩

end Machine

end StackMachine
