import StackMachine.Proofs.Execution

/-!
# Proofs — Report

A run with a budget and a run without one, as one notion.  `m.Reports code out budget n report`: the
run of the code comes back after `n` completed instructions, with this report.  A run under a budget
always does; one without a budget does if it ends.

`p.Runs budget n s es t c` is the derivation behind it.  The run is left in `t` at its end
(`c = some stop`) or because its budget is used up (`c = none`), and all that the machine reports is
a function of where the run was left (`Machine.reported`, `reports_iff`).
-/

namespace StackMachine

namespace Program

/-- From `s`, the run completes `n` instructions, lets out `es`, and is left in `t`: at its end,
within the budget if there is one, or when the budget is used up. -/
inductive Runs (p : Program) (budget : Option Nat) :
    Nat → State → List Effect → State → Option Stop → Prop where
  | ends {n : Nat} {s t : State} {es : List Effect} {stop : Stop} (h : p.Ends n s es t stop)
      (hb : ∀ limit ∈ budget, stop.budget n ≤ limit) : Runs p budget n s es t (some stop)
  | exhausts {n : Nat} {s t : State} {es : List Effect} (h : p.Steps n s es t)
      (hb : budget = some n) : Runs p budget n s es t none

/-- The run from `s` is in `t` after `k` instructions and looks for another there: it has come to no
end before, and its budget is not used up. -/
structure Looks (p : Program) (budget : Option Nat) (s : State) (k : Nat) (t : State) : Prop where
  steps  : ∃ es, p.Steps k s es t
  within : ∀ limit ∈ budget, k < limit

section Looks

variable {p : Program} {budget : Option Nat} {k n : Nat} {s t u : State}

theorem Looks.zero (h : ∀ limit ∈ budget, 0 < limit) : p.Looks budget s 0 s := ⟨⟨[], .refl s⟩, h⟩

/-- What the rest of a run looks at, the run does. -/
theorem Looks.succ {es : List Effect} (h : p.step s = ⟨.ok .next, t, es⟩)
    (hl : p.Looks (some n) t k u) : p.Looks (some (n + 1)) s (k + 1) u := by
  obtain ⟨⟨fs, hs⟩, hb⟩ := hl
  refine ⟨⟨_, .more h hs⟩, ?_⟩
  rintro _ ⟨⟩
  exact Nat.succ_lt_succ (hb n rfl)

theorem Looks.mono {limit : Nat} (h : p.Looks (some limit) s k t) (hb : ∀ l ∈ budget, limit ≤ l) :
    p.Looks budget s k t :=
  ⟨h.steps, fun l hl => Nat.lt_of_lt_of_le (h.within limit rfl) (hb l hl)⟩

/-- There is one state in which a run looks for its next instruction after `k` others. -/
theorem Looks.state_eq (h : p.Looks budget s k t) : t = (p.advance k { state := s }).state := by
  obtain ⟨⟨es, hs⟩, -⟩ := h
  rw [advance_of_steps 0 #[] hs]

end Looks

/-- What every instruction preserves holds where a run is left, be it after a fault. -/
theorem Runs.invariant {p : Program} {I : State → Prop} (hp : ∀ s, I s → I (p.step s).state)
    {budget : Option Nat} {n : Nat} {s t : State} {es : List Effect} {c : Option Stop}
    (h : p.Runs budget n s es t c) (hs : I s) : I t := by
  cases h with
  | exhausts h _ => exact h.invariant hp hs
  | ends h _ =>
      cases h with
      | @halted _ _ u _ _ _ h hu | @faulted _ _ u _ _ _ _ h hu =>
          have ht := hp u (h.invariant hp hs)
          rwa [hu] at ht

/-- A run that neither budget stops is the same under both. -/
theorem Runs.of_budget {p : Program} {budget budget' : Option Nat} {n : Nat} {s t : State}
    {es : List Effect} {c : Option Stop} (h : p.Runs budget n s es t c)
    (hb : ∀ limit ∈ budget, ¬ ∃ fs u, p.Steps limit s fs u)
    (hb' : ∀ limit ∈ budget', ¬ ∃ fs u, p.Steps limit s fs u) : p.Runs budget' n s es t c := by
  cases h with
  | exhausts h hn => exact absurd ⟨_, _, h⟩ (hb n hn)
  | ends h _ =>
      exact .ends h fun limit hl => Nat.le_of_not_lt fun hlt => hb' limit hl (h.take hlt)

section LetOut

variable {p : Program} {n : Nat} {s t : State} {es : List Effect} {budget : Option Nat}
  {c : Option Stop}

section Joined

variable {Q : List Effect → Prop} (nil : Q []) (append : ∀ {es fs}, Q es → Q fs → Q (es ++ fs))
  (hp : ∀ s, Q (p.step s).emitted)

include hp

theorem emitted_of_step {r : Except Fault Flow} (h : p.step s = ⟨r, t, es⟩) : Q es := by
  have hs := hp s
  rwa [h] at hs

include nil append

theorem Steps.emitted (h : p.Steps n s es t) : Q es := by
  induction h with
  | refl => exact nil
  | more h _ ih => exact append (emitted_of_step hp h) ih

/-- What holds of what single instructions let out, and of such put together, holds of what a run
lets out. -/
theorem Runs.emitted (h : p.Runs budget n s es t c) : Q es := by
  cases h with
  | exhausts h _ => exact h.emitted nil append hp
  | ends h _ =>
      cases h with
      | halted h hu | faulted h hu => exact append (h.emitted nil append hp) (emitted_of_step hp hu)

end Joined

theorem Runs.forall_mem {Q : Effect → Prop} (hp : ∀ s, ∀ e ∈ (p.step s).emitted, Q e)
    (h : p.Runs budget n s es t c) : ∀ e ∈ es, Q e :=
  h.emitted (Q := fun es => ∀ e ∈ es, Q e) nofun
    (fun hes hfs => List.forall_mem_append.mpr ⟨hes, hfs⟩) hp

end LetOut

/-- Any two amounts of fuel that reach the end reach the same. -/
theorem advance_eq_of_stop {p : Program} {r : Run} {a b : Nat}
    (ha : (p.advance a r).stop.isSome = true) (hb : (p.advance b r).stop.isSome = true) :
    p.advance a r = p.advance b r := by
  rcases Nat.le_total a b with hab | hba
  · obtain ⟨k, rfl⟩ := Nat.exists_eq_add_of_le hab
    rw [p.advance_add, p.advance_of_stop ha]
  · obtain ⟨k, rfl⟩ := Nat.exists_eq_add_of_le hba
    rw [p.advance_add, p.advance_of_stop hb]

end Program

namespace Machine

variable {m : Machine} {code : Code} {out : Stdout} {budget : Option Nat} {n limit fuel : Nat}
  {s t : State} {es : List Effect} {stop : Stop} {c : Option Stop} {report : Report}

/-! ### What is reported of a run -/

/-- The result of a run that was left in `t` after `n` instructions. -/
def answer (n : Nat) (t : State) : Option Stop → Except Fault Answer
  | none              => .error (.stepLimitExceeded n)
  | some (.faulted e) => .error e
  | some .halted      =>
    match t.stack with
    | []         => .error (.stackUnderflow 1 0)
    | value :: _ => .ok ⟨value, t.output⟩

/-- What is let out after the last instruction. -/
def closing (n : Nat) (t : State) : Option Stop → List Effect
  | none              => [.event (.stepLimitExceeded n)]
  | some (.faulted _) => []
  | some .halted      =>
    match t.stack with
    | []         => []
    | value :: _ => [.event (.halted value n)]

/-- The report of a run that completed `n` instructions, let out `es` and was left in `t`. -/
def reported (m : Machine) (code : Code) (n : Nat) (es : List Effect) (t : State)
    (c : Option Stop) : Report :=
  ⟨answer n t c, { m with state := t }, (m.start code).log ++ (es ++ closing n t c)⟩

theorem ended_eq_reported (m : Machine) (code : Code) (n : Nat) (es : List Effect) (t : State)
    (stop : Stop) : m.ended code n es t stop = m.reported code n es t (some stop) := by
  cases stop with
  | faulted e => simp only [ended, conclude, reported, answer, closing, List.append_nil]
  | halted =>
      rw [ended, conclude, reported, answer, closing]
      cases t.stack with
      | nil => simp only [List.append_nil]
      | cons w ws => exact congrArg _ (Array.ext' (by simp))

theorem exhausted_eq_reported (m : Machine) (code : Code) (n : Nat) (es : List Effect) (t : State) :
    m.exhausted code n es t = m.reported code n es t none :=
  congrArg _ (Array.ext' (by simp [closing]))

@[simp] theorem reported_result (m : Machine) (code : Code) (n : Nat) (es : List Effect)
    (t : State) (c : Option Stop) : (m.reported code n es t c).result = answer n t c := rfl

theorem stdout_reported (m : Machine) (code : Code) (n : Nat) (es : List Effect) (t : State)
    (c : Option Stop) : (m.reported code n es t c).log.stdout = Effect.printed es := by
  cases c with
  | none => rw [← exhausted_eq_reported, exhausted_stdout]
  | some stop => rw [← ended_eq_reported, ended_stdout]

theorem toList_log_reported (m : Machine) (code : Code) (n : Nat) (es : List Effect) (t : State)
    (c : Option Stop) :
    (m.reported code n es t c).log.toList =
      m.preamble code ++ [.event (.runStarted code.size m.state.pc)] ++ (es ++ closing n t c) := by
  rw [reported, Array.toList_appendList, start]

theorem forall_mem_closing {Q : Effect → Prop} (he : ∀ n, Q (.event (.stepLimitExceeded n)))
    (hh : ∀ w n, Q (.event (.halted w n))) (n : Nat) (t : State) (c : Option Stop) :
    ∀ e ∈ closing n t c, Q e := by
  rcases c with _ | _ | _
  · simpa [closing] using he n
  · rw [closing]
    cases t.stack with
    | nil => nofun
    | cons w ws => simpa using hh w n
  · nofun

/-- The events of a run: those before it, its start, those of its instructions, and its end. -/
theorem events_reported (m : Machine) (code : Code) (n : Nat) (es : List Effect) (t : State)
    (c : Option Stop) :
    (m.reported code n es t c).log.events =
      (m.preamble code).filterMap Effect.event? ++ (.runStarted code.size m.state.pc ::
        (es.filterMap Effect.event? ++ (closing n t c).filterMap Effect.event?)) := by
  simp [Log.events, toList_log_reported, Effect.event?]

/-! ### Runs with and without a budget -/

/-- The run of the code is in `t` after `k` instructions and looks for another there. -/
def Looks (m : Machine) (code : Code) (out : Stdout) (budget : Option Nat) (k : Nat) (t : State) :
    Prop :=
  (m.program code out).Looks budget (m.start code).state k t

/-- The run of the code fetches the instruction at `pc`. -/
def Fetches (m : Machine) (code : Code) (out : Stdout) (budget : Option Nat) (pc : Nat) : Prop :=
  ∃ k t, m.Looks code out budget k t ∧ t.pc = pc ∧ pc < code.size

/-- The run of the code comes back after `n` instructions: with the report of `runBounded` if there
is a budget, and with that of `run?`, given enough fuel, if there is none. -/
inductive Reports (m : Machine) (code : Code) (out : Stdout) :
    Option Nat → Nat → Report → Prop where
  | bounded (limit : Nat) : Reports m code out (some limit)
      ((m.program code out).advance limit (m.start code)).steps (m.runBounded code limit out)
  | unbounded {fuel : Nat} {report : Report} (h : m.run? code fuel out = some report) :
      Reports m code out none ((m.program code out).advance fuel (m.start code)).steps report

theorem reports_of_runs (h : (m.program code out).Runs budget n (m.start code).state es t c) :
    m.Reports code out budget n (m.reported code n es t c) := by
  cases h with
  | exhausts h hb =>
      subst hb
      have hr : m.Reports code out (some n) _ _ := .bounded n
      rwa [runBounded_of_steps h, advance_start_of_steps h, exhausted_eq_reported] at hr
  | ends h hb =>
      rw [← ended_eq_reported]
      cases budget with
      | none =>
          -- any fuel that reaches the end will do
          have hr := Reports.unbounded (run?_of_ends h (Nat.le_refl _))
          rwa [advance_start_of_ends h (Nat.le_refl _)] at hr
      | some limit =>
          have hr : m.Reports code out (some limit) _ _ := .bounded limit
          rwa [runBounded_of_ends h (hb limit rfl), advance_start_of_ends h (hb limit rfl)] at hr

theorem Reports.runs (h : m.Reports code out budget n report) :
    ∃ es t c, (m.program code out).Runs budget n (m.start code).state es t c ∧
      report = m.reported code n es t c := by
  cases h with
  | bounded limit =>
      rcases (m.program code out).steps_or_ends limit (m.start code).state with
        ⟨es, t, hs⟩ | ⟨n, es, t, stop, he, hl⟩
      · rw [advance_start_of_steps hs, runBounded_of_steps hs]
        exact ⟨es, t, none, .exhausts hs rfl, exhausted_eq_reported ..⟩
      · rw [advance_start_of_ends he hl, runBounded_of_ends he hl]
        refine ⟨es, t, some stop, .ends he ?_, ended_eq_reported ..⟩
        rintro _ ⟨⟩
        exact hl
  | @unbounded fuel _ h =>
      rcases (m.program code out).steps_or_ends fuel (m.start code).state with
        ⟨es, t, hs⟩ | ⟨n, es, t, stop, he, hl⟩
      · rw [run?_of_steps hs] at h
        cases h
      · rw [run?_of_ends he hl] at h
        cases h
        rw [advance_start_of_ends he hl]
        exact ⟨es, t, some stop, .ends he nofun, ended_eq_reported ..⟩

/-- **A report is a function of where the run was left.** -/
theorem reports_iff :
    m.Reports code out budget n report ↔
      ∃ es t c, (m.program code out).Runs budget n (m.start code).state es t c ∧
        report = m.reported code n es t c := by
  refine ⟨Reports.runs, ?_⟩
  rintro ⟨es, t, c, h, rfl⟩
  exact reports_of_runs h

theorem stop_isSome_of_run? (h : m.run? code fuel out = some report) :
    ((m.program code out).advance fuel (m.start code)).stop.isSome = true := by
  rw [run?, Option.map_eq_some_iff] at h
  obtain ⟨stop, hs, -⟩ := h
  rw [hs]
  rfl

/-- **There is one report.** -/
theorem Reports.unique {n' : Nat} {report' : Report} (h : m.Reports code out budget n report)
    (h' : m.Reports code out budget n' report') : n = n' ∧ report = report' := by
  cases h with
  | bounded limit =>
      cases h'
      exact ⟨rfl, rfl⟩
  | unbounded ha =>
      cases h' with
      | unbounded hb =>
          have he := Program.advance_eq_of_stop (stop_isSome_of_run? ha) (stop_isSome_of_run? hb)
          rw [run?, he, ← run?, hb] at ha
          exact ⟨by rw [he], (Option.some.inj ha).symm⟩

/-- **A fault that is reported was met somewhere**: at the budget, at a halt that leaves the stack
empty, or at an instruction that the run looked for. -/
theorem Reports.error_cases (h : m.Reports code out budget n report) {e : Fault}
    (hr : report.result = .error e) :
    e = .stepLimitExceeded n ∨ e = .stackUnderflow 1 0 ∨
      ∃ t, m.Looks code out budget n t ∧ ((m.program code out).step t).result = .error e := by
  obtain ⟨es, t, c, hs, rfl⟩ := h.runs
  rw [reported_result] at hr
  cases hs with
  | exhausts =>
      cases hr
      exact .inl rfl
  | ends he hb =>
      cases he with
      | halted hs hu =>
          rw [answer] at hr
          split at hr <;> cases hr
          exact .inr (.inl rfl)
      | faulted hs hu =>
          cases hr
          exact .inr (.inr ⟨_, ⟨⟨_, hs⟩, hb⟩, by rw [hu]⟩)

/-- Runs change the state of a machine and nothing else about it. -/
theorem Reports.machine_eq (h : m.Reports code out budget n report) :
    report.machine = { m with state := report.machine.state } := by
  obtain ⟨es, t, c, -, rfl⟩ := h.runs
  rfl

end Machine

end StackMachine
