import StackMachine.Proofs.Composed
import StackMachine.Proofs.Execution
import StackMachine.Proofs.Reachable

/-!
# Proofs — Budget

What a budget does to a run, and nothing more.

* `runBounded_threshold`: a run that halts as its `n`th instruction is reported alike under every
  budget from `n` on, a run that faults after `n` instructions under every budget from `n + 1` on,
  and every smaller budget stops the run after exactly as many instructions as it allows.  A run
  that does not end is stopped by every budget.
* `runBounded_resume`: a run that its budget stopped may be taken up again, with a budget or without
  one, and ends as the run would have ended in one piece.  For this nothing but the state may carry
  over; the length of the code is set anew on every run, so that actions must leave it alone, which
  composed actions do.
-/

namespace StackMachine

namespace Machine

variable {m : Machine} {code : Code} {out : Stdout} {n limit : Nat} {stop : Stop} {report : Report}

/-! ### One run under all budgets -/

theorem exhausts_of_steps {es : List Effect} {t : State}
    (h : (m.program code out).Steps limit (m.start code).state es t) :
    m.Exhausts code out limit (m.runBounded code limit out) :=
  ⟨es, t, h, runBounded_of_steps h⟩

theorem Exhausts.result_eq (h : m.Exhausts code out limit report) :
    report.result = .error (.stepLimitExceeded limit) := by
  obtain ⟨es, t, -, rfl⟩ := h
  rfl

theorem RunsTo.runBounded_eq (h : m.RunsTo code out n stop report) (hl : stop.budget n ≤ limit) :
    m.runBounded code limit out = report := by
  obtain ⟨es, t, he⟩ := h.ends
  rw [runBounded_of_ends he hl, h.eq_ended he]

theorem RunsTo.exhausts (h : m.RunsTo code out n stop report) (hl : limit < stop.budget n) :
    m.Exhausts code out limit (m.runBounded code limit out) := by
  obtain ⟨es, t, he⟩ := h.ends
  obtain ⟨fs, u, hs⟩ := he.take hl
  exact exhausts_of_steps hs

theorem Diverges.exhausts (h : m.Diverges code out) (limit : Nat) :
    m.Exhausts code out limit (m.runBounded code limit out) := by
  obtain ⟨es, t, hs⟩ := diverges_iff_steps.mp h limit
  exact exhausts_of_steps hs

/-- **The threshold of a budget is exact.**  Each run halts, faults or diverges; how it ends says
which budgets stop it, and all others leave its report as it is. -/
theorem runBounded_threshold (m : Machine) (code : Code) (out : Stdout) :
    ((∃ n stop report, m.RunsTo code out n stop report) ∨ m.Diverges code out) ∧
    (∀ n report, m.RunsTo code out n .halted report →
      (∀ limit ≥ n, m.runBounded code limit out = report) ∧
      ∀ limit < n, m.Exhausts code out limit (m.runBounded code limit out)) ∧
    (∀ n e report, m.RunsTo code out n (.faulted e) report →
      report.result = .error e ∧
      (∀ limit ≥ n + 1, m.runBounded code limit out = report) ∧
      ∀ limit ≤ n, m.Exhausts code out limit (m.runBounded code limit out)) ∧
    (m.Diverges code out → ∀ limit, m.Exhausts code out limit (m.runBounded code limit out)) := by
  refine ⟨runsTo_or_diverges m code out, fun n report h => ⟨?_, ?_⟩,
    fun n e report h => ⟨?_, ?_, ?_⟩, Diverges.exhausts⟩
  · exact fun limit hl => h.runBounded_eq hl
  · exact fun limit hl => h.exhausts hl
  · obtain ⟨es, t, he⟩ := h.ends
    rw [h.eq_ended he]
    rfl
  · exact fun limit hl => h.runBounded_eq hl
  · exact fun limit hl => h.exhausts (Nat.lt_succ_of_le hl)

/-- A run that halts on its second instruction, one that faults on its first, and one that stays on
its first. -/
theorem runBounded_threshold_standard :
    (∃ report, ({} : Machine).RunsTo #[⟨1, 9⟩, ⟨2, 0⟩] .connected 2 .halted report ∧
      (∀ limit ≥ 2, ({} : Machine).runBounded #[⟨1, 9⟩, ⟨2, 0⟩] limit .connected = report) ∧
      ∀ limit < 2, ({} : Machine).Exhausts #[⟨1, 9⟩, ⟨2, 0⟩] .connected limit
        (({} : Machine).runBounded #[⟨1, 9⟩, ⟨2, 0⟩] limit .connected)) ∧
    (∃ report, ({} : Machine).RunsTo #[⟨9, 7⟩] .connected 0 (.faulted (.outOfBounds 7 1)) report ∧
      (∀ limit ≥ 1, ({} : Machine).runBounded #[⟨9, 7⟩] limit .connected = report) ∧
      ∀ limit ≤ 0, ({} : Machine).Exhausts #[⟨9, 7⟩] .connected limit
        (({} : Machine).runBounded #[⟨9, 7⟩] limit .connected)) ∧
    ({} : Machine).Diverges #[⟨9, 0⟩] .connected ∧
      ∀ limit, ({} : Machine).Exhausts #[⟨9, 0⟩] .connected limit
        (({} : Machine).runBounded #[⟨9, 0⟩] limit .connected) := by
  have halts : ({} : Machine).RunsTo #[⟨1, 9⟩, ⟨2, 0⟩] .connected 2 .halted _ :=
    runsTo_of_ends (.halted (.one rfl) rfl)
  have faults : ({} : Machine).RunsTo #[⟨9, 7⟩] .connected 0 (.faulted (.outOfBounds 7 1)) _ :=
    runsTo_of_ends (.faulted (.refl _) rfl)
  have loops : ({} : Machine).Diverges #[⟨9, 0⟩] .connected :=
    diverges_iff_steps.mpr fun n => (Program.Steps.loop rfl n).imp fun _ h => ⟨_, h⟩
  exact ⟨⟨_, halts, (runBounded_threshold {} _ _).2.1 _ _ halts⟩,
    ⟨_, faults, ((runBounded_threshold {} _ _).2.2.1 _ _ _ faults).2⟩,
    loops, (runBounded_threshold {} _ _).2.2.2 loops⟩

/-! ### A run in two parts -/

/-- Composed actions leave the length of the code alone. -/
theorem step_codeLength {p : Program} (hp : p.instructions.Reachable Action.Composed) (s : State) :
    (p.step s).state.codeLength = s.codeLength := by
  rcases p.step_state_cases s with h | h | ⟨i, a, -, ha, h⟩
  · rw [h]
  · rw [h]
  · rw [h]
    exact ((hp.action Builtin.composed_action ha i.argument).evolves _ _).codeLength_eq

theorem steps_codeLength {p : Program} (hp : p.instructions.Reachable Action.Composed) {n : Nat}
    {s t : State} {es : List Effect} (h : p.Steps n s es t) : t.codeLength = s.codeLength :=
  h.invariant (I := fun u => u.codeLength = s.codeLength)
    (fun u hu => (step_codeLength hp u).trans hu) rfl

/-- The state that a run was left in is the state that it is taken up in. -/
theorem start_of_steps (hm : m.instructions.Reachable Action.Composed) {t : State}
    {es : List Effect} (h : (m.program code out).Steps n (m.start code).state es t) :
    (start { m with state := t } code).state = t := by
  have ht : t.codeLength = code.size := steps_codeLength hm h
  show { t with codeLength := code.size } = t
  rw [← ht]

/-- `whole` is what `first` and then `second` are in one piece: the machine is that of the second,
and the printed text that of both. -/
structure Joined (first second whole : Report) : Prop where
  machine : whole.machine = second.machine
  stdout  : whole.log.stdout = first.log.stdout ++ second.log.stdout

/-- A run that was left with the output of `es` is joined by its end. -/
theorem joined_ended (m : Machine) (code : Code) (a n k : Nat) (es fs : List Effect) (t u : State)
    (stop : Stop) :
    Joined (m.exhausted code a es t) (ended { m with state := t } code n fs u stop)
      (m.ended code k (es ++ fs) u stop) := by
  constructor
  · rw [ended_machine, ended_machine]
  · rw [ended_stdout, ended_stdout, exhausted_stdout, Effect.printed_append]

section Rest

variable {a b : Nat} {t u : State} {es fs : List Effect}
  (hm : m.instructions.Reachable Action.Composed)
  (hs : (m.program code out).Steps a (m.start code).state es t)

include hm hs

theorem steps_of_rest
    (h : (program { m with state := t } code out).Steps n (start { m with state := t } code).state
      fs u) : (m.program code out).Steps (a + n) (m.start code).state (es ++ fs) u := by
  rw [start_of_steps hm hs] at h
  exact hs.trans h

theorem ends_of_rest
    (h : (program { m with state := t } code out).Ends n (start { m with state := t } code).state
      fs u stop) : (m.program code out).Ends (a + n) (m.start code).state (es ++ fs) u stop := by
  rw [start_of_steps hm hs] at h
  exact hs.ends h

/-- What is left of the run, under a budget. -/
theorem runBounded_rest (b : Nat) :
    Joined (m.exhausted code a es t) (runBounded { m with state := t } code b out)
      (m.runBounded code (a + b) out) ∧
    ((m.runBounded code (a + b) out).result =
        (runBounded { m with state := t } code b out).result ∨
      Exhausts { m with state := t } code out b (runBounded { m with state := t } code b out) ∧
      m.Exhausts code out (a + b) (m.runBounded code (a + b) out)) := by
  rcases (program { m with state := t } code out).steps_or_ends b
    (start { m with state := t } code).state with ⟨fs, u, hu⟩ | ⟨n, fs, u, stop, he, hl⟩
  · -- both budgets are used up, each by its own run
    have hu' := steps_of_rest hm hs hu
    refine ⟨⟨?_, ?_⟩, .inr ⟨exhausts_of_steps hu, exhausts_of_steps hu'⟩⟩
    · rw [runBounded_of_steps hu, runBounded_of_steps hu']
      rfl
    · rw [runBounded_of_steps hu, runBounded_of_steps hu']
      simp only [exhausted_stdout, Effect.printed_append]
  · -- the end is within the second budget, and so within the sum
    have hl' : stop.budget (a + n) ≤ a + b := by
      cases stop <;> simp only [Stop.budget] at hl ⊢ <;> omega
    rw [runBounded_of_ends he hl, runBounded_of_ends (ends_of_rest hm hs he) hl']
    exact ⟨joined_ended .., .inl (ended_result_congr ..)⟩

/-- What is left of the run, without a budget. -/
theorem runsTo_of_rest {second : Report} (h : RunsTo { m with state := t } code out n stop second) :
    ∃ whole, m.RunsTo code out (a + n) stop whole ∧
      Joined (m.exhausted code a es t) second whole ∧ whole.result = second.result := by
  obtain ⟨fs, u, he⟩ := h.ends
  refine ⟨_, runsTo_of_ends (ends_of_rest hm hs he), ?_⟩
  rw [h.eq_ended he]
  exact ⟨joined_ended .., ended_result_congr ..⟩

theorem diverges_rest_iff : Diverges { m with state := t } code out ↔ m.Diverges code out := by
  constructor
  · intro h
    refine diverges_iff_steps.mpr fun n => ?_
    obtain ⟨fs, u, hu⟩ := diverges_iff_steps.mp h n
    exact (steps_of_rest hm hs hu).take (Nat.le_add_left n a)
  · intro h
    refine (runsTo_or_diverges _ code out).resolve_left ?_
    rintro ⟨n, stop, second, hr⟩
    obtain ⟨whole, hw, -⟩ := runsTo_of_rest hm hs hr
    exact hw.not_diverges h

end Rest

/-- A run that ends within its budget has no use for more. -/
theorem runBounded_add {a : Nat} (h : ¬ m.Exhausts code out a (m.runBounded code a out)) (b : Nat) :
    m.runBounded code (a + b) out = m.runBounded code a out := by
  rcases (m.program code out).steps_or_ends a (m.start code).state with
    ⟨es, t, hs⟩ | ⟨n, es, t, stop, he, hl⟩
  · exact absurd (exhausts_of_steps hs) h
  · rw [runBounded_of_ends he hl, runBounded_of_ends he (Nat.le_add_right_of_le hl)]

/-- **A run may be stopped by its budget and taken up again.**  If the budget `a` is used up, the
rest of the run ends as the run under `a + b` does, or without a budget as the run without one does:
in the same state, with the same printed text in all, and with the same result unless the second
budget is used up in its turn.  If it is not, more budget changes nothing. -/
theorem runBounded_resume {m : Machine} (hm : m.instructions.Reachable Action.Composed)
    (code : Code) (out : Stdout) (a b : Nat) :
    let first := m.runBounded code a out
    let rest  := first.machine
    (m.Exhausts code out a first →
      (Joined first (rest.runBounded code b out) (m.runBounded code (a + b) out) ∧
        ((m.runBounded code (a + b) out).result = (rest.runBounded code b out).result ∨
          rest.Exhausts code out b (rest.runBounded code b out) ∧
          m.Exhausts code out (a + b) (m.runBounded code (a + b) out))) ∧
      (∀ n stop second, rest.RunsTo code out n stop second →
        ∃ whole, m.RunsTo code out (a + n) stop whole ∧ Joined first second whole ∧
          whole.result = second.result) ∧
      (rest.Diverges code out ↔ m.Diverges code out)) ∧
    (¬ m.Exhausts code out a first → m.runBounded code (a + b) out = first) := by
  intro first rest
  refine ⟨?_, fun h => runBounded_add h b⟩
  rintro ⟨es, t, hs, hf⟩
  have hrest : rest = { m with state := t } := congrArg Report.machine hf
  rw [hrest, hf]
  exact ⟨runBounded_rest hm hs b, fun n stop second h => runsTo_of_rest hm hs h,
    diverges_rest_iff hm hs⟩

/-- The top, doubled. -/
def double : Routine := [.builtin .dup .argument, .builtin .add .argument]

/-- A machine that has the standard instructions and one that doubles the top. -/
def doubling : Machine where
  instructions := ⟨InstructionSet.standard.entries.push ⟨"DOUBLE", double.action⟩⟩

/-- Doubles 21. -/
def fortyTwo : Code := #[⟨1, 21⟩, ⟨0, 0⟩, ⟨13, 0⟩, ⟨2, 0⟩]

/-- A run of four instructions, the third of them a registered one, in parts of two. -/
theorem runBounded_resume_doubling :
    doubling.instructions.Reachable Action.Composed ∧
    doubling.Exhausts fortyTwo .connected 2 (doubling.runBounded fortyTwo 2 .connected) ∧
    Joined (doubling.runBounded fortyTwo 2 .connected)
      (runBounded { doubling with state := { stack := [21], pc := 2, codeLength := 4 } } fortyTwo 2
        .connected)
      (doubling.runBounded fortyTwo 4 .connected) ∧
    (doubling.runBounded fortyTwo 4 .connected).result = .ok ⟨42, ""⟩ := by
  have reachable : doubling.instructions.Reachable Action.Composed :=
    .register .standard double.composed_action
      (InstructionSet.register_of_notMem _ (by decide) (by decide))
  have exhausts : doubling.Exhausts fortyTwo .connected 2
      (doubling.runBounded fortyTwo 2 .connected) :=
    exhausts_of_steps (.more rfl (.one rfl))
  exact ⟨reachable, exhausts,
    ((runBounded_resume reachable fortyTwo .connected 2 2).1 exhausts).1.1, rfl⟩

end Machine

end StackMachine
