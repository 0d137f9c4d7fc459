import StackMachine.Machine

/-!
# Proofs — Execution

A run as a derivation.  `p.Steps n s es t`: from the state `s` exactly `n` instructions complete,
one after another, each asking for the next; they let out `es` and leave `t`.
`p.Ends n s es t stop`: the run from `s` completes `n` instructions and comes to its end there.  The
instruction that halts has completed and is among the `n`; one that faults has not.

Every run is one or the other at every budget (`steps_or_ends`), and `Program.advance` computes
which (`advance_of_steps`, `advance_of_ends`).  The budget is looked at before each fetch, so that
the least budget under which an end is reached is `n` for a halt and `n + 1` for a fault
(`Stop.budget`).

The last section carries both to a machine: what `runBounded` and `run?` report is a function of the
derivation alone.
-/

namespace StackMachine

theorem Log.append_append (log : Log) (es fs : List Effect) : log ++ es ++ fs = log ++ (es ++ fs) :=
  Array.ext' (by simp)

/-- The text of the lines among the effects that were printed. -/
def Effect.printed (es : List Effect) : String := String.join (es.map stdout)

theorem Effect.printed_append (es fs : List Effect) :
    printed (es ++ fs) = printed es ++ printed fs := by
  rw [printed, List.map_append, String.join_append]
  rfl

theorem Log.stdout_append (log : Log) (es : List Effect) :
    Log.stdout (log ++ es) = log.stdout ++ Effect.printed es := by
  rw [Log.stdout, Array.toList_appendList]
  exact Effect.printed_append _ _

theorem Log.stdout_push_event (log : Log) (e : Event) :
    Log.stdout (log.push (.event e)) = log.stdout := by
  rw [Log.stdout, Array.toList_push]
  exact (Effect.printed_append _ _).trans String.append_empty

/-- The effect is one that follows the fetch of the instruction at `pc`. -/
inductive Effect.FollowsFetch (tracing : Bool) (pc : Nat) : Effect → Prop where
  | print (p : Print) : FollowsFetch tracing pc (.print p)
  | stack (h : tracing = true) (words : List Word) : FollowsFetch tracing pc (.trace (.stack words))
  | faulted (fault : Fault) : FollowsFetch tracing pc (.event (.faulted pc fault))

namespace Program

/-- `n` instructions complete from `s` to `t`, and none of them halts. -/
inductive Steps (p : Program) : Nat → State → List Effect → State → Prop where
  | refl (s : State) : Steps p 0 s [] s
  | more {n : Nat} {s t u : State} {es fs : List Effect}
      (h : p.step s = ⟨.ok .next, t, es⟩) (hs : Steps p n t fs u) : Steps p (n + 1) s (es ++ fs) u

/-- `n` instructions complete from `s` to the end of the run in `t`. -/
inductive Ends (p : Program) : Nat → State → List Effect → State → Stop → Prop where
  | halted {n : Nat} {s t u : State} {es fs : List Effect}
      (hs : p.Steps n s es t) (h : p.step t = ⟨.ok .halt, u, fs⟩) :
      Ends p (n + 1) s (es ++ fs) u .halted
  | faulted {n : Nat} {s t u : State} {es fs : List Effect} {e : Fault}
      (hs : p.Steps n s es t) (h : p.step t = ⟨.error e, u, fs⟩) :
      Ends p n s (es ++ fs) u (.faulted e)

/-- **What one instruction leaves**: the state as it was if none is fetched, the state with the
counter moved on if the opcode has no action, and what the action leaves otherwise. -/
theorem step_state_cases (p : Program) (s : State) :
    (p.step s).state = s ∨ (p.step s).state = { s with pc := s.pc + 1 } ∨
      ∃ i a, p.code[s.pc]? = some i ∧ p.instructions.action? i.opcode = some a ∧
        (p.step s).state = (a i.argument p.out { s with pc := s.pc + 1 }).state := by
  rw [step]
  split
  · exact .inl rfl
  · rename_i i hi
    dsimp only
    split
    · exact .inr (.inl rfl)
    · rename_i a ha
      refine .inr (.inr ⟨i, a, hi, ha, ?_⟩)
      split <;> rename_i ho <;> rw [ho]

/-! The four ways in which an instruction can go. -/

section Step

variable {p : Program} {s t : State} {i : Instruction} {a : Action} {ps : List Print}

theorem step_of_none (hi : p.code[s.pc]? = none) :
    p.step s = ⟨.error (.outOfBounds (.ofCount s.pc) p.code.size), s, []⟩ := by
  rw [step, hi]

theorem step_of_unknown (hi : p.code[s.pc]? = some i)
    (ha : p.instructions.action? i.opcode = none) :
    p.step s =
      ⟨.error (.unknownOpcode i.opcode s.pc), { s with pc := s.pc + 1 }, p.fetched s.pc i⟩ := by
  simp only [step, hi, ha]

theorem step_of_ok {f : Flow} (hi : p.code[s.pc]? = some i)
    (ha : p.instructions.action? i.opcode = some a)
    (h : a i.argument p.out { s with pc := s.pc + 1 } = ⟨.ok f, t, ps⟩) :
    p.step s = ⟨.ok f, t, p.fetched s.pc i ++ ps.map .print ++ p.completed t⟩ := by
  simp only [step, hi, ha, h]

theorem step_of_error {e : Fault} (hi : p.code[s.pc]? = some i)
    (ha : p.instructions.action? i.opcode = some a)
    (h : a i.argument p.out { s with pc := s.pc + 1 } = ⟨.error e, t, ps⟩) :
    p.step s =
      ⟨.error e, t, p.fetched s.pc i ++ ps.map .print ++ [.event (.faulted s.pc e)]⟩ := by
  simp only [step, hi, ha, h]

end Step

/-- **What one instruction lets out**: nothing if none is fetched; otherwise that it was fetched,
and then what its action prints, the stack that it leaves or the fault that it ends in. -/
theorem emitted_step_cases (p : Program) (s : State) :
    (p.step s).emitted = [] ∨ ∃ i es, p.code[s.pc]? = some i ∧
      (p.step s).emitted = p.fetched s.pc i ++ es ∧ ∀ e ∈ es, e.FollowsFetch p.tracing s.pc := by
  cases hi : p.code[s.pc]? with
  | none =>
      rw [step_of_none hi]
      exact .inl rfl
  | some i =>
      refine .inr ⟨i, ?_⟩
      cases ha : p.instructions.action? i.opcode with
      | none =>
          rw [step_of_unknown hi ha]
          exact ⟨[], rfl, by simp, nofun⟩
      | some a =>
          have hprinted : ∀ ps : List Print, ∀ e ∈ ps.map Effect.print,
              e.FollowsFetch p.tracing s.pc := by
            simpa using fun _ p _ => .print p
          rcases h : a i.argument p.out { s with pc := s.pc + 1 } with ⟨e | f, t, ps⟩
          · rw [step_of_error hi ha h]
            refine ⟨_, rfl, List.append_assoc .., List.forall_mem_append.mpr ⟨hprinted ps, ?_⟩⟩
            simpa using .faulted e
          · rw [step_of_ok hi ha h]
            refine ⟨_, rfl, List.append_assoc .., List.forall_mem_append.mpr ⟨hprinted ps, ?_⟩⟩
            rw [completed]
            split
            · rename_i htracing
              simpa using .stack htracing _
            · nofun

theorem Steps.one {p : Program} {s t : State} {es : List Effect}
    (h : p.step s = ⟨.ok .next, t, es⟩) : p.Steps 1 s es t := by
  simpa using Steps.more h (.refl t)

theorem Steps.trans {p : Program} {m n : Nat} {s t u : State} {es fs : List Effect}
    (h₁ : p.Steps m s es t) (h₂ : p.Steps n t fs u) : p.Steps (m + n) s (es ++ fs) u := by
  induction h₁ with
  | refl => simpa using h₂
  | more h _ ih =>
      rw [Nat.add_right_comm, List.append_assoc]
      exact .more h (ih h₂)

/-- What every instruction preserves, any number of them does. -/
theorem Steps.invariant {p : Program} {I : State → Prop} (hp : ∀ s, I s → I (p.step s).state)
    {n : Nat} {s t : State} {es : List Effect} (h : p.Steps n s es t) (hs : I s) : I t := by
  induction h with
  | refl => exact hs
  | @more _ s _ _ _ _ h _ ih =>
      have ht := hp s hs
      rw [h] at ht
      exact ih ht

/-- An instruction that leads back to where it started does so any number of times. -/
theorem Steps.loop {p : Program} {s : State} {es : List Effect}
    (h : p.step s = ⟨.ok .next, s, es⟩) (n : Nat) : ∃ fs, p.Steps n s fs s := by
  induction n with
  | zero => exact ⟨[], .refl s⟩
  | succ n ih =>
      obtain ⟨fs, hs⟩ := ih
      exact ⟨es ++ fs, .more h hs⟩

/-- The end of what is left of a run is the end of the run. -/
theorem Steps.ends {p : Program} {m n : Nat} {s t u : State} {es fs : List Effect} {stop : Stop}
    (h₁ : p.Steps m s es t) (h₂ : p.Ends n t fs u stop) : p.Ends (m + n) s (es ++ fs) u stop := by
  cases h₂ with
  | halted hs h =>
      rw [← List.append_assoc, ← Nat.add_assoc]
      exact .halted (h₁.trans hs) h
  | faulted hs h =>
      rw [← List.append_assoc]
      exact .faulted (h₁.trans hs) h

end Program

/-- The least budget under which a run that completes `n` instructions comes to this end. -/
def Stop.budget (n : Nat) : Stop → Nat
  | .halted    => n
  | .faulted _ => n + 1

namespace Program

/-- **A budget suffices or it does not**: the run has so many instructions to complete, or it ends
within the budget. -/
theorem steps_or_ends (p : Program) (limit : Nat) (s : State) :
    (∃ es t, p.Steps limit s es t) ∨
      ∃ n es t stop, p.Ends n s es t stop ∧ stop.budget n ≤ limit := by
  induction limit generalizing s with
  | zero => exact .inl ⟨[], s, .refl s⟩
  | succ limit ih =>
      rcases hs : p.step s with ⟨e | _ | _, t, es⟩
      · exact .inr ⟨0, _, t, _, .faulted (.refl s) hs, Nat.succ_le_succ (Nat.zero_le _)⟩
      · -- one instruction more, whether the rest completes or ends
        rcases ih t with ⟨fs, u, h⟩ | ⟨n, fs, u, stop, h, hn⟩
        · exact .inl ⟨_, u, .more hs h⟩
        · refine .inr ⟨1 + n, _, u, stop, (Steps.one hs).ends h, ?_⟩
          cases stop <;> simp only [Stop.budget] at hn ⊢ <;> omega
      · exact .inr ⟨1, _, t, _, .halted (.refl s) hs, Nat.succ_le_succ (Nat.zero_le _)⟩

/-- The first instructions of some that complete complete. -/
theorem Steps.take {p : Program} {k n : Nat} {s t : State} {es : List Effect}
    (h : p.Steps n s es t) (hk : k ≤ n) : ∃ fs u, p.Steps k s fs u := by
  induction h generalizing k with
  | refl s =>
      obtain rfl := Nat.le_zero.mp hk
      exact ⟨[], s, .refl s⟩
  | @more _ s _ _ _ _ h _ ih =>
      cases k with
      | zero => exact ⟨[], s, .refl s⟩
      | succ k =>
          obtain ⟨fs, u, hu⟩ := ih (Nat.le_of_succ_le_succ hk)
          exact ⟨_, u, .more h hu⟩

/-- Any budget less than the least that reaches the end is used up. -/
theorem Ends.take {p : Program} {k n : Nat} {s t : State} {es : List Effect} {stop : Stop}
    (h : p.Ends n s es t stop) (hk : k < stop.budget n) : ∃ fs u, p.Steps k s fs u := by
  cases h with
  | halted hs _ => exact hs.take (Nat.le_of_lt_succ hk)
  | faulted hs _ => exact hs.take (Nat.le_of_lt_succ hk)

/-! ### What `advance` computes -/

section Advance

variable {p : Program} {s t : State} {es : List Effect} (k : Nat) (log : Log)

theorem next_of_next (h : p.step s = ⟨.ok .next, t, es⟩) :
    p.next ⟨k, s, log, none⟩ = ⟨k + 1, t, log ++ es, none⟩ := by
  rw [next, h]

theorem next_of_halt (h : p.step s = ⟨.ok .halt, t, es⟩) :
    p.next ⟨k, s, log, none⟩ = ⟨k + 1, t, log ++ es, some .halted⟩ := by
  rw [next, h]

theorem next_of_error {e : Fault} (h : p.step s = ⟨.error e, t, es⟩) :
    p.next ⟨k, s, log, none⟩ = ⟨k, t, log ++ es, some (.faulted e)⟩ := by
  rw [next, h]

theorem advance_succ (n : Nat) :
    p.advance (n + 1) ⟨k, s, log, none⟩ = p.advance n (p.next ⟨k, s, log, none⟩) := rfl

theorem advance_of_steps {n : Nat} (h : p.Steps n s es t) :
    p.advance n ⟨k, s, log, none⟩ = ⟨k + n, t, log ++ es, none⟩ := by
  induction h generalizing k log with
  | refl => simp [advance]
  | more h _ ih =>
      rw [advance_succ, next_of_next k log h, ih, Nat.add_right_comm, Nat.add_assoc,
        Log.append_append]

/-- Whatever of the budget is left at the end of a run is left unused. -/
theorem advance_of_ends {n limit : Nat} {stop : Stop} (h : p.Ends n s es t stop)
    (hl : stop.budget n ≤ limit) :
    p.advance limit ⟨k, s, log, none⟩ = ⟨k + n, t, log ++ es, some stop⟩ := by
  obtain ⟨rest, rfl⟩ := Nat.exists_eq_add_of_le hl
  -- the instructions before the end, the one that ends the run, and a rest that finds it ended
  cases h with
  | @halted n _ _ _ _ _ hs h =>
      rw [Stop.budget, Nat.add_assoc, Nat.add_comm 1, advance_add, advance_of_steps k log hs,
        advance_succ, next_of_halt _ _ h, advance_of_stop p rfl, Log.append_append, Nat.add_assoc]
  | faulted hs h =>
      rw [Stop.budget, Nat.add_assoc, Nat.add_comm 1, advance_add, advance_of_steps k log hs,
        advance_succ, next_of_error _ _ h, advance_of_stop p rfl, Log.append_append]

end Advance

end Program

/-! ### What a machine reports -/

namespace Machine

variable {m : Machine} {code : Code} {out : Stdout} {n limit : Nat} {t : State} {es : List Effect}
  {stop : Stop} {report : Report}

/-- The report of a run that its budget stops: after `limit` instructions, which have let out `es`
and left `t`. -/
def exhausted (m : Machine) (code : Code) (limit : Nat) (es : List Effect) (t : State) : Report :=
  ⟨.error (.stepLimitExceeded limit), { m with state := t },
    ((m.start code).log ++ es).push (.event (.stepLimitExceeded limit))⟩

/-- The budget, and nothing else, ends the run: `limit` instructions complete, and the report is of
the state after them. -/
def Exhausts (m : Machine) (code : Code) (out : Stdout) (limit : Nat) (report : Report) : Prop :=
  ∃ es t, (m.program code out).Steps limit (m.start code).state es t ∧
    report = m.exhausted code limit es t

/-- The run without a budget completes `n` instructions, ends in this way, and is reported so. -/
structure RunsTo (m : Machine) (code : Code) (out : Stdout) (n : Nat) (stop : Stop)
    (report : Report) : Prop where
  ends     : ∃ es t, (m.program code out).Ends n (m.start code).state es t stop
  reported : ∃ fuel, m.run? code fuel out = some report

/-- The run without a budget does not end, however long it is waited for. -/
def Diverges (m : Machine) (code : Code) (out : Stdout) : Prop :=
  ∀ fuel, m.run? code fuel out = none

/-- The report of a run that completes `n` instructions, lets out `es` and ends in `t`. -/
def ended (m : Machine) (code : Code) (n : Nat) (es : List Effect) (t : State) (stop : Stop) :
    Report :=
  m.conclude ⟨n, t, (m.start code).log ++ es, some stop⟩ stop

theorem printed_preamble (m : Machine) (code : Code) : Effect.printed (m.preamble code) = "" := by
  rw [preamble]
  split
  · dsimp only
    split <;> rfl
  · rfl

/-- Nothing is printed before the first instruction. -/
theorem stdout_start (m : Machine) (code : Code) : (m.start code).log.stdout = "" := by
  show Effect.printed (m.preamble code ++ [.event (.runStarted code.size m.state.pc)]) = ""
  rw [Effect.printed_append, printed_preamble]
  rfl

@[simp] theorem ended_machine (m : Machine) (code : Code) (n : Nat) (es : List Effect) (t : State)
    (stop : Stop) : (m.ended code n es t stop).machine = { m with state := t } := by
  cases stop with
  | faulted e => rfl
  | halted =>
      rw [ended, conclude]
      cases t.stack <;> rfl

/-- The result depends on the state and on the end alone. -/
theorem ended_result_congr (m m' : Machine) (code : Code) (n n' : Nat) (es fs : List Effect)
    (t : State) (stop : Stop) :
    (m.ended code n es t stop).result = (m'.ended code n' fs t stop).result := by
  cases stop with
  | faulted e => rfl
  | halted =>
      simp only [ended, conclude]
      cases t.stack <;> rfl

theorem stdout_start_append (m : Machine) (code : Code) (es : List Effect) :
    Log.stdout ((m.start code).log ++ es) = Effect.printed es := by
  rw [Log.stdout_append, stdout_start, String.empty_append]

theorem ended_stdout (m : Machine) (code : Code) (n : Nat) (es : List Effect) (t : State)
    (stop : Stop) : (m.ended code n es t stop).log.stdout = Effect.printed es := by
  cases stop with
  | faulted e => exact stdout_start_append m code es
  | halted =>
      rw [ended, conclude]
      cases t.stack with
      | nil => exact stdout_start_append m code es
      | cons w ws => exact (Log.stdout_push_event _ _).trans (stdout_start_append m code es)

theorem exhausted_stdout (m : Machine) (code : Code) (limit : Nat) (es : List Effect) (t : State) :
    (m.exhausted code limit es t).log.stdout = Effect.printed es :=
  (Log.stdout_push_event _ _).trans (stdout_start_append m code es)

theorem advance_start_of_steps
    (h : (m.program code out).Steps limit (m.start code).state es t) :
    (m.program code out).advance limit (m.start code) =
      ⟨limit, t, (m.start code).log ++ es, none⟩ :=
  (Program.advance_of_steps 0 (m.start code).log h).trans (by rw [Nat.zero_add])

theorem advance_start_of_ends
    (h : (m.program code out).Ends n (m.start code).state es t stop) (hl : stop.budget n ≤ limit) :
    (m.program code out).advance limit (m.start code) =
      ⟨n, t, (m.start code).log ++ es, some stop⟩ :=
  (Program.advance_of_ends 0 (m.start code).log h hl).trans (by rw [Nat.zero_add])

theorem runBounded_of_steps (h : (m.program code out).Steps limit (m.start code).state es t) :
    m.runBounded code limit out = m.exhausted code limit es t := by
  rw [runBounded, advance_start_of_steps h]
  rfl

theorem run?_of_steps (h : (m.program code out).Steps limit (m.start code).state es t) :
    m.run? code limit out = none := by
  rw [run?, advance_start_of_steps h]
  rfl

theorem runBounded_of_ends (h : (m.program code out).Ends n (m.start code).state es t stop)
    (hl : stop.budget n ≤ limit) : m.runBounded code limit out = m.ended code n es t stop := by
  rw [runBounded, advance_start_of_ends h hl]
  rfl

theorem run?_of_ends (h : (m.program code out).Ends n (m.start code).state es t stop)
    (hl : stop.budget n ≤ limit) : m.run? code limit out = some (m.ended code n es t stop) := by
  rw [run?, advance_start_of_ends h hl]
  rfl

theorem runsTo_of_ends (h : (m.program code out).Ends n (m.start code).state es t stop) :
    m.RunsTo code out n stop (m.ended code n es t stop) :=
  ⟨⟨es, t, h⟩, stop.budget n, run?_of_ends h (Nat.le_refl _)⟩

/-- How a run ends decides its report. -/
theorem RunsTo.eq_ended (hr : m.RunsTo code out n stop report)
    (h : (m.program code out).Ends n (m.start code).state es t stop) :
    report = m.ended code n es t stop := by
  obtain ⟨fuel, hf⟩ := hr.reported
  by_cases hl : stop.budget n ≤ fuel
  · rw [run?_of_ends h hl] at hf
    exact (Option.some.inj hf).symm
  · -- with so little fuel nothing would have been reported
    obtain ⟨fs, u, hu⟩ := h.take (Nat.lt_of_not_le hl)
    rw [run?_of_steps hu] at hf
    cases hf

theorem RunsTo.not_diverges (h : m.RunsTo code out n stop report) : ¬ m.Diverges code out := by
  intro hd
  obtain ⟨fuel, hf⟩ := h.reported
  rw [hd fuel] at hf
  cases hf

theorem diverges_iff_steps :
    m.Diverges code out ↔ ∀ n, ∃ es t, (m.program code out).Steps n (m.start code).state es t := by
  constructor
  · intro h n
    refine ((m.program code out).steps_or_ends n (m.start code).state).resolve_right ?_
    rintro ⟨k, es, t, stop, he, hl⟩
    have hr := h n
    rw [run?_of_ends he hl] at hr
    cases hr
  · intro h fuel
    obtain ⟨es, t, hs⟩ := h fuel
    exact run?_of_steps hs

/-- **A run ends or it does not.** -/
theorem runsTo_or_diverges (m : Machine) (code : Code) (out : Stdout) :
    (∃ n stop report, m.RunsTo code out n stop report) ∨ m.Diverges code out := by
  by_cases h : ∃ n stop report, m.RunsTo code out n stop report
  · exact .inl h
  · refine .inr fun fuel => ?_
    rcases (m.program code out).steps_or_ends fuel (m.start code).state with
      ⟨es, t, hs⟩ | ⟨n, es, t, stop, he, -⟩
    · exact run?_of_steps hs
    · exact absurd ⟨n, stop, _, runsTo_of_ends he⟩ h

end Machine

end StackMachine
