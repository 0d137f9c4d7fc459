import StackMachine.Proofs.Chronicle
import StackMachine.Proofs.Plain
import StackMachine.Proofs.Printing
import StackMachine.Proofs.Standard

/-!
# Proofs — Forward

Programs without loops.  In forward code each jump is to a later place, or to a negative one, which
is out of bounds.  Every instruction that completes then moves the counter on, whether it jumps or
not (`Program.pc_lt_of_step_of_forward`), so that the instructions from the counter to the end of
the code are a measure: whatever has completed, as many at least are no longer ahead
(`Program.Steps.add_ahead_le`).  A run ends before it has fetched more than were ahead at its start,
and one more than those is a budget that it cannot use up (`Machine.forward_ends`).
-/

namespace StackMachine

/-- Each `JMP` and each `JMPZ` of the code is to a later place, or to a negative one. -/
def Code.Forward (code : Code) : Prop :=
  ∀ (k : Nat) (h : k < code.size),
    InstructionSet.standard.mnemonic? code[k].opcode ∈ [some "JMP", some "JMPZ"] →
      code[k].argument.toInt < 0 ∨ (k : Int) < code[k].argument.toInt

instance (code : Code) : Decidable code.Forward :=
  inferInstanceAs (Decidable (∀ (k : Nat) (_ : k < code.size), _ → _))

theorem Builtin.IsJump.mnemonic_mem {b : Builtin} (h : b.IsJump) :
    some b.mnemonic ∈ [some "JMP", some "JMPZ"] := by
  rcases h with rfl | rfl <;> decide

namespace Program

variable {p : Program} {s t : State}

/-- The instructions from the counter on. -/
def ahead (p : Program) (s : State) : Nat := p.code.size - s.pc

theorem step_ne_stepLimitExceeded (hp : p.instructions = .standard) (s : State) (limit : Nat) :
    (p.step s).result ≠ .error (.stepLimitExceeded limit) := by
  intro h
  rcases hs : p.step s with ⟨r, t, es⟩
  rw [hs] at h
  subst h
  cases step_error_iff.mp ⟨es, hs⟩ with
  | action hperforms =>
      obtain ⟨-, ha, haction⟩ := hperforms
      obtain ⟨b, rfl⟩ := InstructionSet.exists_builtin_of_action? (hp ▸ ha)
      exact (Exec.plain_action b _).isOperational _ _ _ (by rw [haction])

section Forward

variable (hp : p.instructions = .standard) (hcode : p.code.Forward)

include hp hcode

/-- **An instruction that completes moves the counter on.** -/
theorem pc_lt_of_step_of_forward {f : Flow} {es : List Effect} (h : p.step s = ⟨.ok f, t, es⟩) :
    s.pc < p.code.size ∧ s.pc < t.pc := by
  have hpc : s.pc < p.code.size := pc_lt_of_step_ok (by rw [h])
  refine ⟨hpc, ?_⟩
  obtain ⟨hi, ha, haction⟩ := step_ok_iff.mp ⟨es, h⟩
  obtain rfl := Option.some.inj ((Array.getElem?_eq_getElem hpc).symm.trans hi)
  obtain ⟨b, hm, hb⟩ | ⟨-, hnone⟩ := InstructionSet.standard_cases p.code[s.pc].opcode
  · obtain rfl := Option.some.inj (hb.symm.trans (hp ▸ ha))
    obtain ⟨vs, hc, -⟩ := Builtin.action_eq_ok_iff.mp haction
    rcases hc.pc_cases with ht | ⟨hj, ht, -⟩
    · rw [ht]
      exact Nat.lt_succ_self _
    · rcases hcode s.pc hpc (hm ▸ hj.mnemonic_mem) with hneg | hlater <;> omega
  · cases hnone.symm.trans (hp ▸ ha)

/-- Whatever has completed is no longer ahead. -/
theorem Steps.add_ahead_le {n : Nat} {es : List Effect} (h : p.Steps n s es t) :
    n + p.ahead t ≤ p.ahead s := by
  induction h with
  | refl => exact Nat.le_of_eq (Nat.zero_add _)
  | more h _ ih =>
      have := pc_lt_of_step_of_forward hp hcode h
      simp only [ahead] at ih ⊢
      omega

/-- So many instructions are fetched at most as there are ahead. -/
theorem Journal.length_le_ahead {budget : Option Nat} {ts : List State}
    (h : p.Journal budget s ts) : ts.length ≤ p.ahead s := by
  rcases ts.eq_nil_or_concat with rfl | ⟨us, u, rfl⟩
  · exact Nat.zero_le _
  · rw [List.concat_eq_append] at h ⊢
    obtain ⟨es, hs⟩ := h.exists_steps
    have hahead := hs.add_ahead_le hp hcode
    have hpc : u.pc < p.code.size := h.pc_lt (by simp)
    simp only [ahead, List.length_append, List.length_singleton] at hahead ⊢
    omega

/-- **The run comes to its end**, and any budget beyond what is ahead suffices for it. -/
theorem exists_ends_of_forward (s : State) :
    ∃ n es t stop, p.Ends n s es t stop ∧ stop.budget n ≤ p.ahead s + 1 := by
  refine (p.steps_or_ends (p.ahead s + 1) s).resolve_left ?_
  rintro ⟨es, t, hs⟩
  have := hs.add_ahead_le hp hcode
  omega

end Forward

/-- As many instructions complete at most as are fetched. -/
theorem Leaves.le_length {budget : Option Nat} {ts : List State} {n : Nat} {c : Option Stop}
    (h : p.Leaves budget s ts n t c) : n ≤ ts.length := by
  cases h <;> simp

end Program

namespace Machine

variable {m : Machine} {code : Code}

/-- A run of standard instructions that comes to its end reports no budget as used up. -/
theorem ended_ne_stepLimitExceeded (hm : m.instructions = .standard) {out : Stdout} {n : Nat}
    {es : List Effect} {t : State} {stop : Stop}
    (h : (m.program code out).Ends n (m.start code).state es t stop) (k : Nat) :
    (m.ended code n es t stop).result ≠ .error (.stepLimitExceeded k) := by
  rw [ended_eq_reported, reported_result]
  intro hk
  cases h with
  | halted =>
      rw [answer] at hk
      split at hk <;> cases hk
  | @faulted _ _ u _ _ _ e hs hu =>
      cases hk
      exact Program.step_ne_stepLimitExceeded (p := m.program code out) hm u k (by rw [hu])

/-- **Forward code ends within its length.**

Let the machine have the standard instructions and any state, and let each jump of the code be to a
later place or to a negative one, whatever else there is in the code.  The run ends by itself, and
fetches at most as many instructions as there are from the counter to the end of the code, of which
those that it completes are some or all.  No budget of more than that many is ever exceeded. -/
theorem forward_ends (hm : m.instructions = .standard) (hcode : code.Forward) (out : Stdout) :
    (∃ n report ts, m.Reports code out none n report ∧ m.Journal code out none ts ∧
      n ≤ ts.length ∧ ts.length ≤ code.size - m.state.pc) ∧
    ∀ limit, code.size - m.state.pc < limit →
      ∀ k, (m.runBounded code limit out).result ≠ .error (.stepLimitExceeded k) := by
  obtain ⟨n, es, t, stop, he, hbudget⟩ :=
    Program.exists_ends_of_forward (p := m.program code out) hm hcode (m.start code).state
  constructor
  · have hruns : (m.program code out).Runs none n (m.start code).state es t (some stop) :=
      .ends he nofun
    obtain ⟨ts, hj, -, hl⟩ := hruns.journal
    exact ⟨n, _, ts, reports_of_runs hruns, hj, hl.le_length, hj.length_le_ahead hm hcode⟩
  · intro limit hlimit k
    rw [runBounded_of_ends he (Nat.le_trans hbudget hlimit)]
    exact ended_ne_stepLimitExceeded hm he k

/-- A taken jump over an opcode that is not known, and a negative one that is never reached. -/
theorem forward_ends_jumping :
    let m : Machine := { state := { pc := 1, output := "a" } }
    let code : Code := #[⟨9, -1⟩, ⟨1, 0⟩, ⟨10, 4⟩, ⟨77, 0⟩, ⟨8, 0⟩]
    code.Forward ∧
    (∃ n report ts, m.Reports code .closed none n report ∧ m.Journal code .closed none ts ∧
      n ≤ ts.length ∧ ts.length ≤ 4) ∧
    ∀ k, (m.runBounded code 5 .closed).result ≠ .error (.stepLimitExceeded k) := by
  intro m code
  have forward : code.Forward := by decide
  obtain ⟨ends, bounded⟩ := forward_ends (m := m) rfl forward .closed
  exact ⟨forward, ends, bounded 5 (by decide)⟩

/-- With nothing that halts, a budget of as many as are ahead is exceeded. -/
example : (runBounded {} #[⟨1, 7⟩, ⟨1, 8⟩] 2 .connected).result =
    .error (.stepLimitExceeded 2) := rfl

end Machine

end StackMachine
