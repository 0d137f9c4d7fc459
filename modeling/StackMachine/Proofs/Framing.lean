import StackMachine.Proofs.Plain
import StackMachine.Proofs.Registration

/-!
# Proofs — Framing

What lies underneath never influences a run.  `s.onto base before` is the state `s` with `base`
below its stack and `before` in front of its output.  A computation is *framed* if it goes from
`s.onto base before` as it goes from `s`, on top of the same base, unless it finds too few operands
in `s`.  Plain computations are framed (`Plain.framed`), and so all standard actions are, though not
all computations: `get` looks at the whole state, and a reset takes the base away.

So a run on top of a base is the run without it, on top of the base, unless that one finds too few
operands (`Machine.Reports.onto`).  Instructions that were registered beside the standard ones make
no difference to a run that ends without a fault.
-/

namespace StackMachine

/-- The state on top of other words, with its output after other output. -/
def State.onto (s : State) (base : List Word) (before : String) : State :=
  { s with stack := s.stack ++ base, output := before ++ s.output }

/-- No operand was missing. -/
def Fault.Supplied (e : Fault) : Prop :=
  ∀ required available, e ≠ .stackUnderflow required available

/-- The second state is the first on top of a base. -/
def State.Onto (base : List Word) (before : String) (s s' : State) : Prop := s' = s.onto base before

namespace Exec

variable {α β : Type}

/-- What is below the operands does not matter. -/
def Framed (x : Exec α) : Prop :=
  ∀ (out : Stdout) (base : List Word) (before : String) (s : State),
    (∀ e, (x out s).result = .error e → e.Supplied) →
    (x out s).Alike (State.Onto base before) Eq (x out (s.onto base before))

/-- Framed computations are those that respect each base. -/
theorem framed_iff {x : Exec α} :
    Framed x ↔ ∀ base before, Respects Fault.Supplied (State.Onto base before) x := by
  constructor
  · rintro h base before out s _ rfl hA
    exact h out base before s hA
  · exact fun h out base before s hA => h base before out s _ rfl hA

namespace Framed

theorem pure (a : α) : Framed (Pure.pure a : Exec α) := framed_iff.mpr fun _ _ => .pure a

theorem bind {x : Exec α} {f : α → Exec β} (hx : Framed x) (hf : ∀ a, Framed (f a)) :
    Framed (x >>= f) :=
  framed_iff.mpr fun base before =>
    (framed_iff.mp hx base before).bind fun a => framed_iff.mp (hf a) base before

theorem raise (e : Fault) : Framed (raise e : Exec α) := framed_iff.mpr fun _ _ => .raise e

theorem push (w : Word) : Framed (push w) := fun _ _ _ _ _ => ⟨rfl, rfl, rfl⟩

theorem pop : Framed pop := by
  intro out base before s h
  cases hs : s.stack with
  | nil =>
      rw [pop_of_nil hs] at h
      exact absurd rfl (h _ rfl 1 0)
  | cons w ws =>
      have hs' : (s.onto base before).stack = w :: (ws ++ base) := by rw [State.onto, hs]; rfl
      rw [pop_of_cons hs, pop_of_cons hs']
      exact ⟨rfl, rfl, rfl⟩

theorem top : Framed top := by
  intro out base before s h
  cases hs : s.stack with
  | nil =>
      rw [top_of_nil hs] at h
      exact absurd rfl (h _ rfl 1 0)
  | cons w ws =>
      have hs' : (s.onto base before).stack = w :: (ws ++ base) := by rw [State.onto, hs]; rfl
      rw [top_of_cons hs, top_of_cons hs']
      exact ⟨rfl, rfl, rfl⟩

theorem require (n : Nat) : Framed (require n) := by
  intro out base before s h
  rcases Nat.lt_or_ge s.depth n with hn | hn
  · rw [require_of_lt hn] at h
    exact absurd rfl (h _ rfl n s.depth)
  · have hn' : n ≤ (s.onto base before).depth := by
      rw [State.onto, State.depth, List.length_append]
      exact Nat.le_add_right_of_le hn
    rw [require_of_le hn, require_of_le hn']
    exact ⟨rfl, rfl, rfl⟩

/-- Targets are looked for in the code alone. -/
theorem target (w : Word) : Framed (target w) := by
  intro out base before s _
  by_cases hw : 0 ≤ w.toInt ∧ w.toInt < s.codeLength
  · have hw' : 0 ≤ w.toInt ∧ w.toInt < (s.onto base before).codeLength := hw
    rw [target_of_lt hw, target_of_lt hw']
    exact ⟨rfl, rfl, rfl⟩
  · have hw' : ¬ (0 ≤ w.toInt ∧ w.toInt < (s.onto base before).codeLength) := hw
    rw [target_of_not_lt hw, target_of_not_lt hw']
    exact ⟨rfl, rfl, rfl⟩

theorem setPc (pc : Nat) : Framed (setPc pc) := fun _ _ _ _ _ => ⟨rfl, rfl, rfl⟩

theorem writeWord (w : Word) : Framed (writeWord w) := by
  intro out base before s _
  refine ⟨rfl, ?_, rfl⟩
  simp [State.Onto, State.onto, Exec.writeWord, modify, String.append_assoc]

theorem writeChar (c : Char) : Framed (writeChar c) := by
  intro out base before s _
  have hpush : (before ++ s.output).push c = before ++ s.output.push c := by
    rw [← String.append_singleton, ← String.append_singleton, String.append_assoc]
  refine ⟨rfl, ?_, rfl⟩
  simp [State.Onto, State.onto, Exec.writeChar, modify, hpush]

theorem print (w : Word) : Framed (print w)
  | .connected, _, _, _, _ => ⟨rfl, rfl, rfl⟩
  | .closed, _, _, _, _ => ⟨rfl, rfl, rfl⟩

end Framed

/-- **No plain computation looks below its operands.** -/
theorem Plain.framed {x : Exec α} (h : Plain x) : Framed x := by
  induction h with
  | pure a => exact .pure a
  | bind _ _ ihx ihf => exact ihx.bind ihf
  | divisionByZero => exact .raise _
  | require n => exact .require n
  | push w => exact .push w
  | pop => exact .pop
  | top => exact .top
  | target w => exact .target w
  | setPc pc => exact .setPc pc
  | writeWord w => exact .writeWord w
  | writeChar c => exact .writeChar c
  | print w => exact .print w

end Exec

/-! ### Runs on top of a base -/

variable {base : List Word} {before : String} {A : Fault → Prop}

/-- **A program of standard instructions is followed from on top of a base**, as long as it finds
its operands.  The other program may know more instructions, if those are not missing in the first.
-/
theorem Program.follows_onto {p q : Program} (hcode : q.code = p.code) (hout : q.out = p.out)
    (hp : p.instructions = .standard) (hq : p.instructions.Extends q.instructions)
    (hA : ∀ e, A e → e.Supplied)
    (hnone : ∀ {o pc}, A (.unknownOpcode o pc) → p.instructions.action? o = none →
      q.instructions.action? o = none) :
    q.Follows p A (State.Onto base before) Effect.SameUntraced := by
  refine follows_of_actions hcode ?_ ?_ hnone fun {o a} ha => ⟨a, hq.action?_eq ha, ?_⟩
  · rintro s _ rfl
    rfl
  · rintro s _ rfl
    rfl
  · rintro w s _ rfl he
    obtain ⟨b, rfl⟩ := InstructionSet.exists_builtin_of_action? (hp ▸ ha)
    rw [hout]
    exact (Exec.plain_action b w).framed p.out base before s fun e h => hA e (he e h)

/-- The second report is that of the first run, on top of a base. -/
structure Report.OnTop (base : List Word) (before : String) (report report' : Report) : Prop where
  result : report'.result = report.result.map fun a => { a with output := before ++ a.output }
  state  : report'.machine.state = report.machine.state.onto base before
  stdout : report'.log.stdout = report.log.stdout

namespace Machine

theorem answer_onto (n : Nat) (t : State) (c : Option Stop)
    (h : ∀ e, answer n t c = .error e → e.Supplied) :
    answer n (t.onto base before) c =
      (answer n t c).map fun a => { a with output := before ++ a.output } := by
  rcases c with _ | _ | _
  · rfl
  · cases hs : t.stack with
    | nil =>
        simp only [answer, hs] at h
        exact absurd rfl (h _ rfl 1 0)
    | cons w ws =>
        simp only [answer, State.onto, hs, List.cons_append]
        rfl
  · rfl

/-- **What is below does not matter to a run** that finds its operands. -/
theorem Reports.onto {m m' : Machine} {code : Code} {out : Stdout} {budget : Option Nat} {n : Nat}
    {report : Report} (h : m.Reports code out budget n report)
    (hstate : (m'.start code).state = (m.start code).state.onto base before)
    (hm : m.instructions = .standard)
    (hext : m.instructions.Extends m'.instructions) (hr : ∀ e, report.result = .error e → A e)
    (hA : ∀ e, A e → e.Supplied)
    (hnone : ∀ {o pc}, A (.unknownOpcode o pc) → m.instructions.action? o = none →
      m'.instructions.action? o = none) :
    ∃ report', m'.Reports code out budget n report' ∧ report.OnTop base before report' := by
  obtain ⟨es, t, c, hs, rfl⟩ := h.runs
  have hfollows : (m'.program code out).Follows (m.program code out) A (State.Onto base before)
      Effect.SameUntraced := Program.follows_onto rfl rfl hm hext hA hnone
  obtain ⟨_, fs, hs', rfl, hfs⟩ := hfollows.runs Effect.additive_sameUntraced hs
    (by rintro e rfl; exact hr e rfl) hstate
  refine ⟨_, reports_of_runs hs', ?_, rfl, ?_⟩
  · exact answer_onto n t c fun e he => hA e (hr e he)
  · rw [stdout_reported, stdout_reported, hfs.printed_eq]

end Machine

end StackMachine
