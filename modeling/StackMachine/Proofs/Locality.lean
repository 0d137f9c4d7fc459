import StackMachine.Proofs.Plain
import StackMachine.Proofs.Reachable

/-!
# Proofs — Locality

A run depends only on the instructions that it fetches.  Of the code it otherwise sees the length,
and that only as a bound: a jump has to lead into the code, and an instruction has to be fetched
from it.  So the code may be longer than it was, and it may be anything where the run does not come
by; a run that stays within its code does the same there (`reports_depend_on_fetched`).

The two runs are in lockstep, in states that differ in the length of the code alone
(`State.InLonger`).  Plain computations respect this as long as they stay within the bounds
(`Plain.respects_longer`); that is why the instructions have to be standard ones, since others may
look at the length.
-/

namespace StackMachine

/-- The fault is not that of leaving the code. -/
def Fault.Within (e : Fault) : Prop := ∀ target length, e ≠ .outOfBounds target length

/-- The state in a code of another length. -/
def State.inLength (s : State) (length : Nat) : State := { s with codeLength := length }

/-- The second state is the first in a code that is no shorter. -/
def State.InLonger (length : Nat) (s s' : State) : Prop :=
  s.codeLength ≤ length ∧ s' = s.inLength length

namespace Exec

variable {α : Type} {length : Nat}

theorem respects_require (n : Nat) :
    Respects Fault.Within (State.InLonger length) (require n) := by
  rintro out s _ ⟨hl, rfl⟩ -
  rcases Nat.lt_or_ge s.depth n with hn | hn
  · have hn' : (s.inLength length).depth < n := hn
    rw [require_of_lt hn, require_of_lt hn']
    exact ⟨rfl, ⟨hl, rfl⟩, rfl⟩
  · have hn' : n ≤ (s.inLength length).depth := hn
    rw [require_of_le hn, require_of_le hn']
    exact ⟨rfl, ⟨hl, rfl⟩, rfl⟩

theorem respects_pop : Respects Fault.Within (State.InLonger length) pop := by
  rintro out s _ ⟨hl, rfl⟩ -
  cases hs : s.stack with
  | nil =>
      have hs' : (s.inLength length).stack = [] := hs
      rw [pop_of_nil hs, pop_of_nil hs']
      exact ⟨rfl, ⟨hl, rfl⟩, rfl⟩
  | cons w ws =>
      have hs' : (s.inLength length).stack = w :: ws := hs
      rw [pop_of_cons hs, pop_of_cons hs']
      exact ⟨rfl, ⟨hl, rfl⟩, rfl⟩

theorem respects_top : Respects Fault.Within (State.InLonger length) top := by
  rintro out s _ ⟨hl, rfl⟩ -
  cases hs : s.stack with
  | nil =>
      have hs' : (s.inLength length).stack = [] := hs
      rw [top_of_nil hs, top_of_nil hs']
      exact ⟨rfl, ⟨hl, rfl⟩, rfl⟩
  | cons w ws =>
      have hs' : (s.inLength length).stack = w :: ws := hs
      rw [top_of_cons hs, top_of_cons hs']
      exact ⟨rfl, ⟨hl, rfl⟩, rfl⟩

/-- A place in the code is one in any longer code. -/
theorem respects_target (w : Word) :
    Respects Fault.Within (State.InLonger length) (target w) := by
  rintro out s _ ⟨hl, rfl⟩ hA
  by_cases hw : 0 ≤ w.toInt ∧ w.toInt < s.codeLength
  · have hw' : 0 ≤ w.toInt ∧ w.toInt < (s.inLength length).codeLength :=
      ⟨hw.1, Int.lt_of_lt_of_le hw.2 (Int.ofNat_le.mpr hl)⟩
    rw [target_of_lt hw, target_of_lt hw']
    exact ⟨rfl, ⟨hl, rfl⟩, rfl⟩
  · rw [target_of_not_lt hw] at hA
    exact absurd rfl (hA _ rfl _ _)

/-- **Plain computations do the same in a longer code**, as long as they stay within the shorter. -/
theorem Plain.respects_longer {x : Exec α} (h : Plain x) :
    Respects Fault.Within (State.InLonger length) x := by
  induction h with
  | pure a => exact .pure a
  | bind _ _ ihx ihf => exact ihx.bind ihf
  | divisionByZero => exact .raise _
  | require n => exact respects_require n
  | pop => exact respects_pop
  | top => exact respects_top
  | target w => exact respects_target w
  | push w | setPc pc | writeWord w | writeChar c =>
      rintro out s _ ⟨hl, rfl⟩ -
      exact ⟨rfl, ⟨hl, rfl⟩, rfl⟩
  | print w =>
      rintro (_ | _) s _ ⟨hl, rfl⟩ - <;> exact ⟨rfl, ⟨hl, rfl⟩, rfl⟩

end Exec

namespace Program

variable {p q : Program} {s s' : State}

/-- An instruction that is the same in a longer code goes alike there, unless the run leaves the
shorter one with it. -/
theorem stepsAlike_of_getElem? (hp : p.instructions = .standard) (hq : q.instructions = .standard)
    (hout : q.out = p.out) (hR : State.InLonger q.code.size s s')
    (h : s.pc < p.code.size → q.code[s.pc]? = p.code[s.pc]?) :
    q.StepsAlike p Fault.Within (State.InLonger q.code.size) Effect.SameUntraced s s' := by
  cases hi : p.code[s.pc]? with
  | none =>
      intro hA
      rw [step_of_none hi] at hA
      exact absurd rfl (hA _ rfl _ _)
  | some i =>
      obtain ⟨hlt, -⟩ := Array.getElem?_eq_some_iff.mp hi
      obtain ⟨hl, rfl⟩ := hR
      refine stepsAlike_of_fetched hi ((h hlt).trans hi) rfl ⟨hl, rfl⟩ ?_ fun {a} ha => ⟨a, ?_, ?_⟩
      · rw [hp, hq]
        exact fun _ h => h
      · rwa [hq, ← hp]
      · obtain ⟨b, rfl⟩ := InstructionSet.exists_builtin_of_action? (hp ▸ ha)
        rw [hout]
        exact fun w => (Exec.plain_action b w).respects_longer p.out

end Program

/-! ### Reports -/

/-- The two reports are of runs that differ in the length of the code, and in nothing else that a
caller sees. -/
structure Report.AlikeInLonger (length : Nat) (report report' : Report) : Prop where
  result  : report'.result = report.result
  machine : report'.machine =
    { report.machine with state := report.machine.state.inLength length }
  stdout  : report'.log.stdout = report.log.stdout

namespace Machine

variable {m : Machine} {code code' : Code} {out : Stdout} {budget : Option Nat} {n : Nat}
  {report : Report}

theorem answer_codeLength (n : Nat) (t : State) (c : Option Stop) (length : Nat) :
    answer n (t.inLength length) c = answer n t c := by
  rcases c with _ | _ | _ <;> rfl

/-- The run is the same in a code that is no shorter and agrees where the run fetches. -/
theorem Reports.of_agree (h : m.Reports code out budget n report)
    (hm : m.instructions = .standard) (hr : ∀ e, report.result = .error e → e.Within)
    (hle : code.size ≤ code'.size)
    (hagree : ∀ pc, m.Fetches code out budget pc → code'[pc]? = code[pc]?) :
    ∃ report', m.Reports code' out budget n report' ∧
      report.AlikeInLonger code'.size report' := by
  obtain ⟨es, t, c, hs, rfl⟩ := h.runs
  have hstart : State.InLonger code'.size (m.start code).state (m.start code').state := ⟨hle, rfl⟩
  obtain ⟨t', fs, hs', ⟨-, rfl⟩, hfs⟩ :=
    hs.alike (q := m.program code' out) Effect.additive_sameUntraced
      (by rintro e rfl; exact hr e rfl) hstart fun k u u' hl hR =>
        Program.stepsAlike_of_getElem? hm hm rfl hR fun hlt => hagree u.pc ⟨k, u, hl, rfl, hlt⟩
  exact ⟨_, reports_of_runs hs', answer_codeLength n t c code'.size, rfl,
    by rw [stdout_reported, stdout_reported, hfs.printed_eq]⟩

/-- **A run depends only on the instructions it fetches.**  For a machine with the standard
instructions, in any state and under any budget, a run that does not end in leaving the code ends
alike with any other code that is no shorter and has the same instruction wherever the run fetches
one: after as many instructions, with the same result, stack, counter, output and printed lines.  In
particular, instructions that are put after the code make no difference. -/
theorem reports_depend_on_fetched (hm : m.instructions = .standard)
    (h : m.Reports code out budget n report) (hr : ∀ e, report.result = .error e → e.Within) :
    (∀ code' : Code, code.size ≤ code'.size →
      (∀ pc, m.Fetches code out budget pc → code'[pc]? = code[pc]?) →
      ∃ report', m.Reports code' out budget n report' ∧
        report.AlikeInLonger code'.size report') ∧
    ∀ more : Code, ∃ report', m.Reports (code ++ more) out budget n report' ∧
      report.AlikeInLonger (code ++ more).size report' := by
  refine ⟨fun code' hle hagree => h.of_agree hm hr hle hagree,
    fun more => h.of_agree hm hr (by simp) ?_⟩
  rintro pc ⟨k, t, -, -, hlt⟩
  rw [Array.getElem?_append_left hlt]

/-- Loads a five and jumps over a `POP` to the end. -/
def skipping : Code := #[⟨1, 5⟩, ⟨9, 3⟩, ⟨3, 0⟩, ⟨2, 0⟩]

/-- The instruction that is jumped over may be unknown to any set, and so may one after the end. -/
theorem reports_depend_on_fetched_skipping :
    ∃ report, ({} : Machine).Reports skipping .connected (some 3) 3 report ∧
      report.result = .ok ⟨5, ""⟩ ∧
      (∃ report', ({} : Machine).Reports #[⟨1, 5⟩, ⟨9, 3⟩, ⟨77, 0⟩, ⟨2, 0⟩, ⟨78, 0⟩] .connected
          (some 3) 3 report' ∧ report.AlikeInLonger 5 report') ∧
      ∃ report', ({} : Machine).Reports (skipping ++ #[⟨99, 0⟩]) .connected (some 3) 3 report' ∧
        report.AlikeInLonger 5 report' := by
  have hreport : ({} : Machine).Reports skipping .connected (some 3) 3 _ := .bounded 3
  obtain ⟨hreplace, happend⟩ := reports_depend_on_fetched rfl hreport nofun
  refine ⟨_, hreport, rfl, hreplace _ (by decide) ?_, happend #[⟨99, 0⟩]⟩
  rintro pc ⟨k, t, hl, rfl, -⟩
  have hk : k < 3 := hl.within 3 rfl
  rw [Program.Looks.state_eq hl]
  obtain rfl | rfl | rfl : k = 0 ∨ k = 1 ∨ k = 2 := by omega
  · rfl
  · rfl
  · rfl

end Machine

end StackMachine
