import StackMachine.Proofs.Counter
import StackMachine.Proofs.Locality

/-!
# Proofs — Reset

A reset keeps the length of the code that ran last, and nothing else of what a machine has been
through.  The length is not seen there: a run sets it anew before its first instruction, and between
runs no command looks at it.  So two sessions that differ in that length answer every command alike,
and differ in no more than a length after it (`Session.perform_alike`), whatever the actions do that
a run comes to.

`reset_erases_history`: a machine that is reset runs any code as a new machine does that has its
instructions and its switch, and answers all further commands as that one does.
-/

namespace StackMachine

namespace Machine

/-- The machine, set to code of another length. -/
def inLength (m : Machine) (length : Nat) : Machine :=
  { m with state := m.state.inLength length }

variable {m : Machine} {codes : List Code} {code : Code} {out : Stdout} {budget : Option Nat}
  {n : Nat} {report : Report}

/-! ### Runs set the length of the code -/

theorem run?_inLength (m : Machine) (length : Nat) (code : Code) (fuel : Nat) (out : Stdout) :
    (m.inLength length).run? code fuel out = m.run? code fuel out := rfl

/-- The length that a machine is set to makes no difference to what it reports. -/
theorem reports_inLength_iff (length : Nat) :
    (m.inLength length).Reports code out budget n report ↔ m.Reports code out budget n report := by
  rw [reports_iff, reports_iff]
  rfl

/-- A run leaves the length of its code. -/
theorem Reports.codeLength_eq (hm : m.instructions.Reachable Action.Composed)
    (h : m.Reports code out budget n report) :
    report.machine.state.codeLength = code.size := by
  obtain ⟨es, t, c, hs, rfl⟩ := h.runs
  exact hs.invariant (I := fun u => u.codeLength = code.size)
    (fun u hu => (step_codeLength hm u).trans hu) rfl

/-- The length of the last of the codes that were run, the last one first; zero if none was. -/
def lastLength : List Code → Nat
  | []        => 0
  | code :: _ => code.size

/-- **The length that a machine is set to is that of the code that it ran last.** -/
theorem Used.codeLength_eq (h : m.Used codes) : m.state.codeLength = lastLength codes := by
  induction h with
  | new => rfl
  | run h hr _ => exact hr.codeLength_eq h.reachable
  | register _ _ ih | rewind _ ih | reset _ ih | setDebug _ _ ih => exact ih

end Machine

/-! ### Sessions that differ in a length -/

/-- The session, its machine set to code of another length. -/
def Session.inLength (s : Session) (length : Nat) : Session :=
  { s with machine := s.machine.inLength length }

/-- The two responses are alike, but for the length that the machine is set to. -/
structure Response.Alike (r r' : Response) : Prop where
  result  : r'.result = r.result
  log     : r'.log = r.log
  session : ∃ length, r'.session = r.session.inLength length

namespace Session

/-- A report leaves nothing to differ. -/
theorem alike_reported (s : Session) (length : Nat) (report : Report) :
    (s.reported report).Alike ((s.inLength length).reported report) :=
  ⟨rfl, rfl, report.machine.state.codeLength, rfl⟩

/-- **No command tells the length that a machine is set to.** -/
theorem perform_alike (s : Session) (length patience : Nat) (c : Command) :
    (s.perform patience c).Alike ((s.inLength length).perform patience c) := by
  cases c with
  | register mnemonic body =>
      simp only [perform, Machine.register, inLength, Machine.inLength]
      cases s.machine.instructions.register mnemonic body.action <;>
        exact ⟨rfl, rfl, length, rfl⟩
  | assemble source =>
      simp only [perform, inLength, Machine.inLength]
      cases s.machine.instructions.assemble source <;> exact ⟨rfl, rfl, length, rfl⟩
  | run limit out =>
      cases limit with
      | some limit => exact s.alike_reported length _
      | none =>
          have hrun : (s.inLength length).machine.run? (s.inLength length).code patience out =
              s.machine.run? s.code patience out := s.machine.run?_inLength ..
          simp only [perform, hrun]
          cases s.machine.run? s.code patience out with
          | some report => exact s.alike_reported length report
          | none => exact ⟨rfl, rfl, length, rfl⟩ -- given up, with the machine as it was
  | load | rewind | reset | setDebug => exact ⟨rfl, rfl, length, rfl⟩

/-- The responses to commands that follow one another. -/
def responses (patience : Nat) : Session → List Command → List Response
  | _, []      => []
  | s, c :: cs =>
    let r := s.perform patience c
    r :: r.session.responses patience cs

/-- Nor does any number of commands, one after another. -/
theorem responses_alike (patience : Nat) (s : Session) (length : Nat) (cs : List Command) :
    List.Forall₂ Response.Alike (s.responses patience cs)
      ((s.inLength length).responses patience cs) := by
  induction cs generalizing s length with
  | nil => exact .nil
  | cons c cs ih =>
      have hc := s.perform_alike length patience c
      obtain ⟨length', hs⟩ := hc.session
      refine .cons hc ?_
      rw [hs]
      exact ih _ length'

end Session

namespace Machine

variable {m : Machine} {codes : List Code}

/-- **A reset erases all history.**

Let a machine have been in use in any way: registrations of composed actions, runs of any codes to
any end, changes of the counter and of the switch, earlier resets.  A reset leaves the machine that
is new, with its instructions and its switch, but for the length of the code that ran last.  Any
code then runs as on the new machine, with a budget or without one: it comes back exactly if it does
there, and with the same report, which has the result, the machine after the run and all that was
let out.  And whatever a session is told to do from there on, it answers as it would with the new
machine. -/
theorem reset_erases_history (h : m.Used codes) :
    let new : Machine := { instructions := m.instructions, debug := m.debug }
    m.reset = new.inLength (lastLength codes) ∧
    (∀ code out budget n report,
      m.reset.Reports code out budget n report ↔ new.Reports code out budget n report) ∧
    ∀ patience code commands,
      List.Forall₂ Response.Alike (Session.responses patience ⟨new, code⟩ commands)
        (Session.responses patience ⟨m.reset, code⟩ commands) := by
  intro new
  have hreset : m.reset = new.inLength (lastLength codes) := by
    rw [← h.codeLength_eq]
    rfl
  rw [hreset]
  exact ⟨rfl, fun code out budget n report => reports_inLength_iff _,
    fun patience code commands => Session.responses_alike patience ⟨new, code⟩ _ commands⟩

/-- Pushes the length of the code. -/
def measure : Routine := [.push .length]

/-- A machine that measured a code of three instructions and divided by zero in it measures the next
code right after a reset, and so does the session that goes on with it. -/
theorem reset_erases_history_measure :
    let set : InstructionSet := ⟨InstructionSet.standard.entries.push ⟨"LENGTH", measure.action⟩⟩
    let m : Machine := ⟨set, { stack := [0, 3], pc := 3, codeLength := 3 }, true⟩
    m.Used [#[⟨13, 0⟩, ⟨1, 0⟩, ⟨5, 0⟩]] ∧
    m.reset = ⟨set, { codeLength := 3 }, true⟩ ∧
    (∃ report, Reports ⟨set, {}, true⟩ #[⟨13, 0⟩, ⟨2, 0⟩] .connected (some 9) 2 report ∧
      m.reset.Reports #[⟨13, 0⟩, ⟨2, 0⟩] .connected (some 9) 2 report ∧
      report.result = .ok ⟨2, ""⟩) ∧
    List.Forall₂ Response.Alike
      (Session.responses 5 ⟨⟨set, {}, true⟩, #[]⟩ [.assemble "LENGTH\nEXIT", .run none .connected])
      (Session.responses 5 ⟨m.reset, #[]⟩ [.assemble "LENGTH\nEXIT", .run none .connected]) := by
  intro set m
  have reachable : set.Reachable Action.Composed :=
    .register .standard measure.composed_action
      (InstructionSet.register_of_notMem _ (by decide) (by decide))
  have faults : Reports ⟨set, {}, true⟩ #[⟨13, 0⟩, ⟨1, 0⟩, ⟨5, 0⟩] .connected none 2 _ :=
    .unbounded (show run? _ _ 3 _ = some _ from rfl)
  have used : m.Used [#[⟨13, 0⟩, ⟨1, 0⟩, ⟨5, 0⟩]] := (Used.new reachable true).run faults
  have measures : Reports ⟨set, {}, true⟩ #[⟨13, 0⟩, ⟨2, 0⟩] .connected (some 9) 2 _ := .bounded 9
  obtain ⟨kept, runs, answers⟩ := reset_erases_history used
  exact ⟨used, kept, ⟨_, measures, (runs ..).mpr measures, rfl⟩, answers ..⟩

end Machine

end StackMachine
