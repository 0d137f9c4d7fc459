import Mathlib.Data.List.Basic
import StackMachine.Proofs.Journal
import StackMachine.Proofs.Transparency

/-!
# Proofs — Chronicle

The events of a run are its history, told once and in order.  The run starts; each instruction that
it fetches is told when it is fetched, with a warning for each line that it could not print
(`Program.eventsAt`); and at most one event tells of the end.  There are six ways in which a run can
be over, and three of them are told (`Machine.Finishes`): a halt that has a word to report, a fault
of an action, and a budget that is used up.  Before the start, one event tells that the code could
not be listed, if it was to be (`Machine.Opens`).

`events_tell_run` puts these together for the journal of the run.
-/

namespace StackMachine

/-- Whether the event is that of a fetch. -/
def Event.isExec : Event → Bool
  | .exec .. => true
  | _        => false

/-- Whether the event tells how a run ended. -/
def Event.isClosing : Event → Bool
  | .halted .. | .faulted .. | .stepLimitExceeded .. => true
  | _                                                => false

/-! ### The events of one instruction -/

namespace Effect

/-- A line that is printed is no event, and one that is not is a warning. -/
theorem filterMap_event?_map_print (ps : List Print) :
    (ps.map print).filterMap event? = List.replicate (ps.count .failed) .printFailed := by
  induction ps with
  | nil => rfl
  | cons p ps ih =>
      cases p with
      | line w =>
          have hne : Print.line w ≠ .failed := nofun
          rw [List.count_cons_of_ne hne, ← ih]
          rfl
      | failed =>
          rw [List.count_cons_self, List.replicate_succ, ← ih]
          rfl

end Effect

namespace Program

/-- The events of the instruction that is fetched in `s`: that it is fetched, and a warning for each
line that its action cannot print. -/
def eventsAt (p : Program) (s : State) : List Event :=
  match p.code[s.pc]? with
  | none   => []
  | some i =>
    .exec s.pc i.opcode i.argument :: List.replicate ((p.prints s).count .failed) .printFailed

variable {p : Program} {s t : State} {i : Instruction}

theorem eventsAt_of_some (hi : p.code[s.pc]? = some i) :
    p.eventsAt s = .exec s.pc i.opcode i.argument ::
      List.replicate ((p.prints s).count .failed) .printFailed := by
  rw [eventsAt, hi]

theorem isClosing_of_mem_eventsAt : ∀ e ∈ p.eventsAt s, e.isClosing = false := by
  rw [eventsAt]
  split
  · nofun
  · rw [List.forall_mem_cons]
    exact ⟨rfl, fun e he => List.eq_of_mem_replicate he ▸ rfl⟩

/-- There is one fetch among them. -/
theorem countP_isExec_eventsAt (h : s.pc < p.code.size) :
    (p.eventsAt s).countP Event.isExec = 1 := by
  rw [eventsAt_of_some (Array.getElem?_eq_getElem h), List.countP_cons_of_pos rfl,
    List.countP_replicate]
  rfl

theorem countP_isExec_flatMap {ts : List State} (h : ∀ u ∈ ts, u.pc < p.code.size) :
    (ts.flatMap p.eventsAt).countP Event.isExec = ts.length := by
  induction ts with
  | nil => rfl
  | cons u us ih =>
      rw [List.forall_mem_cons] at h
      rw [List.flatMap_cons, List.countP_append, countP_isExec_eventsAt h.1, ih h.2, Nat.add_comm]
      rfl

/-- What is let out of a fetched instruction, as events. -/
theorem events_of_comes {r : Except Fault Flow} {after : List Effect}
    (hi : p.code[s.pc]? = some i)
    (h : p.step s = ⟨r, t, p.fetched s.pc i ++ (p.prints s).map .print ++ after⟩) :
    (p.step s).emitted.filterMap Effect.event? =
      p.eventsAt s ++ after.filterMap Effect.event? := by
  have hfetched : (p.fetched s.pc i).filterMap Effect.event? =
      [.exec s.pc i.opcode i.argument] := by
    rw [← Effect.filterMap_event?_untraced, untraced_fetched]
    rfl
  rw [h, List.filterMap_append, List.filterMap_append, hfetched,
    Effect.filterMap_event?_map_print, eventsAt_of_some hi, List.singleton_append]

theorem filterMap_event?_completed (p : Program) (s : State) :
    (p.completed s).filterMap Effect.event? = [] := by
  rw [← Effect.filterMap_event?_untraced, untraced_completed]
  rfl

/-- An instruction that completes is told by its fetch and its warnings alone. -/
theorem events_of_ok {f : Flow} (h : (p.step s).result = .ok f) :
    (p.step s).emitted.filterMap Effect.event? = p.eventsAt s := by
  have hi := Array.getElem?_eq_getElem (pc_lt_of_step_ok h)
  obtain ⟨r, t, after, hc, hs⟩ := exists_comes hi
  rw [events_of_comes hi hs]
  rw [hs] at h
  cases hc with
  | completed => rw [filterMap_event?_completed, List.append_nil]
  | faulted | unknown => cases h

theorem events_of_forall_ok {ts : List State} (h : ∀ u ∈ ts, ∃ f, (p.step u).result = .ok f) :
    (ts.flatMap fun u => (p.step u).emitted).filterMap Effect.event? = ts.flatMap p.eventsAt := by
  rw [List.filterMap_flatMap]
  refine List.flatMap_congr fun u hu => ?_
  obtain ⟨f, hf⟩ := h u hu
  exact events_of_ok hf

end Program

/-! ### The events of a run -/

namespace Machine

variable {m : Machine} {code : Code} {out : Stdout} {budget : Option Nat} {n : Nat}
  {report : Report} {ts : List State} {r : Except Fault Answer} {told : List Event}

/-- The states in which the run of the code fetches an instruction, in their order. -/
def Journal (m : Machine) (code : Code) (out : Stdout) (budget : Option Nat) (ts : List State) :
    Prop :=
  (m.program code out).Journal budget (m.start code).state ts

/-- What is told before the start: that the code cannot be listed, if it is to be listed and has an
opcode that the set does not know.  The first such opcode is named. -/
inductive Opens (m : Machine) (code : Code) : List Event → Prop where
  | silent (h : m.debug = true → ∀ i ∈ code, (m.instructions.mnemonic? i.opcode).isSome) :
      Opens m code []
  | unlisted {pc : Nat} {o : Opcode} (hd : m.debug = true)
      (h : Listing.FirstUnknown m.instructions code pc o) :
      Opens m code [.disassemblyFailed pc o]

/-- The six ways in which a run can be over that fetched in the states of a list: the last of them
halted, with a word to report or without one; its action faulted, or it had none; nothing was there
to fetch after them; or they used up the budget.  Beside its result stands what is told of the
end. -/
inductive Finishes (m : Machine) (code : Code) (out : Stdout) (budget : Option Nat) :
    List State → Except Fault Answer → List Event → Prop where
  | halted {ts : List State} {u t : State} {value : Word} {rest : List Word}
      (h : m.instructions.Performs code out u (.ok .halt) t) (hs : t.stack = value :: rest) :
      Finishes m code out budget (ts ++ [u]) (.ok ⟨value, t.output⟩)
        [.halted value (ts.length + 1)]
  | empty {ts : List State} {u t : State}
      (h : m.instructions.Performs code out u (.ok .halt) t) (hs : t.stack = []) :
      Finishes m code out budget (ts ++ [u]) (.error (.stackUnderflow 1 0)) []
  | faulted {ts : List State} {u t : State} {e : Fault}
      (h : m.instructions.Performs code out u (.error e) t) :
      Finishes m code out budget (ts ++ [u]) (.error e) [.faulted u.pc e]
  | unknownOpcode {ts : List State} {u : State} {i : Instruction} (hi : code[u.pc]? = some i)
      (ha : m.instructions.action? i.opcode = none) :
      Finishes m code out budget (ts ++ [u]) (.error (.unknownOpcode i.opcode u.pc)) []
  | outOfBounds {ts : List State} {t : State} (hl : m.Looks code out budget ts.length t)
      (hpc : code.size ≤ t.pc) :
      Finishes m code out budget ts (.error (.outOfBounds (.ofCount t.pc) code.size)) []
  | exhausted {ts : List State} {t : State} {es : List Effect}
      (hs : (m.program code out).Steps ts.length (m.start code).state es t)
      (hb : budget = some ts.length) :
      Finishes m code out budget ts (.error (.stepLimitExceeded ts.length))
        [.stepLimitExceeded ts.length]

theorem exists_opens (m : Machine) (code : Code) :
    m.Opens code ((m.preamble code).filterMap Effect.event?) := by
  obtain ⟨set, state, _ | _⟩ := m
  · exact .silent nofun
  · rcases events_preamble ⟨set, state, true⟩ code with ⟨hk, hp⟩ | ⟨pc, o, hu, hp⟩
    · rw [hp]
      exact .silent fun _ => hk
    · rw [hp]
      exact .unlisted rfl hu

/-- A halt is told if there is a word to report. -/
theorem finishes_of_halt {u t : State} (h : m.instructions.Performs code out u (.ok .halt) t) :
    m.Finishes code out budget (ts ++ [u]) (answer (ts.length + 1) t (some .halted))
      ((closing (ts.length + 1) t (some .halted)).filterMap Effect.event?) := by
  cases hs : t.stack with
  | nil =>
      simp only [answer, closing, hs]
      exact .empty h hs
  | cons value rest =>
      simp only [answer, closing, hs]
      exact .halted h hs

/-- A fetch that faults is told, and told again as the end if it was its action that did. -/
theorem finishes_of_fault {u t : State} {es : List Effect} {e : Fault} (hu : u.pc < code.size)
    (h : (m.program code out).step u = ⟨.error e, t, es⟩) :
    ∃ told, m.Finishes code out budget (ts ++ [u]) (.error e) told ∧
      es.filterMap Effect.event? = (m.program code out).eventsAt u ++ told := by
  have hi : (m.program code out).code[u.pc]? = some code[u.pc] := Array.getElem?_eq_getElem hu
  obtain ⟨r, v, after, hc, hstep⟩ := Program.exists_comes hi
  have hevents := Program.events_of_comes hi hstep
  rw [h] at hevents
  refine ⟨_, ?_, hevents⟩
  cases h.symm.trans hstep
  cases hc with
  | faulted hp => exact .faulted hp
  | unknown ha => exact .unknownOpcode hi ha

/-- **How a run is over decides what is told of its end.** -/
theorem exists_finishes {t : State} {c : Option Stop} (hj : m.Journal code out budget ts)
    (hl : (m.program code out).Leaves budget (m.start code).state ts n t c) :
    ∃ told, m.Finishes code out budget ts (answer n t c) told ∧
      (ts.flatMap fun u => ((m.program code out).step u).emitted).filterMap Effect.event? ++
          (closing n t c).filterMap Effect.event? =
        ts.flatMap (m.program code out).eventsAt ++ told := by
  have hnext : ∀ {us vs : List State} {es : List Effect} {t : State}, ts = us ++ vs →
      (m.program code out).Steps us.length (m.start code).state es t →
      ∀ u ∈ us, ∃ f, ((m.program code out).step u).result = .ok f := by
    rintro us vs es t rfl hs u hu
    exact ⟨.next, hj.forall_next hs u hu⟩
  cases hl with
  | exhausted hs hb =>
      refine ⟨_, .exhausted hs hb, ?_⟩
      rw [Program.events_of_forall_ok (hnext (List.append_nil ts).symm hs)]
      rfl
  | unfetched hl hpc =>
      obtain ⟨es, hs⟩ := hl.steps
      refine ⟨_, .outOfBounds hl hpc, ?_⟩
      rw [Program.events_of_forall_ok (hnext (List.append_nil ts).symm hs)]
      rfl
  | @halted us u t es h =>
      obtain ⟨fs, hs⟩ := hj.exists_steps
      have hok : ∀ v ∈ us ++ [u], ∃ f, ((m.program code out).step v).result = .ok f := by
        rw [List.forall_mem_append, List.forall_mem_singleton, h]
        exact ⟨hnext rfl hs, .halt, rfl⟩
      refine ⟨_, finishes_of_halt (Program.step_ok_iff.mp ⟨es, h⟩), ?_⟩
      rw [Program.events_of_forall_ok hok]
  | @faulted us u t es e h =>
      obtain ⟨fs, hs⟩ := hj.exists_steps
      have hu : u.pc < code.size := hj.pc_lt (List.mem_append_right us List.mem_cons_self)
      obtain ⟨told, hf, hevents⟩ := finishes_of_fault hu h
      refine ⟨told, hf, ?_⟩
      rw [List.flatMap_append, List.flatMap_append, List.flatMap_singleton, List.flatMap_singleton,
        List.filterMap_append, Program.events_of_forall_ok (hnext rfl hs), h, hevents]
      simp [closing]

/-! ### What is told of the end -/

namespace Finishes

theorem length_le_one (h : m.Finishes code out budget ts r told) : told.length ≤ 1 := by
  cases h <;> simp

theorem halted_mem_iff (h : m.Finishes code out budget ts r told) (value : Word) (steps : Nat) :
    .halted value steps ∈ told ↔ (∃ text, r = .ok ⟨value, text⟩) ∧ steps = ts.length := by
  cases h with
  | halted => simp [eq_comm]
  | empty | faulted | unknownOpcode | outOfBounds | exhausted => simp

/-- A fault of the last action is what the run ends in. -/
theorem eq_of_performs_error {us : List State} {u t : State} {e : Fault}
    (hj : m.Journal code out budget (us ++ [u])) (h : m.Finishes code out budget (us ++ [u]) r told)
    (hp : m.instructions.Performs code out u (.error e) t) : told = [.faulted u.pc e] := by
  have hresult : ((m.program code out).step u).result = .error e := Program.result_of_performs hp
  generalize hts : us ++ [u] = ts at h
  cases h with
  | halted hp' _ | empty hp' _ =>
      obtain ⟨-, ⟨⟩⟩ := List.append_inj' hts rfl
      cases hresult.symm.trans (Program.result_of_performs hp')
  | faulted hp' =>
      obtain ⟨-, ⟨⟩⟩ := List.append_inj' hts rfl
      cases hresult.symm.trans (Program.result_of_performs hp')
      rfl
  | unknownOpcode hi ha =>
      obtain ⟨-, ⟨⟩⟩ := List.append_inj' hts rfl
      obtain ⟨hi', ha', -⟩ := hp
      cases hi.symm.trans hi'
      cases ha.symm.trans ha'
  | outOfBounds hl _ =>
      subst hts
      obtain ⟨es, hs⟩ := hl.steps
      exact absurd hs (hj.not_steps_of_error hresult)
  | exhausted hs _ =>
      subst hts
      exact absurd hs (hj.not_steps_of_error hresult)

theorem faulted_mem_iff (hj : m.Journal code out budget ts)
    (h : m.Finishes code out budget ts r told) (pc : Nat) (e : Fault) :
    .faulted pc e ∈ told ↔ r = .error e ∧ ∃ us u t, ts = us ++ [u] ∧ u.pc = pc ∧
      m.instructions.Performs code out u (.error e) t := by
  constructor
  · intro he
    cases h with
    | faulted hp =>
        obtain ⟨rfl, rfl⟩ : pc = _ ∧ e = _ := by simpa using he
        exact ⟨rfl, _, _, _, rfl, rfl, hp⟩
    | halted | empty | unknownOpcode | outOfBounds | exhausted => simp at he
  · rintro ⟨-, us, u, t, rfl, rfl, hp⟩
    rw [eq_of_performs_error hj h hp]
    exact List.mem_singleton_self _

theorem exhausted_of_mem (h : m.Finishes code out budget ts r told) {limit : Nat}
    (he : .stepLimitExceeded limit ∈ told) : budget = some limit ∧ ts.length = limit ∧
      ∃ es t, (m.program code out).Steps limit (m.start code).state es t := by
  cases h with
  | exhausted hs hb =>
      obtain rfl : limit = _ := by simpa using he
      exact ⟨hb, rfl, _, _, hs⟩
  | halted | empty | faulted | unknownOpcode | outOfBounds => simp at he

theorem countP_isExec (h : m.Finishes code out budget ts r told) :
    told.countP Event.isExec = 0 := by
  cases h <;> rfl

end Finishes

/-- The events of a report, in four parts: what is told before the start, the start, what is told of
the instructions in the journal, and what is told of the end. -/
structure Chronicle (m : Machine) (code : Code) (out : Stdout) (budget : Option Nat)
    (report : Report) (opening : List Event) (ts : List State) (told : List Event) : Prop where
  opens    : m.Opens code opening
  journal  : m.Journal code out budget ts
  finishes : m.Finishes code out budget ts report.result told
  events   : report.log.events = opening ++ .runStarted code.size m.state.pc ::
    (ts.flatMap (m.program code out).eventsAt ++ told)

/-- **Every report has a chronicle.** -/
theorem Reports.exists_chronicle (h : m.Reports code out budget n report) :
    ∃ opening ts told, m.Chronicle code out budget report opening ts told := by
  obtain ⟨es, t, c, hs, rfl⟩ := h.runs
  obtain ⟨ts, hj, rfl, hl⟩ := hs.journal
  obtain ⟨told, hf, htold⟩ := exists_finishes hj hl
  exact ⟨_, ts, told, m.exists_opens code, hj, hf, by rw [events_reported, htold]⟩

namespace Chronicle

variable {opening : List Event} (h : m.Chronicle code out budget report opening ts told)

include h

/-- What is told of the end of a run is told at the end. -/
theorem mem_iff {e : Event} (he : e.isClosing = true) : e ∈ report.log.events ↔ e ∈ told := by
  have hopening : e ∉ opening := by
    cases h.opens with
    | silent => exact List.not_mem_nil
    | unlisted =>
        rw [List.mem_singleton]
        rintro rfl
        cases he
  have hts : e ∉ ts.flatMap (m.program code out).eventsAt := by
    intro hmem
    obtain ⟨u, -, hu⟩ := List.mem_flatMap.mp hmem
    cases he.symm.trans (Program.isClosing_of_mem_eventsAt e hu)
  have hstarted : e ≠ .runStarted code.size m.state.pc := by
    rintro rfl
    cases he
  simp [h.events, hopening, hts, hstarted]

/-- Each fetch is told once. -/
theorem countP_isExec : report.log.events.countP Event.isExec = ts.length := by
  have hopening : opening.countP Event.isExec = 0 := by
    cases h.opens <;> rfl
  have hts := Program.countP_isExec_flatMap fun u (hu : u ∈ ts) => h.journal.pc_lt hu
  simp [h.events, List.countP_append, hopening, hts, h.finishes.countP_isExec, Event.isExec]

/-- That a budget is used up is told exactly if the budget has ended the run. -/
theorem exhausted_mem_iff (hr : m.Reports code out budget n report) (limit : Nat) :
    .stepLimitExceeded limit ∈ report.log.events ↔
      budget = some limit ∧ m.Exhausts code out limit report := by
  constructor
  · intro he
    obtain ⟨hb, -, es, t, hs⟩ := h.finishes.exhausted_of_mem ((h.mem_iff rfl).mp he)
    have hr' := reports_of_runs (.exhausts hs hb)
    rw [← exhausted_eq_reported] at hr'
    exact ⟨hb, es, t, hs, (hr.unique hr').2⟩
  · rintro ⟨-, es, t, -, rfl⟩
    simp [exhausted, Log.events, Effect.event?]

end Chronicle

/-- **The events of a run are its history.**  A report tells, in this order: that the code cannot be
listed, if it is to be and has an opcode that the set does not know; that the run starts; each
instruction that the run fetches, with a warning for each line that it cannot print; and at most one
thing of the end.  There are as many fetches as there are instructions in the journal.  A halt is
told exactly if the run has a result, with its value and the number of fetches; a fault exactly if
an action ended the run with it, and the instruction is the one fetched last; a budget that is used
up exactly if it ended the run, and then it is the number of fetches. -/
theorem events_tell_run (h : m.Reports code out budget n report) :
    ∃ opening ts told, m.Chronicle code out budget report opening ts told ∧ told.length ≤ 1 ∧
      report.log.events.countP Event.isExec = ts.length ∧
      (∀ value steps, .halted value steps ∈ report.log.events ↔
        (∃ output, report.result = .ok ⟨value, output⟩) ∧ steps = ts.length) ∧
      (∀ pc e, .faulted pc e ∈ report.log.events ↔ report.result = .error e ∧
        ∃ us u t, ts = us ++ [u] ∧ u.pc = pc ∧
          m.instructions.Performs code out u (.error e) t) ∧
      ∀ limit, (.stepLimitExceeded limit ∈ report.log.events ↔
          budget = some limit ∧ m.Exhausts code out limit report) ∧
        (.stepLimitExceeded limit ∈ report.log.events → ts.length = limit) := by
  obtain ⟨opening, ts, told, hc⟩ := h.exists_chronicle
  refine ⟨opening, ts, told, hc, hc.finishes.length_le_one, hc.countP_isExec, fun value steps => ?_,
    fun pc e => ?_, fun limit => ⟨hc.exhausted_mem_iff h limit, fun he => ?_⟩⟩
  · rw [hc.mem_iff rfl, hc.finishes.halted_mem_iff]
  · rw [hc.mem_iff rfl, hc.finishes.faulted_mem_iff hc.journal]
  · exact (hc.finishes.exhausted_of_mem ((hc.mem_iff rfl).mp he)).2.1

/-- Code that cannot be listed to its end, and a line that cannot be printed; the run halts. -/
theorem events_tell_run_unprinted :
    ∃ report, Reports { debug := true } #[⟨1, 5⟩, ⟨0, 0⟩, ⟨2, 0⟩, ⟨77, 0⟩] .closed none 3 report ∧
      report.log.events = [.disassemblyFailed 3 77, .runStarted 4 0, .exec 0 1 5, .exec 1 0 0,
        .printFailed, .exec 2 2 0, .halted 5 3] ∧
      ∃ opening ts told, Chronicle { debug := true } #[⟨1, 5⟩, ⟨0, 0⟩, ⟨2, 0⟩, ⟨77, 0⟩] .closed none
        report opening ts told ∧ ts.length = 3 := by
  have h : Reports { debug := true } #[⟨1, 5⟩, ⟨0, 0⟩, ⟨2, 0⟩, ⟨77, 0⟩] .closed none 3 _ :=
    .unbounded (show run? _ _ 3 _ = some _ from rfl)
  obtain ⟨opening, ts, told, hc, -, hcount, -⟩ := events_tell_run h
  exact ⟨_, h, rfl, opening, ts, told, hc, hcount.symm⟩

end Machine

end StackMachine
