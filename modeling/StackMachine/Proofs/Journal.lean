import StackMachine.Proofs.Loop

/-!
# Proofs — Journal

A run as the list of its fetches.  `p.Journal budget s ts`: the states of `ts` are those in which
the run from `s` fetches an instruction, each once and in their order.  The list says all that a run
does before it is left: what the run lets out is what the instructions of the list let out, one
after the other, and how the run is left is told by how the list ends (`Runs.journal`).  Each
instruction but the last has completed and asked for the next (`Journal.forall_next`).

What one fetched instruction lets out is told in three parts: that it was fetched, what its action
prints (`Program.prints`), and then the stack that it leaves or the fault that it ends in.
-/

namespace StackMachine

namespace Program

variable {p : Program} {budget : Option Nat} {n k : Nat} {s t u : State} {es fs : List Effect}

/-! ### States in a row -/

/-- There is one state after so many instructions. -/
theorem Steps.state_eq (h : p.Steps n s es t) (h' : p.Steps n s fs u) : u = t := by
  have ht : p.Looks none s n t := ⟨⟨es, h⟩, nofun⟩
  have hu : p.Looks none s n u := ⟨⟨fs, h'⟩, nofun⟩
  rw [ht.state_eq, hu.state_eq]

/-- An instruction with others after it has completed and asked for the next. -/
theorem Steps.next_of_lt (h : p.Steps k s fs u) (hs : p.Steps n s es t) (hk : k < n) :
    (p.step u).result = .ok .next := by
  induction h generalizing n es with
  | refl =>
      cases hs with
      | refl => cases hk
      | more h _ => rw [h]
  | more h _ ih =>
      cases hs with
      | refl => cases hk
      | more h' hs' =>
          cases h.symm.trans h'
          exact ih hs' (Nat.lt_of_succ_lt_succ hk)

/-- The states in which the instructions of a row were looked for, one for each. -/
theorem Steps.exists_states (h : p.Steps n s es t) :
    ∃ ts : List State, ts.length = n ∧
      (∀ k u, ts[k]? = some u ↔ k < n ∧ ∃ fs, p.Steps k s fs u) ∧
      es = ts.flatMap fun u => (p.step u).emitted := by
  induction h with
  | refl => exact ⟨[], rfl, by simp, rfl⟩
  | @more n s _ _ _ _ h _ ih =>
      obtain ⟨ts, hlength, hts, hes⟩ := ih
      refine ⟨s :: ts, congrArg Nat.succ hlength, fun k u => ?_, ?_⟩
      · cases k with
        | zero =>
            simp only [List.getElem?_cons_zero, Option.some.injEq, Nat.zero_lt_succ, true_and]
            exact ⟨by rintro rfl; exact ⟨[], .refl s⟩, by rintro ⟨_, ⟨⟩⟩; rfl⟩
        | succ k =>
            rw [List.getElem?_cons_succ, hts, Nat.succ_lt_succ_iff]
            refine and_congr_right fun _ => ⟨?_, ?_⟩
            · rintro ⟨fs, hs⟩
              exact ⟨_, .more h hs⟩
            · rintro ⟨_, _ | ⟨h', hs⟩⟩
              cases h.symm.trans h'
              exact ⟨_, hs⟩
      · rw [List.flatMap_cons, h, hes]

theorem pc_lt_of_step_ok {f : Flow} (h : (p.step s).result = .ok f) : s.pc < p.code.size := by
  refine Nat.lt_of_not_le fun hle => ?_
  rw [step_of_none (Array.getElem?_eq_none hle)] at h
  cases h

/-! ### The journal of a run -/

/-- The states of `ts` are those in which the run from `s` fetches an instruction, in their
order. -/
def Journal (p : Program) (budget : Option Nat) (s : State) (ts : List State) : Prop :=
  ∀ k t, ts[k]? = some t ↔ p.Looks budget s k t ∧ t.pc < p.code.size

theorem Journal.pc_lt {ts : List State} (h : p.Journal budget s ts) (ht : t ∈ ts) :
    t.pc < p.code.size := by
  obtain ⟨k, hk⟩ := List.mem_iff_getElem?.mp ht
  exact ((h k t).mp hk).2

/-- How a run is left, told by the states in which it fetched: `n` instructions have completed, and
the run is in `t`. -/
inductive Leaves (p : Program) (budget : Option Nat) (s : State) :
    List State → Nat → State → Option Stop → Prop where
  /-- All have completed, and they are as many as the budget allows. -/
  | exhausted {ts : List State} {t : State} {es : List Effect} (hs : p.Steps ts.length s es t)
      (hb : budget = some ts.length) : Leaves p budget s ts ts.length t none
  /-- All have completed, and there is nothing to fetch after them. -/
  | unfetched {ts : List State} {t : State} (hl : p.Looks budget s ts.length t)
      (hpc : p.code.size ≤ t.pc) :
      Leaves p budget s ts ts.length t
        (some (.faulted (.outOfBounds (.ofCount t.pc) p.code.size)))
  /-- The last one has halted. -/
  | halted {ts : List State} {u t : State} {es : List Effect} (h : p.step u = ⟨.ok .halt, t, es⟩) :
      Leaves p budget s (ts ++ [u]) (ts.length + 1) t (some .halted)
  /-- The last one has ended in a fault, and is not among those that have completed. -/
  | faulted {ts : List State} {u t : State} {es : List Effect} {e : Fault}
      (h : p.step u = ⟨.error e, t, es⟩) :
      Leaves p budget s (ts ++ [u]) ts.length t (some (.faulted e))

/-- **Each instruction but the last has asked for the next.** -/
theorem Journal.forall_next {ts us : List State} (h : p.Journal budget s (ts ++ us))
    (hs : p.Steps ts.length s es t) : ∀ u ∈ ts, (p.step u).result = .ok .next := by
  intro u hu
  obtain ⟨k, hk, rfl⟩ := List.mem_iff_getElem.mp hu
  have hget : (ts ++ us)[k]? = some ts[k] := by
    rw [List.getElem?_append_left hk, List.getElem?_eq_getElem hk]
  obtain ⟨⟨⟨fs, hfs⟩, -⟩, -⟩ := (h k ts[k]).mp hget
  exact hfs.next_of_lt hs hk

/-- The last instruction of a journal comes after all the others. -/
theorem Journal.exists_steps {ts : List State} (h : p.Journal budget s (ts ++ [u])) :
    ∃ es, p.Steps ts.length s es u :=
  ((h ts.length u).mp List.getElem?_concat_length).1.steps

/-- An instruction that ends in a fault is the last. -/
theorem Journal.not_steps_of_error {ts : List State} {e : Fault}
    (h : p.Journal budget s (ts ++ [u])) (he : (p.step u).result = .error e) :
    ¬ p.Steps (ts ++ [u]).length s es t := by
  intro hs
  rw [← List.append_nil (ts ++ [u])] at h
  have hnext := h.forall_next hs u (List.mem_append_right ts List.mem_cons_self)
  rw [he] at hnext
  cases hnext

theorem Journal.forall_dropLast {ts : List State} (h : p.Journal budget s ts) :
    ∀ u ∈ ts.dropLast, (p.step u).result = .ok .next := by
  rcases ts.eq_nil_or_concat with rfl | ⟨us, u, rfl⟩
  · nofun
  · rw [List.concat_eq_append] at h ⊢
    obtain ⟨es, hs⟩ := h.exists_steps
    rw [List.dropLast_concat]
    exact h.forall_next hs

/-- Instructions that complete one after another, and the budget with them. -/
theorem journal_of_steps (h : p.Steps n s es t) (hb : budget = some n) :
    ∃ ts, ts.length = n ∧ p.Journal budget s ts ∧ es = ts.flatMap fun u => (p.step u).emitted := by
  obtain ⟨ts, hlength, hts, hes⟩ := h.exists_states
  refine ⟨ts, hlength, fun k u => ?_, hes⟩
  subst hb
  rw [hts]
  constructor
  · rintro ⟨hk, fs, hfs⟩
    refine ⟨⟨⟨fs, hfs⟩, ?_⟩, pc_lt_of_step_ok (hfs.next_of_lt h hk)⟩
    rintro _ ⟨⟩
    exact hk
  · rintro ⟨⟨hsteps, hk⟩, -⟩
    exact ⟨hk n rfl, hsteps⟩

/-- Instructions that complete one after another, and one look that ends the run after them. -/
theorem journal_of_stop (h : p.Steps n s es t) (hstop : (p.step t).result ≠ .ok .next)
    (hb : ∀ limit ∈ budget, n < limit) :
    ∃ ts, ts.length = n ∧ es = (ts.flatMap fun u => (p.step u).emitted) ∧
      (p.code.size ≤ t.pc → p.Journal budget s ts) ∧
      (t.pc < p.code.size → p.Journal budget s (ts ++ [t])) := by
  obtain ⟨ts, hlength, hts, hes⟩ := h.exists_states
  have hlooks : ∀ k u, p.Looks budget s k u ↔ k ≤ n ∧ ∃ fs, p.Steps k s fs u := by
    intro k u
    constructor
    · rintro ⟨⟨fs, hfs⟩, -⟩
      exact ⟨Nat.le_of_not_lt fun hk => hstop (h.next_of_lt hfs hk), fs, hfs⟩
    · rintro ⟨hk, hsteps⟩
      exact ⟨hsteps, fun limit hl => Nat.lt_of_le_of_lt hk (hb limit hl)⟩
  -- before the last look each instruction has completed, so that it was fetched
  have hbefore : ∀ k u, ts[k]? = some u ↔ k < n ∧ p.Looks budget s k u ∧ u.pc < p.code.size := by
    intro k u
    rw [hts, hlooks]
    constructor
    · rintro ⟨hk, fs, hfs⟩
      exact ⟨hk, ⟨Nat.le_of_lt hk, fs, hfs⟩, pc_lt_of_step_ok (hfs.next_of_lt h hk)⟩
    · rintro ⟨hk, ⟨-, hsteps⟩, -⟩
      exact ⟨hk, hsteps⟩
  refine ⟨ts, hlength, hes, fun hpc k u => ?_, fun hpc k u => ?_⟩
  · rw [hbefore, and_iff_right_iff_imp]
    rintro ⟨hl, hu⟩
    obtain ⟨hk, fs, hfs⟩ := (hlooks k u).mp hl
    refine Nat.lt_of_le_of_ne hk ?_
    rintro rfl
    obtain rfl := h.state_eq hfs
    exact Nat.not_lt_of_le hpc hu
  · rcases Nat.lt_trichotomy k n with hk | rfl | hk
    · rw [List.getElem?_append_left (hlength ▸ hk), hbefore, and_iff_right hk]
    · rw [List.getElem?_append_right (Nat.le_of_eq hlength), hlength, Nat.sub_self, hlooks]
      simp only [List.getElem?_cons_zero, Option.some.injEq]
      constructor
      · rintro rfl
        exact ⟨⟨Nat.le_refl _, es, h⟩, hpc⟩
      · rintro ⟨⟨-, fs, hfs⟩, -⟩
        exact (h.state_eq hfs).symm
    · rw [List.getElem?_eq_none (by simp; omega), hlooks]
      simp [Nat.not_le_of_lt hk]

/-- **What a run lets out is what the instructions of its journal let out**, and how it is left is
how the journal ends. -/
theorem Runs.journal {c : Option Stop} (h : p.Runs budget n s es t c) :
    ∃ ts, p.Journal budget s ts ∧ es = (ts.flatMap fun u => (p.step u).emitted) ∧
      p.Leaves budget s ts n t c := by
  cases h with
  | exhausts h hb =>
      obtain ⟨ts, rfl, hts, hes⟩ := journal_of_steps h hb
      exact ⟨ts, hts, hes, .exhausted h hb⟩
  | ends h hb =>
      cases h with
      | halted hs h =>
          obtain ⟨ts, rfl, rfl, -, hts⟩ := journal_of_stop hs (by rw [h]; nofun) hb
          refine ⟨_, hts (pc_lt_of_step_ok (by rw [h])), ?_, .halted h⟩
          rw [List.flatMap_append, List.flatMap_singleton, h]
      | @faulted _ _ u _ _ _ e hs h =>
          obtain ⟨ts, rfl, rfl, hnone, hsome⟩ := journal_of_stop hs (by rw [h]; nofun) hb
          rcases Nat.lt_or_ge u.pc p.code.size with hpc | hpc
          · refine ⟨_, hsome hpc, ?_, .faulted h⟩
            rw [List.flatMap_append, List.flatMap_singleton, h]
          · cases h.symm.trans (step_of_none (Array.getElem?_eq_none hpc))
            exact ⟨ts, hnone hpc, List.append_nil _, .unfetched ⟨⟨_, hs⟩, hb⟩ hpc⟩

/-! ### What one fetched instruction lets out -/

/-- What the action of the instruction at the counter prints. -/
def prints (p : Program) (s : State) : List Print :=
  match p.code[s.pc]? with
  | none   => []
  | some i =>
    match p.instructions.action? i.opcode with
    | none   => []
    | some a => (a i.argument p.out { s with pc := s.pc + 1 }).emitted

theorem prints_of_some {i : Instruction} {a : Action} (hi : p.code[s.pc]? = some i)
    (ha : p.instructions.action? i.opcode = some a) :
    p.prints s = (a i.argument p.out { s with pc := s.pc + 1 }).emitted := by
  simp only [prints, hi, ha]

theorem prints_of_none {i : Instruction} (hi : p.code[s.pc]? = some i)
    (ha : p.instructions.action? i.opcode = none) : p.prints s = [] := by
  simp only [prints, hi, ha]

theorem result_of_performs {r : Except Fault Flow}
    (h : p.instructions.Performs p.code p.out s r t) : (p.step s).result = r := by
  obtain ⟨hi, ha, h⟩ := h
  cases r with
  | error e => rw [step_of_error hi ha h]
  | ok f => rw [step_of_ok hi ha h]

/-- What the instruction `i`, fetched in `s`, comes to, the state it leaves, and what is let out of
it after all that its action prints. -/
inductive Comes (p : Program) (s : State) (i : Instruction) :
    Except Fault Flow → State → List Effect → Prop where
  | completed {f : Flow} {t : State} (h : p.instructions.Performs p.code p.out s (.ok f) t) :
      Comes p s i (.ok f) t (p.completed t)
  | faulted {e : Fault} {t : State} (h : p.instructions.Performs p.code p.out s (.error e) t) :
      Comes p s i (.error e) t [.event (.faulted s.pc e)]
  | unknown (ha : p.instructions.action? i.opcode = none) :
      Comes p s i (.error (.unknownOpcode i.opcode s.pc)) { s with pc := s.pc + 1 } []

/-- **A fetched instruction lets out its fetch, then what its action prints, and then what it comes
to.** -/
theorem exists_comes {i : Instruction} (hi : p.code[s.pc]? = some i) :
    ∃ r t after, p.Comes s i r t after ∧
      p.step s = ⟨r, t, p.fetched s.pc i ++ (p.prints s).map .print ++ after⟩ := by
  cases ha : p.instructions.action? i.opcode with
  | none =>
      refine ⟨_, _, [], .unknown ha, ?_⟩
      rw [step_of_unknown hi ha, prints_of_none hi ha, List.map_nil, List.append_nil,
        List.append_nil]
  | some a =>
      have hprints := prints_of_some hi ha
      rcases h : a i.argument p.out { s with pc := s.pc + 1 } with ⟨e | f, t, ps⟩
      · exact ⟨_, t, _, .faulted (.intro hi ha h), by rw [step_of_error hi ha h, hprints, h]⟩
      · exact ⟨_, t, _, .completed (.intro hi ha h), by rw [step_of_ok hi ha h, hprints, h]⟩

end Program

end StackMachine
