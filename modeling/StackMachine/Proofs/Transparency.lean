import StackMachine.Proofs.Simulation

/-!
# Proofs — Transparency

A run that is debugged is the run that is not, with a trace beside it.  The two complete the same
instructions, come to the same result, leave the same state, print the same lines and report the
same events, save one event in front when the code has an opcode that the set does not know
(`reports_alike_under_debug`).  Without the debugging switch nothing goes to standard error.

Both programs are of one code and one set of instructions and differ in `Program.tracing` alone, so
they follow one another (`Program.follows_tracing`); the rest is bookkeeping on logs.
-/

namespace StackMachine

/-! ### Tracing a program -/

namespace Program

/-- A program does the same whether it is traced or not. -/
theorem follows_tracing (p : Program) (tracing : Bool) :
    Follows { p with tracing } p (fun _ => True) Eq Effect.SameUntraced := by
  refine follows_of_actions rfl ?_ ?_ (fun _ h => h) fun h => ⟨_, h, ?_⟩
  · rintro s _ rfl
    rfl
  · rintro s _ rfl
    rfl
  · rintro w s _ rfl -
    exact ⟨rfl, rfl, rfl⟩

/-- A program that is not traced leaves no trace. -/
theorem isTrace_eq_false_of_mem_emitted {p : Program} (hp : p.tracing = false) (s : State) :
    ∀ e ∈ (p.step s).emitted, e.isTrace = false := by
  rcases p.emitted_step_cases s with h | ⟨i, es, -, h, hes⟩
  · rw [h]
    nofun
  · rw [h, List.forall_mem_append]
    refine ⟨by simp [fetched, hp, Effect.isTrace], fun e he => ?_⟩
    cases hes e he with
    | print | faulted => rfl
    | stack htracing => rw [hp] at htracing; cases htracing

end Program

/-! ### Reports -/

/-- Nothing reaches standard error of what is no trace. -/
theorem Effect.join_stderr_eq_empty {es : List Effect} (h : ∀ e ∈ es, e.isTrace = false) :
    String.join (es.map stderr) = "" := by
  induction es with
  | nil => rfl
  | cons e es ih =>
      rw [List.forall_mem_cons] at h
      rw [List.map_cons, String.join_cons, ih h.2]
      cases e with
      | trace t => cases h.1
      | print p | event e => rfl

namespace Machine

variable {code : Code} {out : Stdout} {budget : Option Nat} {n : Nat}

/-- The run of a machine that is debugged, and the one of a machine that is not. -/
theorem exists_runs_debug {m : Machine} {s t : State} {es : List Effect} {c : Option Stop}
    (h : (m.program code out).Runs budget n s es t c) (debug : Bool) :
    ∃ fs, (program { m with debug } code out).Runs budget n s fs t c ∧
      Effect.SameUntraced es fs := by
  obtain ⟨_, fs, hs, rfl, hfs⟩ :=
    ((m.program code out).follows_tracing (program { m with debug } code out).tracing).runs
      Effect.additive_sameUntraced h (fun _ _ => trivial) rfl
  exact ⟨fs, hs, hfs⟩

/-- `plain` and `traced` report one run of the machine, without the debugging switch and with it. -/
structure SameButTrace (m : Machine) (code : Code) (plain traced : Report) : Prop where
  result    : traced.result = plain.result
  /-- The run has changed the state, and not the switch. -/
  untouched : plain.machine = { m with state := plain.machine.state, debug := false }
  machine   : traced.machine = { plain.machine with debug := true }
  stdout    : traced.log.stdout = plain.log.stdout
  /-- Nothing is traced that nobody asked for. -/
  stderr    : plain.log.stderr = ""
  /-- One event tells that the code could not be listed, and it comes first. -/
  events    : (∀ i ∈ code, (m.instructions.mnemonic? i.opcode).isSome) ∧
      traced.log.events = plain.log.events ∨
    ∃ pc o, Listing.FirstUnknown m.instructions code pc o ∧
      traced.log.events = .disassemblyFailed pc o :: plain.log.events

/-- What is reported before a run that is to be traced. -/
theorem events_preamble (m : Machine) (code : Code) :
    (∀ i ∈ code, (m.instructions.mnemonic? i.opcode).isSome) ∧
      (preamble { m with debug := true } code).filterMap Effect.event? = [] ∨
    ∃ pc o, Listing.FirstUnknown m.instructions code pc o ∧
      (preamble { m with debug := true } code).filterMap Effect.event? =
        [.disassemblyFailed pc o] := by
  simp only [preamble, if_true]
  cases hu : (Listing.ofCode m.instructions code).unknown with
  | none => exact .inl ⟨Listing.unknown_ofCode_eq_none_iff.mp hu, rfl⟩
  | some p =>
      obtain ⟨pc, o⟩ := p
      exact .inr ⟨pc, o, Listing.firstUnknown_of_unknown_ofCode hu, rfl⟩

/-- Runs that let out the same but for the trace are reported so. -/
theorem sameButTrace_reported (m : Machine) (code : Code) (n : Nat) {es fs : List Effect}
    (t : State) (c : Option Stop) (hes : ∀ e ∈ es, e.isTrace = false)
    (h : Effect.SameUntraced es fs) :
    SameButTrace m code (reported { m with debug := false } code n es t c)
      (reported { m with debug := true } code n fs t c) where
  result := rfl
  untouched := rfl
  machine := rfl
  stdout := by rw [stdout_reported, stdout_reported, h.printed_eq]
  stderr := by
    have hclosing : ∀ e ∈ closing n t c, e.isTrace = false :=
      forall_mem_closing (fun _ => rfl) (fun _ _ => rfl) n t c
    refine Effect.join_stderr_eq_empty ?_
    rw [toList_log_reported, List.forall_mem_append]
    exact ⟨by simp [preamble, Effect.isTrace], List.forall_mem_append.mpr ⟨hes, hclosing⟩⟩
  events := by
    simp only [events_reported, h.events_eq]
    rcases events_preamble m code with ⟨hk, hp⟩ | ⟨pc, o, hu, hp⟩
    · exact .inl ⟨hk, by rw [hp]; rfl⟩
    · exact .inr ⟨pc, o, hu, by rw [hp]; rfl⟩

/-- **Debugging is transparent.**  For any set of instructions, state, code and budget, the run
without the debugging switch comes back exactly if the run with it does, after as many instructions,
and the two reports are the same but for the trace. -/
theorem reports_alike_under_debug (m : Machine) (code : Code) (out : Stdout)
    (budget : Option Nat) (n : Nat) :
    (∀ plain, Reports { m with debug := false } code out budget n plain →
      ∃ traced, Reports { m with debug := true } code out budget n traced ∧
        SameButTrace m code plain traced) ∧
    ∀ traced, Reports { m with debug := true } code out budget n traced →
      ∃ plain, Reports { m with debug := false } code out budget n plain ∧
        SameButTrace m code plain traced := by
  let p := program { m with debug := false } code out
  let q := program { m with debug := true } code out
  have noTrace : ∀ {s es t c}, p.Runs budget n s es t c → ∀ e ∈ es, e.isTrace = false :=
    fun h => h.forall_mem (Program.isTrace_eq_false_of_mem_emitted rfl)
  constructor
  · intro plain h
    obtain ⟨es, t, c, hr, rfl⟩ := h.runs
    obtain ⟨_, fs, hr', rfl, hfs⟩ := (p.follows_tracing q.tracing).runs
      Effect.additive_sameUntraced hr (fun _ _ => trivial) rfl
    exact ⟨_, reports_of_runs hr', sameButTrace_reported m code n t c (noTrace hr) hfs⟩
  · intro traced h
    obtain ⟨fs, t, c, hr, rfl⟩ := h.runs
    obtain ⟨_, es, hr', rfl, hes⟩ := (q.follows_tracing false).runs
      Effect.additive_sameUntraced hr (fun _ _ => trivial) rfl
    exact ⟨_, reports_of_runs hr', sameButTrace_reported m code n t c (noTrace hr') hes.symm⟩

/-- A run that halts before it reaches an unknown opcode; the code is not listed to its end, and the
run is not traced. -/
theorem reports_alike_under_debug_standard :
    ∃ plain traced,
      Reports {} #[⟨1, 5⟩, ⟨2, 0⟩, ⟨77, 0⟩] .connected none 2 plain ∧
      Reports { debug := true } #[⟨1, 5⟩, ⟨2, 0⟩, ⟨77, 0⟩] .connected none 2 traced ∧
      SameButTrace {} #[⟨1, 5⟩, ⟨2, 0⟩, ⟨77, 0⟩] plain traced ∧ plain.result = .ok ⟨5, ""⟩ := by
  have hplain : Reports {} #[⟨1, 5⟩, ⟨2, 0⟩, ⟨77, 0⟩] .connected none 2 _ :=
    .unbounded (show run? _ _ 2 _ = some _ from rfl)
  obtain ⟨traced, htraced, hsame⟩ := (reports_alike_under_debug {} _ _ none 2).1 _ hplain
  exact ⟨_, traced, hplain, htraced, hsame, rfl⟩

end Machine

end StackMachine
