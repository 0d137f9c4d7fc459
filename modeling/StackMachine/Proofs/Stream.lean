import StackMachine.Proofs.Listed
import StackMachine.Proofs.Printing
import StackMachine.Proofs.Standard

/-!
# Proofs — Stream

The same run on a stream that takes its lines and on one that takes none.  A computation that is
composed of operations and standard instructions comes to the same with every stream, leaves the
same state and attempts the same lines, and these are the words on which it performs `PRINT`
(`Exec.Composed.blind`).  So the stream is nothing to a run either: each fetch goes as it goes on
any other stream (`Machine.exists_step`), and a run is left where it is left on any other.

`Machine.reports_alike_when_closed` says what there is to see when the lines are lost: a warning in
the place of each, and nothing else (`Machine.LosesLines`).
-/

namespace StackMachine

/-! ### Computations and the stream -/

namespace Exec

variable {α β : Type}

/-- On this stream and from `s`, the computation performs `PRINT` on the words `vs`, one after
another, each being the top of the stack at the time.  A `PRINT` that finds no word is performed on
none. -/
inductive PrintsOn (out : Stdout) : ∀ {α : Type}, Exec α → State → List Word → Prop where
  | print (w : Word) (s : State) : PrintsOn out (Builtin.print.action w) s s.stack.head?.toList
  | quiet {α : Type} {x : Exec α} (h : Quiet x) (s : State) : PrintsOn out x s []
  | bind {α β : Type} {x : Exec α} {f : α → Exec β} {s t : State} {a : α} {ps : List Print}
      {vs ws : List Word} (hx : PrintsOn out x s vs) (h : x out s = ⟨.ok a, t, ps⟩)
      (hf : PrintsOn out (f a) t ws) : PrintsOn out (x >>= f) s (vs ++ ws)
  | fault {α β : Type} {x : Exec α} {f : α → Exec β} {s t : State} {e : Fault} {ps : List Print}
      {vs : List Word} (hx : PrintsOn out x s vs) (h : x out s = ⟨.error e, t, ps⟩) :
      PrintsOn out (x >>= f) s vs
  | attempt {α : Type} {x : Exec α} {s : State} {vs : List Word} (hx : PrintsOn out x s vs) :
      PrintsOn out x.attempt s vs

/-- On every stream the computation goes the same way, and what it attempts to print are the words
on which it performs `PRINT`. -/
def Blind (x : Exec α) : Prop :=
  ∀ s, ∃ r t vs, ∀ out, x out s = ⟨r, t, vs.map out.take⟩ ∧ x.PrintsOn out s vs

namespace Blind

theorem of_quiet {x : Exec α} (h : Quiet x) : Blind x := by
  intro s
  obtain ⟨r, t, hx⟩ := h.exists_eq s
  exact ⟨r, t, [], fun out => ⟨hx out, .quiet h s⟩⟩

theorem bind {x : Exec α} {f : α → Exec β} (hx : Blind x) (hf : ∀ a, Blind (f a)) :
    Blind (x >>= f) := by
  intro s
  obtain ⟨e | a, t, vs, hx⟩ := hx s
  · exact ⟨.error e, t, vs, fun out => ⟨bind_of_error (hx out).1, .fault (hx out).2 (hx out).1⟩⟩
  · obtain ⟨r, u, ws, hf⟩ := hf a t
    refine ⟨r, u, vs ++ ws, fun out => ⟨?_, .bind (hx out).2 (hx out).1 (hf out).2⟩⟩
    rw [bind_of_ok (hx out).1, (hf out).1, List.map_append]

theorem attempt {x : Exec α} (hx : Blind x) : Blind x.attempt := by
  intro s
  obtain ⟨r, t, vs, hx⟩ := hx s
  refine ⟨.ok r, t, vs, fun out => ⟨?_, .attempt (hx out).2⟩⟩
  rw [Exec.attempt, (hx out).1]

theorem action (b : Builtin) (w : Word) : Blind (b.action w) := by
  by_cases hb : b = .print
  · subst hb
    intro s
    have hprints (out : Stdout) : PrintsOn out _ s _ := .print w s
    cases hs : s.stack with
    | nil =>
        simp only [hs, List.head?_nil, Option.toList_none] at hprints
        exact ⟨_, s, [], fun out => ⟨bind_of_error (top_of_nil hs), hprints out⟩⟩
    | cons v ws =>
        simp only [hs, List.head?_cons, Option.toList_some] at hprints
        exact ⟨_, s, [v], fun out => ⟨Builtin.action_of_completes (.print hs) out, hprints out⟩⟩
  · exact of_quiet (.action hb w)

end Blind

/-- **A composed computation does not see the stream.** -/
theorem Composed.blind {x : Exec α} (h : Composed x) : Blind x := by
  induction h with
  | pure a => exact .of_quiet (.pure a)
  | bind _ _ ihx ihf => exact ihx.bind ihf
  | attempt _ ih => exact ih.attempt
  | get => exact .of_quiet .get
  | raise e => exact .of_quiet (.raise e)
  | require n => exact .of_quiet (.require n)
  | push w => exact .of_quiet (.push w)
  | pop => exact .of_quiet .pop
  | popPair => exact .of_quiet .popPair
  | top => exact .of_quiet .top
  | target w => exact .of_quiet (.target w)
  | jump w => exact .of_quiet (.jump w)
  | writeWord w => exact .of_quiet (.writeWord w)
  | writeChar c => exact .of_quiet (.writeChar c)
  | reset => exact .of_quiet .reset
  | builtin b w => exact .action b w

end Exec

/-! ### What is let out when lines are lost -/

namespace Effect

/-- What is let out instead, on a stream that takes no line. -/
def unprinted : Effect → Effect
  | .print _ => .print .failed
  | e        => e

@[simp] theorem unprinted_event (e : Event) : (event e).unprinted = .event e := rfl

/-- None of the effects is an attempt to print. -/
def Unprinting (es : List Effect) : Prop := es.map unprinted = es

/-- Nobody who reads the trace alone can tell. -/
theorem map_stderr_unprinted (es : List Effect) :
    (es.map unprinted).map stderr = es.map stderr := by
  rw [List.map_map]
  congr 1
  funext e
  cases e <;> rfl

theorem printed_map_unprinted (es : List Effect) : printed (es.map unprinted) = "" := by
  induction es with
  | nil => rfl
  | cons e es ih =>
      rw [List.map_cons, ← List.singleton_append, printed_append, ih]
      cases e <;> rfl

theorem map_unprinted_map_take (out : Stdout) (vs : List Word) :
    ((vs.map out.take).map print).map unprinted = (vs.map Stdout.closed.take).map print := by
  simp only [List.map_map]
  rfl

/-- **Each line that is lost is a warning more**, and all other events are as they were. -/
theorem filterMap_event?_unprinted {es : List Effect}
    (h : Event.printFailed ∉ es.filterMap event?) :
    ((es.map unprinted).filterMap event?).filter (· ≠ .printFailed) = es.filterMap event? ∧
      ((es.map unprinted).filterMap event?).count .printFailed = Text.breaks (printed es) := by
  induction es with
  | nil => exact ⟨rfl, rfl⟩
  | cons e es ih =>
      rw [← List.singleton_append, printed_append, Text.breaks_append, List.singleton_append]
      cases e with
      | trace t => exact (ih h).imp id fun hcount => hcount.trans (Nat.zero_add _).symm
      | event e =>
          have hne : .printFailed ≠ e ∧ .printFailed ∉ es.filterMap event? := by
            simpa [event?] using h
          obtain ⟨hfilter, hcount⟩ := ih hne.2
          refine ⟨?_, ?_⟩
          · simpa [event?, hne.1.symm] using hfilter
          · rw [← hcount]
            exact (List.count_cons_of_ne hne.1.symm).trans (Nat.zero_add _).symm
      | print p =>
          cases p with
          | failed => exact absurd List.mem_cons_self h
          | line w =>
              obtain ⟨hfilter, hcount⟩ := ih h
              have hline : Text.breaks (printed [print (.line w)]) = 1 := by
                rw [printed, List.map_singleton, String.join_cons, stdout, Text.breaks_append,
                  Text.breaks_append, Word.breaks_text]
                rfl
              refine ⟨hfilter, ?_⟩
              rw [hline, Nat.add_comm, ← hcount]
              exact List.count_cons_self

/-- The same has been let out, whatever became of the lines. -/
def SameUnprinted (es fs : List Effect) : Prop := fs.map unprinted = es.map unprinted

theorem additive_sameUnprinted : Additive SameUnprinted where
  nil := rfl
  append := by
    intro es es' fs fs' he hf
    rw [SameUnprinted, List.map_append, List.map_append, he, hf]

end Effect

/-! ### Runs and the stream -/

namespace Program

/-- The action of the instruction that is fetched in `s` performs `PRINT` on the words `vs`. -/
inductive PrintsAt (p : Program) (s : State) : List Word → Prop where
  | performed {i : Instruction} {a : Action} {vs : List Word} (hi : p.code[s.pc]? = some i)
      (ha : p.instructions.action? i.opcode = some a)
      (h : (a i.argument).PrintsOn p.out { s with pc := s.pc + 1 } vs) : PrintsAt p s vs
  | unknown {i : Instruction} (hi : p.code[s.pc]? = some i)
      (ha : p.instructions.action? i.opcode = none) : PrintsAt p s []

theorem unprinting_fetched (p : Program) (pc : Nat) (i : Instruction) :
    Effect.Unprinting (p.fetched pc i) := by
  rw [fetched]
  cases p.tracing <;> rfl

theorem unprinting_completed (p : Program) (s : State) : Effect.Unprinting (p.completed s) := by
  rw [completed]
  cases p.tracing <;> rfl

end Program

namespace Machine

variable {m : Machine} {code : Code} {out : Stdout} {budget : Option Nat} {n : Nat}
  {report : Report} {ts : List State}

theorem unprinting_preamble (m : Machine) (code : Code) : Effect.Unprinting (m.preamble code) := by
  rw [preamble]
  split
  · dsimp only
    split <;> rfl
  · rfl

theorem unprinting_closing (n : Nat) (t : State) (c : Option Stop) :
    Effect.Unprinting (closing n t c) := by
  rcases c with _ | _ | _
  · rfl
  · rw [closing]
    cases t.stack <;> rfl
  · rfl

/-- No warning is told before the start. -/
theorem Opens.printFailed_notMem {opening : List Event} (h : m.Opens code opening) :
    .printFailed ∉ opening := by
  cases h <;> simp

/-- No warning is told of the end. -/
theorem Finishes.printFailed_notMem {r : Except Fault Answer} {told : List Event}
    (h : m.Finishes code out budget ts r told) : .printFailed ∉ told := by
  cases h <;> simp

/-- The report of a run whose lines are all lost, beside that of the same run with its lines
printed. -/
structure LosesLines (m : Machine) (code : Code) (budget : Option Nat) (working broken : Report) :
    Prop where
  result   : broken.result = working.result
  machine  : broken.machine = working.machine
  stderr   : broken.log.stderr = working.log.stderr
  stdout   : broken.log.stdout = ""
  /-- Each line that the one prints is a failed attempt of the other, in the same place. -/
  log      : broken.log.toList = working.log.toList.map Effect.unprinted
  events   : broken.log.events.filter (· ≠ .printFailed) = working.log.events
  warnings : broken.log.events.count .printFailed = Text.breaks working.log.stdout
  /-- Both runs fetch in the same states, and a fetch is followed by a warning for each word on
  which it performs `PRINT`. -/
  fetches  : ∃ opening ts told, m.Chronicle code .connected budget working opening ts told ∧
    m.Chronicle code .closed budget broken opening ts told ∧
    ∀ u ∈ ts, ∃ vs, (∀ out, (m.program code out).PrintsAt u vs) ∧
      (m.program code .closed).eventsAt u =
        (m.program code .connected).eventsAt u ++ List.replicate vs.length .printFailed

section Blind

variable (hm : m.instructions.Reachable Action.Composed)

include hm

/-- **A fetch goes the same way on every stream**, and performs `PRINT` on the same words. -/
theorem exists_step {s : State} {i : Instruction} (hi : code[s.pc]? = some i) :
    ∃ r t before vs after, Effect.Unprinting before ∧ Effect.Unprinting after ∧ ∀ out,
      (m.program code out).step s =
          ⟨r, t, before ++ (vs.map out.take).map Effect.print ++ after⟩ ∧
        (m.program code out).prints s = vs.map out.take ∧
        (m.program code out).PrintsAt s vs := by
  have hfetched := (m.program code .connected).unprinting_fetched s.pc i
  cases ha : m.instructions.action? i.opcode with
  | none =>
      refine ⟨.error (.unknownOpcode i.opcode s.pc), { s with pc := s.pc + 1 },
        (m.program code .connected).fetched s.pc i, [], [], hfetched, rfl, fun out => ?_⟩
      rw [List.map_nil, List.map_nil, List.append_nil, List.append_nil]
      exact ⟨Program.step_of_unknown (p := m.program code out) hi ha,
        Program.prints_of_none (p := m.program code out) hi ha, .unknown hi ha⟩
  | some a =>
      have hcomposed := hm.action Builtin.composed_action ha i.argument
      obtain ⟨e | f, t, vs, ho⟩ := hcomposed.blind { s with pc := s.pc + 1 }
      · refine ⟨.error e, t, _, vs, [.event (.faulted s.pc e)], hfetched, rfl, fun out => ?_⟩
        have hprints := Program.prints_of_some (p := m.program code out) hi ha
        exact ⟨Program.step_of_error (p := m.program code out) hi ha (ho out).1,
          hprints.trans (congrArg Outcome.emitted (ho out).1), .performed hi ha (ho out).2⟩
      · refine ⟨.ok f, t, _, vs, _, hfetched,
          (m.program code .connected).unprinting_completed t, fun out => ?_⟩
        have hprints := Program.prints_of_some (p := m.program code out) hi ha
        exact ⟨Program.step_of_ok (p := m.program code out) hi ha (ho out).1,
          hprints.trans (congrArg Outcome.emitted (ho out).1), .performed hi ha (ho out).2⟩

theorem follows_on_stream (code : Code) (out out' : Stdout) :
    (m.program code out').Follows (m.program code out) (fun _ => True) Eq
      Effect.SameUnprinted := by
  rintro s _ rfl -
  cases hi : code[s.pc]? with
  | none =>
      rw [Program.step_of_none (p := m.program code out) hi,
        Program.step_of_none (p := m.program code out') hi]
      exact ⟨rfl, rfl, rfl⟩
  | some i =>
      obtain ⟨r, t, before, vs, after, -, -, hs⟩ := exists_step hm hi
      rw [(hs out).1, (hs out').1]
      refine ⟨rfl, rfl, ?_⟩
      simp only [Effect.SameUnprinted, List.map_append, Effect.map_unprinted_map_take]

/-- On a stream that takes no line, there is nothing to lose. -/
theorem unprinting_step (code : Code) (s : State) :
    Effect.Unprinting ((m.program code .closed).step s).emitted := by
  cases hi : code[s.pc]? with
  | none =>
      rw [Program.step_of_none (p := m.program code .closed) hi]
      rfl
  | some i =>
      obtain ⟨r, t, before, vs, after, hbefore, hafter, hs⟩ := exists_step hm hi
      rw [(hs .closed).1, Effect.Unprinting, List.map_append, List.map_append, hbefore, hafter,
        Effect.map_unprinted_map_take]

/-! ### Reports -/

/-- **On another stream a run comes back as it does on this one**, but for its lines. -/
theorem Reports.exists_on_stream (h : m.Reports code out budget n report) (out' : Stdout) :
    ∃ report', m.Reports code out' budget n report' ∧ report'.result = report.result ∧
      report'.machine = report.machine ∧
      Effect.SameUnprinted report.log.toList report'.log.toList := by
  obtain ⟨es, t, c, hs, rfl⟩ := h.runs
  obtain ⟨_, fs, hq, rfl, hfs⟩ := (follows_on_stream hm code out out').runs
    Effect.additive_sameUnprinted hs (fun _ _ => trivial) rfl
  refine ⟨_, reports_of_runs hq, rfl, rfl, ?_⟩
  simp only [Effect.SameUnprinted, toList_log_reported, List.map_append] at hfs ⊢
  rw [hfs]

/-- It fetches in the same states. -/
theorem Journal.on_stream (h : m.Journal code out budget ts) (out' : Stdout) :
    m.Journal code out' budget ts := by
  -- what one stream lets a run look for, the other does
  have hlooks {out out' : Stdout} {k : Nat} {u : State} (hl : m.Looks code out budget k u) :
      m.Looks code out' budget k u := by
    obtain ⟨⟨es, hs⟩, hb⟩ := hl
    obtain ⟨_, fs, hq, rfl, -⟩ := (follows_on_stream hm code out out').runs
      Effect.additive_sameUnprinted (.exhausts hs rfl) (fun _ _ => trivial) rfl
    cases hq with
    | exhausts hq _ => exact ⟨⟨fs, hq⟩, hb⟩
  exact fun k u => (h k u).trans (and_congr_left' ⟨hlooks, hlooks⟩)

/-- On a stream that takes no line, a run prints none. -/
theorem Reports.unprinting_closed (h : m.Reports code .closed budget n report) :
    Effect.Unprinting report.log.toList := by
  obtain ⟨es, t, c, hs, rfl⟩ := h.runs
  have hes : Effect.Unprinting es := hs.emitted (Q := Effect.Unprinting) rfl
    (fun hes hfs => by rw [Effect.Unprinting, List.map_append, hes, hfs])
    fun s => unprinting_step hm code s
  rw [Effect.Unprinting, toList_log_reported, List.map_append, List.map_append, List.map_append,
    m.unprinting_preamble, hes, unprinting_closing]
  rfl

/-! ### Chronicles -/

/-- **The warnings of a fetch stand after it**: one for each word on which it performs `PRINT`, on a
stream that takes no line, and none on one that does. -/
theorem exists_printsAt {u : State} (hu : u.pc < code.size) :
    ∃ vs, (∀ out, (m.program code out).PrintsAt u vs) ∧
      (m.program code .connected).eventsAt u = [.exec u.pc code[u.pc].opcode code[u.pc].argument] ∧
      (m.program code .closed).eventsAt u =
        (m.program code .connected).eventsAt u ++ List.replicate vs.length .printFailed := by
  have hi : code[u.pc]? = some code[u.pc] := Array.getElem?_eq_getElem hu
  obtain ⟨r, t, before, vs, after, -, -, hs⟩ := exists_step hm hi
  have hprinted : (vs.map Stdout.connected.take).count .failed = 0 := by
    rw [List.count_eq_zero, List.mem_map]
    rintro ⟨v, -, ⟨⟩⟩
  have hlost : (vs.map Stdout.closed.take).count .failed = vs.length := by
    rw [List.count_eq_length.mpr (by simp [Stdout.take]), List.length_map]
  have hconnected := Program.eventsAt_of_some (p := m.program code .connected) hi
  have hclosed := Program.eventsAt_of_some (p := m.program code .closed) hi
  rw [(hs _).2.1, hprinted] at hconnected
  rw [(hs _).2.1, hlost] at hclosed
  exact ⟨vs, fun out => (hs out).2.2, hconnected, by rw [hclosed, hconnected]; rfl⟩

theorem filter_eventsAt_closed {u : State} (hu : u.pc < code.size) :
    ((m.program code .closed).eventsAt u).filter (· ≠ .printFailed) =
      (m.program code .connected).eventsAt u := by
  obtain ⟨vs, -, hconnected, hclosed⟩ := exists_printsAt hm hu
  rw [hclosed, hconnected]
  simp

theorem Chronicle.printFailed_notMem {opening told : List Event}
    (h : m.Chronicle code .connected budget report opening ts told) :
    .printFailed ∉ report.log.events := by
  have hts : .printFailed ∉ ts.flatMap (m.program code .connected).eventsAt := by
    intro hmem
    obtain ⟨u, hu, he⟩ := List.mem_flatMap.mp hmem
    have hpc : u.pc < code.size := h.journal.pc_lt hu
    obtain ⟨-, -, hconnected, -⟩ := exists_printsAt hm hpc
    rw [hconnected] at he
    simp at he
  rw [h.events]
  simp [h.opens.printFailed_notMem, hts, h.finishes.printFailed_notMem]

/-- Two chronicles of the same fetches, one with the warnings and one without them. -/
theorem Chronicle.eq_of_filter {report' : Report} {opening opening' told told' : List Event}
    (h : m.Chronicle code .connected budget report opening ts told)
    (h' : m.Chronicle code .closed budget report' opening' ts told')
    (hf : report'.log.events.filter (· ≠ .printFailed) = report.log.events) :
    opening' = opening ∧ told' = told := by
  have hself {es : List Event} (hes : .printFailed ∉ es) : es.filter (· ≠ .printFailed) = es :=
    List.filter_eq_self.mpr fun e he => decide_eq_true fun heq => hes (heq ▸ he)
  have hts : (ts.flatMap (m.program code .closed).eventsAt).filter (· ≠ .printFailed) =
      ts.flatMap (m.program code .connected).eventsAt := by
    rw [List.filter_flatMap]
    exact List.flatMap_congr fun u hu => filter_eventsAt_closed hm (h'.journal.pc_lt hu)
  rw [h.events, h'.events, List.filter_append, hself h'.opens.printFailed_notMem,
    List.filter_cons_of_pos (by simp), List.filter_append, hts,
    hself h'.finishes.printFailed_notMem] at hf
  -- before the start there is the same to tell, whatever follows
  cases h.opens with
  | silent =>
      cases h'.opens with
      | silent => exact ⟨rfl, by simpa using hf⟩
      | unlisted => simp at hf
  | unlisted =>
      cases h'.opens with
      | silent => simp at hf
      | unlisted =>
          obtain ⟨hhead, htail⟩ := List.cons.inj hf
          exact ⟨by rw [hhead], by simpa using htail⟩

theorem losesLines_of_reports {working broken : Report}
    (h : m.Reports code .connected budget n working) (h' : m.Reports code .closed budget n broken)
    (hr : broken.result = working.result) (hmachine : broken.machine = working.machine)
    (hl : Effect.SameUnprinted working.log.toList broken.log.toList) :
    m.LosesLines code budget working broken := by
  have hlog : broken.log.toList = working.log.toList.map Effect.unprinted :=
    (h'.unprinting_closed hm).symm.trans hl
  obtain ⟨opening, ts, told, hc⟩ := h.exists_chronicle
  obtain ⟨opening', ts', told', hc'⟩ := h'.exists_chronicle
  obtain rfl : ts = ts' := List.ext_getElem? fun k => Option.ext fun u =>
    (hc.journal.on_stream hm .closed k u).trans (hc'.journal k u).symm
  have hunwarned : Event.printFailed ∉ working.log.events := hc.printFailed_notMem hm
  obtain ⟨hevents, hwarnings⟩ := Effect.filterMap_event?_unprinted hunwarned
  rw [← hlog] at hevents hwarnings
  obtain ⟨rfl, rfl⟩ := hc.eq_of_filter hm hc' hevents
  exact {
    result := hr
    machine := hmachine
    stderr := by rw [Log.stderr, hlog, Effect.map_stderr_unprinted]; rfl
    stdout := by
      rw [Log.stdout, hlog]
      exact Effect.printed_map_unprinted _
    log := hlog
    events := hevents
    warnings := hwarnings
    fetches := by
      refine ⟨_, ts, _, hc, hc', fun u hu => ?_⟩
      obtain ⟨vs, hvs, -, hclosed⟩ := exists_printsAt hm (hc.journal.pc_lt hu)
      exact ⟨vs, hvs, hclosed⟩ }

end Blind

/-- **A stream that takes no line changes no computation.**  Whatever actions are registered,
whatever state a run starts from and whatever budget it has, it comes back on such a stream exactly
if it does on one that takes its lines, after as many instructions, with the same result, machine
and trace; and each line that the one prints is a warning of the other, in its place. -/
theorem reports_alike_when_closed {m : Machine} (hm : m.instructions.Reachable Action.Composed)
    (code : Code) (budget : Option Nat) (n : Nat) :
    (∀ working, m.Reports code .connected budget n working →
      ∃ broken, m.Reports code .closed budget n broken ∧
        m.LosesLines code budget working broken) ∧
    ∀ broken, m.Reports code .closed budget n broken →
      ∃ working, m.Reports code .connected budget n working ∧
        m.LosesLines code budget working broken := by
  refine ⟨fun working h => ?_, fun broken h => ?_⟩
  · obtain ⟨broken, h', hr, hmachine, hl⟩ := h.exists_on_stream hm .closed
    exact ⟨broken, h', losesLines_of_reports hm h h' hr hmachine hl⟩
  · obtain ⟨working, h', hr, hmachine, hl⟩ := h.exists_on_stream hm .connected
    exact ⟨working, h', losesLines_of_reports hm h' h hr.symm hmachine.symm hl.symm⟩

/-- Prints the top twice, and then faults if there is but one word. -/
def echo : Routine :=
  [.builtin .print .argument, .builtin .print .argument, .builtin .add .argument]

/-- A machine that has the standard instructions and one that prints twice. -/
def echoing : Machine where
  instructions := ⟨InstructionSet.standard.entries.push ⟨"ECHO", echo.action⟩⟩

/-- A registered action that prints twice and then faults. -/
theorem reports_alike_when_closed_echo :
    echoing.instructions.Reachable Action.Composed ∧
    ∃ working broken, echoing.Reports #[⟨1, 7⟩, ⟨0, 0⟩, ⟨13, 0⟩] .connected none 2 working ∧
      echoing.Reports #[⟨1, 7⟩, ⟨0, 0⟩, ⟨13, 0⟩] .closed none 2 broken ∧
      echoing.LosesLines #[⟨1, 7⟩, ⟨0, 0⟩, ⟨13, 0⟩] none working broken ∧
      working.result = .error (.stackUnderflow 2 1) ∧ working.log.stdout = "7\n7\n7\n" ∧
      broken.log.events = [.runStarted 3 0, .exec 0 1 7, .exec 1 0 0, .printFailed, .exec 2 13 0,
        .printFailed, .printFailed, .faulted 2 (.stackUnderflow 2 1)] := by
  have reachable : echoing.instructions.Reachable Action.Composed :=
    .register .standard echo.composed_action
      (InstructionSet.register_of_notMem _ (by decide) (by decide))
  have works : echoing.Reports #[⟨1, 7⟩, ⟨0, 0⟩, ⟨13, 0⟩] .connected none 2 _ :=
    .unbounded (show run? _ _ 3 _ = some _ from rfl)
  have breaks : echoing.Reports #[⟨1, 7⟩, ⟨0, 0⟩, ⟨13, 0⟩] .closed none 2 _ :=
    .unbounded (show run? _ _ 3 _ = some _ from rfl)
  obtain ⟨broken, h, loses⟩ := (reports_alike_when_closed reachable _ none 2).1 _ works
  obtain ⟨-, rfl⟩ := h.unique breaks
  exact ⟨reachable, _, _, works, breaks, loses, rfl, rfl, rfl⟩

end Machine

end StackMachine
