import StackMachine.CommandLine.Command
import StackMachine.Proofs.Printing
import StackMachine.Proofs.Transcript

/-!
# Proofs — Contract

What the command owes to whoever runs a program with it.  Without a listing, the command ends if the
program cannot be assembled, or if its run comes back; its exit code and what it writes are then a
function of the report (`AsksRun.ends_iff`).  Lines that the program prints are written at once, its
output at the end, and the exit value on a line of its own after both.

Which options are given makes no difference to the exit code and to standard output, unless a budget
stops the run: a debugged run is the run with a trace beside it, and a run that ends within a budget
is the run without one.
-/

namespace StackMachine

/-- What follows the text starts a line. -/
def EndsLine (s : String) : Prop := s = "" ∨ s.toList.getLast? = some '\n'

namespace EndsLine

theorem append {s t : String} (hs : EndsLine s) (ht : EndsLine t) : EndsLine (s ++ t) := by
  obtain rfl | ht := ht
  · rwa [String.append_empty]
  · refine .inr ?_
    rw [String.toList_append, List.getLast?_append, ht]
    rfl

theorem append_break (s : String) : EndsLine (s ++ "\n") := by
  refine .inr ?_
  rw [String.toList_append, List.getLast?_append]
  rfl

theorem join {ss : List String} (h : ∀ s ∈ ss, EndsLine s) : EndsLine (String.join ss) := by
  induction ss with
  | nil => exact .inl rfl
  | cons s ss ih =>
      rw [List.forall_mem_cons] at h
      rw [String.join_cons]
      exact h.1.append (ih h.2)

end EndsLine

theorem endsLine_printedAt (code : Code) (s : State) : EndsLine (printedAt code s) := by
  rw [printedAt]
  split
  · split
    · exact .append_break _
    · exact .inl rfl
  · exact .inl rfl

namespace CommandLine

/-! ### The texts of an exit -/

theorem lineEnd_eq (output : String) : lineEnd output =
    if output = "" ∨ output.toList.getLast? = some '\n' then "" else "\n" := by
  rw [lineEnd]
  cases h : output.toList.getLast? with
  | none =>
      have hempty : output = "" := by simpa using h
      simp [hempty]
  | some c =>
      have hne : output ≠ "" := by
        rintro rfl
        cases h
      simp [hne]

theorem endsLine_append_lineEnd (output : String) : EndsLine (output ++ lineEnd output) := by
  rw [lineEnd_eq]
  split
  · rwa [String.append_empty]
  · exact .append_break output

/-- The end of a command whose run ended in a fault: what was printed, and an error. -/
structure Exit.Failed (debug : Bool) (printed : String) (fault : Fault) (e : Exit) : Prop where
  code   : e.code = 1
  stdout : e.stdout = printed
  stderr : debug = false → e.stderr = "error: " ++ fault.message ++ "\n"

/-- What stands before the exit value: what was printed, and the output, which a line break follows
unless it is empty or ends in one. -/
def shown (printed output : String) : String :=
  printed ++ output ++ (if output = "" ∨ output.toList.getLast? = some '\n' then "" else "\n")

theorem endsLine_shown {printed : String} (h : EndsLine printed) (output : String) :
    EndsLine (shown printed output) := by
  rw [shown, ← lineEnd_eq, String.append_assoc]
  exact h.append (endsLine_append_lineEnd output)

/-- The end of a command whose run has an answer: the exit value starts the last line. -/
structure Exit.Succeeded (debug : Bool) (printed : String) (answer : Answer) (e : Exit) : Prop where
  code   : e.code = 0
  stdout : e.stdout = shown printed answer.output ++ ("exit value: " ++ answer.value.text ++ "\n")
  /-- The exit value starts a line, -/
  starts : EndsLine (shown printed answer.output)
  /-- and no other. -/
  single : '\n' ∉ ("exit value: " ++ answer.value.text).toList
  stderr : debug = false → e.stderr = ""

section OfReport

variable {m : Machine} {code : Code} {out : Stdout} {budget : Option Nat} {n : Nat}
  {report : Report}

theorem failed_ofReport (h : m.Reports code out budget n report) {fault : Fault}
    (hr : report.result = .error fault) :
    Exit.Failed m.debug report.log.stdout fault (.ofReport report) := by
  have hdebug : report.machine.debug = m.debug := by rw [h.machine_eq]
  refine ⟨?_, ?_, fun hd => ?_⟩
  · simp only [Exit.ofReport, closing, hr]
  · simp only [Exit.ofReport, closing, hr, String.append_empty]
  · simp [Exit.ofReport, closing, hr, h.stderr_eq_empty hd, hdebug, hd]

theorem succeeded_ofReport (h : m.Reports code out budget n report) {answer : Answer}
    (hr : report.result = .ok answer) (hprinted : EndsLine report.log.stdout) :
    Exit.Succeeded m.debug report.log.stdout answer (.ofReport report) := by
  refine ⟨?_, ?_, endsLine_shown hprinted _, ?_, fun hd => ?_⟩
  · simp only [Exit.ofReport, closing, hr]
  · simp only [Exit.ofReport, closing, hr, shown, lineEnd_eq, String.append_assoc]
  · have hvalue := Text.breaks_eq_zero_iff.mp (Word.breaks_text answer.value)
    simp [String.toList_append, hvalue]
  · simp only [Exit.ofReport, closing, hr, h.stderr_eq_empty hd, String.append_empty]

end OfReport

/-! ### Commands that run a program -/

/-- The command ends, and so: with this exit code, after it has written this. -/
def Ends (w : Workspace) (arguments : List String) (e : Exit) : Prop :=
  ∃ fuel, execute fuel w arguments = .ok (some e)

/-- The arguments ask, with these options, for a run of the program with this text. -/
structure AsksRun (w : Workspace) (arguments : List String) (o : Options) (source : String) :
    Prop where
  accepted : Invocation.of arguments = .ok (.run o)
  unlisted : o.disassemble = false
  readable : w.read o.program = .ok source

namespace Options

/-- The machine that the program runs on. -/
def machine (o : Options) : Machine := { debug := o.debug }

/-- The run of the code that the options ask for comes back. -/
def Reports (o : Options) (code : Code) (n : Nat) (report : Report) : Prop :=
  o.machine.Reports code .connected o.maxSteps n report

/-- The budget stops the run. -/
def Exhausts (o : Options) (code : Code) : Prop :=
  ∃ limit report, o.maxSteps = some limit ∧ o.machine.Exhausts code .connected limit report

end Options

variable {w w' : Workspace} {arguments arguments' : List String} {o o' : Options}
  {source : String} {code : Code}

/-- What is left to do once the program has been read is done. -/
theorem execute_of_readable (ha : Invocation.of arguments = .ok (.run o))
    (hr : w.read o.program = .ok source) (fuel : Nat) :
    execute fuel w arguments = .ok ((Task.of o (.ok source)).exit? fuel) := by
  rw [execute, ha, ← hr]
  rfl

namespace AsksRun

theorem execute_eq (h : AsksRun w arguments o source) (fuel : Nat) :
    execute fuel w arguments = .ok ((Task.of o (.ok source)).exit? fuel) :=
  execute_of_readable h.accepted h.readable fuel

theorem ends_iff_of_error (h : AsksRun w arguments o source) {fault : Fault}
    (ha : InstructionSet.standard.assemble source = .error fault) (e : Exit) :
    Ends w arguments e ↔ e = .failure fault.message := by
  have htask : Task.of o (.ok source) = .done (.failure fault.message) := by
    simp only [Task.of, ha]
  simp only [Ends, h.execute_eq, htask, Task.exit?, Except.ok.injEq, Option.some.injEq,
    exists_const, eq_comm]

theorem task_eq (h : AsksRun w arguments o source)
    (ha : InstructionSet.standard.assemble source = .ok code) :
    Task.of o (.ok source) = .run o.machine code o.maxSteps := by
  simp [Task.of, Options.machine, ha, h.unlisted]

/-- **The command ends as the report of its run says.** -/
theorem ends_iff (h : AsksRun w arguments o source)
    (ha : InstructionSet.standard.assemble source = .ok code) (e : Exit) :
    Ends w arguments e ↔ ∃ n report, o.Reports code n report ∧ e = .ofReport report := by
  simp only [Ends, h.execute_eq, h.task_eq ha, Options.Reports, Except.ok.injEq]
  cases o.maxSteps with
  | some limit =>
      simp only [Task.exit?, Option.some.injEq, exists_const]
      constructor
      · rintro rfl
        exact ⟨_, _, .bounded limit, rfl⟩
      · rintro ⟨_, _, ⟨⟩, rfl⟩
        rfl
  | none =>
      simp only [Task.exit?, Option.map_eq_some_iff]
      constructor
      · rintro ⟨fuel, report, hr, rfl⟩
        exact ⟨_, report, .unbounded hr, rfl⟩
      · rintro ⟨_, report, h, rfl⟩
        cases h with
        | @unbounded fuel _ hr => exact ⟨fuel, report, hr, rfl⟩

end AsksRun

/-! ### Runs under different options -/

theorem Options.not_steps_of_not_exhausts (h : ¬ o.Exhausts code) :
    ∀ limit ∈ o.maxSteps, ¬ ∃ fs u,
      (o.machine.program code .connected).Steps limit (o.machine.start code).state fs u := by
  rintro limit hl ⟨es, t, hs⟩
  exact h ⟨limit, _, hl, es, t, hs, rfl⟩

/-- **Options that stop neither run make no difference**, and neither do those that stop both
alike. -/
theorem Options.Reports.transfer {n : Nat} {report : Report} (h : o.Reports code n report)
    (hb : o'.maxSteps = o.maxSteps ∨ ¬ o.Exhausts code ∧ ¬ o'.Exhausts code) :
    ∃ report', o'.Reports code n report' ∧ report'.result = report.result ∧
      report'.log.stdout = report.log.stdout := by
  obtain ⟨es, t, c, hs, rfl⟩ := Machine.Reports.runs h
  obtain ⟨fs, hs', hfs⟩ : ∃ fs, (o'.machine.program code .connected).Runs o'.maxSteps n
      (o'.machine.start code).state fs t c ∧ Effect.SameUntraced es fs := by
    obtain hb | ⟨hb, hb'⟩ := hb
    · rw [hb]
      exact Machine.exists_runs_debug hs o'.debug
    · -- the run without a budget lies between the two
      have hfree : (o.machine.program code .connected).Runs none n (o.machine.start code).state
          es t c := hs.of_budget (not_steps_of_not_exhausts hb) nofun
      obtain ⟨fs, hs', hfs⟩ := Machine.exists_runs_debug hfree o'.debug
      exact ⟨fs, hs'.of_budget nofun (not_steps_of_not_exhausts hb'), hfs⟩
  refine ⟨_, Machine.reports_of_runs hs', rfl, ?_⟩
  rw [Machine.stdout_reported, Machine.stdout_reported, hfs.printed_eq]

theorem ofReport_alike {report report' : Report} (hr : report'.result = report.result)
    (hout : report'.log.stdout = report.log.stdout) :
    (Exit.ofReport report').code = (Exit.ofReport report).code ∧
      (Exit.ofReport report').stdout = (Exit.ofReport report).stdout := by
  simp only [Exit.ofReport, closing, hr, hout]
  cases report.result <;> exact ⟨rfl, rfl⟩

/-- **What the command owes to whoever runs a program with it.**  If the program cannot be
assembled, the command fails and tells why.  Otherwise it ends exactly if the run comes back.
Standard output has the lines that the fetches of the run print, in their order; after a halt the
output follows, and then the exit value, which starts the last line.  The exit code is zero after a
halt and one after a fault.  Without `--debug` nothing but the fault reaches standard error.  Under
other options the command ends with the same exit code and the same standard output, if the budget
is the same or stops neither run. -/
theorem run_contract (h : AsksRun w arguments o source) :
    (∀ fault, InstructionSet.standard.assemble source = .error fault →
      ∀ e, Ends w arguments e ↔
        e = { code := 1, stdout := "", stderr := "error: " ++ fault.message ++ "\n" }) ∧
    (∀ code, InstructionSet.standard.assemble source = .ok code →
      ((∃ e, Ends w arguments e) ↔ ∃ n report, o.Reports code n report) ∧
      ∀ e, Ends w arguments e → ∃ n report ts, o.Reports code n report ∧
        o.machine.Journal code .connected o.maxSteps ts ∧
        (∀ fault, report.result = .error fault →
          e.Failed o.debug (String.join (ts.map (printedAt code))) fault) ∧
        ∀ answer, report.result = .ok answer →
          e.Succeeded o.debug (String.join (ts.map (printedAt code))) answer) ∧
    ∀ w' arguments' o', AsksRun w' arguments' o' source →
      (o'.maxSteps = o.maxSteps ∨ ∀ code, InstructionSet.standard.assemble source = .ok code →
        ¬ o.Exhausts code ∧ ¬ o'.Exhausts code) →
      ∀ e, Ends w arguments e →
        ∃ e', Ends w' arguments' e' ∧ e'.code = e.code ∧ e'.stdout = e.stdout := by
  refine ⟨fun fault ha => h.ends_iff_of_error ha, fun code ha => ⟨?_, fun e he => ?_⟩,
    fun w' arguments' o' h' hb e he => ?_⟩
  · simp only [h.ends_iff ha]
    exact ⟨fun ⟨_, n, report, hr, _⟩ => ⟨n, report, hr⟩,
      fun ⟨n, report, hr⟩ => ⟨_, n, report, hr, rfl⟩⟩
  · obtain ⟨n, report, hr, rfl⟩ := (h.ends_iff ha e).mp he
    obtain ⟨ts, hj, hout⟩ := Machine.Reports.exists_stdout rfl hr
    have hprinted : EndsLine report.log.stdout := by
      rw [hout]
      exact .join (List.forall_mem_map.mpr fun s _ => endsLine_printedAt code s)
    refine ⟨n, report, ts, hr, hj, fun fault hf => ?_, fun answer hf => ?_⟩ <;> rw [← hout]
    · exact failed_ofReport hr hf
    · exact succeeded_ofReport hr hf hprinted
  · cases ha : InstructionSet.standard.assemble source with
    | error fault =>
        rw [h.ends_iff_of_error ha] at he
        exact ⟨e, (h'.ends_iff_of_error ha e).mpr he, rfl, rfl⟩
    | ok code =>
        obtain ⟨n, report, hr, rfl⟩ := (h.ends_iff ha e).mp he
        obtain ⟨report', hr', hresult, hout⟩ := hr.transfer (hb.imp_right fun hb => hb code ha)
        exact ⟨_, (h'.ends_iff ha _).mpr ⟨n, report', hr', rfl⟩, ofReport_alike hresult hout⟩

/-- One program, run as it is and run with a trace within a budget. -/
theorem run_contract_printing :
    let w : Workspace := ⟨[("p", "LOAD_CONST 7\nPRINT\nWRITE\nEXIT".toUTF8)], [], .empty⟩
    Ends w ["p"] { code := 0, stdout := "7\n7\nexit value: 7\n" } ∧
      ∃ e', Ends w ["--debug", "--max-steps", "9", "p"] e' ∧ e'.code = 0 ∧
        e'.stdout = "7\n7\nexit value: 7\n" := by
  intro w
  have asks : AsksRun w ["p"] { program := "p" } "LOAD_CONST 7\nPRINT\nWRITE\nEXIT" :=
    ⟨rfl, rfl, rfl⟩
  have asks' : AsksRun w ["--debug", "--max-steps", "9", "p"]
      { program := "p", debug := true, maxSteps := some 9 } "LOAD_CONST 7\nPRINT\nWRITE\nEXIT" :=
    ⟨rfl, rfl, rfl⟩
  have assembles : InstructionSet.standard.assemble "LOAD_CONST 7\nPRINT\nWRITE\nEXIT" =
      .ok #[⟨1, 7⟩, ⟨0, 0⟩, ⟨11, 0⟩, ⟨2, 0⟩] := by decide +kernel
  have reports : Options.Reports { program := "p" } #[⟨1, 7⟩, ⟨0, 0⟩, ⟨11, 0⟩, ⟨2, 0⟩] 4 _ :=
    .unbounded (show Machine.run? _ _ 4 _ = some _ from rfl)
  have ends : Ends w ["p"] { code := 0, stdout := "7\n7\nexit value: 7\n" } :=
    (asks.ends_iff assembles _).mpr ⟨4, _, reports, by decide +kernel⟩
  refine ⟨ends, (run_contract asks).2.2 _ _ _ asks' (.inr fun code ha => ⟨?_, ?_⟩) _ ends⟩
  · rintro ⟨_, _, ⟨⟩, -⟩
  · -- the program halts within nine instructions, so that these cannot all ask for the next
    obtain rfl := Except.ok.inj (assembles.symm.trans ha)
    rintro ⟨_, _, ⟨⟩, _, _, hs, -⟩
    cases Machine.run?_of_steps hs

end CommandLine

end StackMachine
