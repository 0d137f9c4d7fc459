import StackMachine.Proofs.Chronicle
import StackMachine.Proofs.Closed
import StackMachine.Proofs.Tables

/-!
# Proofs — Transcript

What a debugged run writes to standard error.  First comes the listing of the code, as far as the
set knows its opcodes (`IsTranscriptHead`).  If it knows all of them, one block follows for each
instruction that the run fetches, in the order of the journal (`Block`): a line with its place, its
mnemonic and its argument, and below it the stack that it leaves, unless it ends in a fault
(`Block.IsText`).  If not, nothing follows.

The loop has a text for instructions without a mnemonic, but a run is traced only if its code was
listed to the end, so that each instruction it fetches has one (`Program.exists_block`).
-/

namespace StackMachine

namespace Effect

/-- The text of the trace among the effects. -/
def traced (es : List Effect) : String := String.join (es.map stderr)

theorem traced_append (es fs : List Effect) : traced (es ++ fs) = traced es ++ traced fs := by
  rw [traced, List.map_append, String.join_append]
  rfl

theorem traced_singleton (e : Effect) : traced [e] = e.stderr := by
  rw [traced, List.map_singleton, String.join_cons]
  exact String.append_empty

theorem traced_map_print (ps : List Print) : traced (ps.map print) = "" :=
  join_stderr_eq_empty (List.forall_mem_map.mpr fun _ _ => rfl)

end Effect

/-! ### The listing before a run -/

namespace Listing

variable {set : InstructionSet} {code : Code} {pc : Nat} {o : Opcode}

/-- The code up to the first unknown opcode, and what comes after it. -/
theorem FirstUnknown.exists_toList_eq (h : FirstUnknown set code pc o) :
    ∃ i rest, code.toList = (code.take pc).toList ++ i :: rest ∧ set.mnemonic? i.opcode = none := by
  obtain ⟨i, hi, rfl⟩ := h.there
  obtain ⟨hlt, rfl⟩ := Array.getElem?_eq_some_iff.mp hi
  refine ⟨code[pc], code.toList.drop (pc + 1), ?_, h.unknown⟩
  have hdrop := List.drop_eq_getElem_cons (l := code.toList) hlt
  rw [Array.getElem_toList] at hdrop
  rw [← hdrop]
  simp

/-- All opcodes before it are known. -/
theorem FirstUnknown.known_take (h : FirstUnknown set code pc o) :
    ∀ i ∈ code.take pc, (set.mnemonic? i.opcode).isSome := by
  intro i hi
  obtain ⟨k, hk⟩ := Array.mem_iff_getElem?.mp hi
  rw [Array.take_eq_extract, Array.getElem?_extract] at hk
  split at hk
  · exact h.before k (by omega) i (by simpa using hk)
  · cases hk

/-- A listing goes as far as the one of the code before the first unknown opcode. -/
theorem FirstUnknown.rows_eq (h : FirstUnknown set code pc o) :
    (ofCode set code).rows = (ofCode set (code.take pc)).rows := by
  obtain ⟨i, rest, hcode, hi⟩ := h.exists_toList_eq
  have hknown := isSome_row?_of_known h.known_take
  rw [ofCode, hcode, List.zipIdx_append, List.takeWhile_append_of_pos hknown, List.zipIdx_cons,
    List.takeWhile_cons_of_neg (by simp [row?, hi]), List.append_nil,
    ofCode_of_known h.known_take]

end Listing

/-- The text is a header, the listing with these rows, a note and an end mark.  How many columns of
a terminal a mnemonic takes is left to whoever draws the listing. -/
inductive IsTranscriptHead (rows : List Listing.Row) (note : String) : String → Prop where
  | intro {width : String → Nat} {table : String} (hw : Text.CountsColumns width)
      (ht : Listing.IsDrawn width rows table) :
      IsTranscriptHead rows note
        ("=== running vm ======================\ndisassembly of run code:\n" ++ table ++ "\n"
          ++ note ++ "=== end of disassembly\n\n")

/-- The note that the opcode `o` at `pc` is not known, and that the run is not traced. -/
def unknownNote (pc : Nat) (o : Opcode) : String :=
  "could not disassemble - opcode " ++ o.toNat.repr ++ " at pc=" ++ pc.repr
    ++ " unknown...\nturning off debug mode.\n"

theorem isTranscriptHead_text (listing : Listing) :
    IsTranscriptHead listing.rows (listing.unknown.elim "" fun (pc, o) => unknownNote pc o)
      (Trace.preamble listing).text := by
  obtain ⟨rows, _ | ⟨pc, o⟩⟩ := listing <;>
    exact .intro Text.countsColumns_displayWidth (Listing.isDrawn_text _)

/-- What is written before a run that is debugged. -/
theorem Machine.traced_preamble {m : Machine} (hd : m.debug = true) (code : Code) :
    Effect.traced (m.preamble code) =
      (Trace.preamble (Listing.ofCode m.instructions code)).text := by
  simp only [preamble, hd, if_true]
  generalize Listing.ofCode m.instructions code = listing
  obtain ⟨rows, _ | ⟨pc, o⟩⟩ := listing <;>
    rw [← List.singleton_append, Effect.traced_append, Effect.traced_singleton] <;>
    exact String.append_empty

/-! ### The block of one instruction -/

/-- What a transcript says of one instruction. -/
structure Block where
  pc       : Nat
  mnemonic : String
  argument : Word
  /-- The stack after the instruction, its top first, if the instruction completed. -/
  stack    : Option (List Word)

/-- The text is the block as it is written, an empty line after the stack. -/
inductive Block.IsText : Block → String → Prop where
  | completed {pc : Nat} {mnemonic : String} {argument : Word} {words : List Word} {table : String}
      (ht : IsStackTable words table) :
      IsText ⟨pc, mnemonic, argument, some words⟩
        ("-- exec " ++ mnemonic ++ " arg=" ++ argument.toInt.repr ++ " at pc=" ++ pc.repr ++ "\n"
          ++ table ++ "\n")
  | faulted {pc : Nat} {mnemonic : String} {argument : Word} :
      IsText ⟨pc, mnemonic, argument, none⟩
        ("-- exec " ++ mnemonic ++ " arg=" ++ argument.toInt.repr ++ " at pc=" ++ pc.repr ++ "\n")

/-- The block says what becomes of the instruction that is fetched in `s`: it stands at the counter,
the mnemonic is the one that has its opcode, and the stack is the one that it leaves, unless it ends
in a fault. -/
inductive InstructionSet.Shows (set : InstructionSet) (code : Code) (out : Stdout) (s : State) :
    Block → Prop where
  | completed {i : Instruction} {mnemonic : String} {f : Flow} {t : State}
      (hi : code[s.pc]? = some i) (hm : set.opcode? mnemonic = some i.opcode)
      (h : set.Performs code out s (.ok f) t) :
      Shows set code out s ⟨s.pc, mnemonic, i.argument, some t.stack⟩
  | faulted {i : Instruction} {mnemonic : String} {e : Fault} {t : State}
      (hi : code[s.pc]? = some i) (hm : set.opcode? mnemonic = some i.opcode)
      (h : set.Performs code out s (.error e) t) :
      Shows set code out s ⟨s.pc, mnemonic, i.argument, none⟩

namespace Program

variable {p : Program} {s : State}

/-- **The trace of a fetched instruction is its block**, if the set knows its opcode. -/
theorem exists_block (hp : p.tracing = true) (hs : p.instructions.WellFormed)
    (hsize : p.instructions.size < 2 ^ 32) {i : Instruction} (hi : p.code[s.pc]? = some i)
    (hk : (p.instructions.mnemonic? i.opcode).isSome) :
    ∃ b, p.instructions.Shows p.code p.out s b ∧
      b.IsText (Effect.traced (p.step s).emitted) := by
  obtain ⟨mnemonic, hm⟩ := Option.isSome_iff_exists.mp hk
  have hm' := (hs.opcode?_eq_some_iff hsize).mpr hm
  have hfetched : Effect.traced (p.fetched s.pc i) =
      (Trace.exec mnemonic i.argument s.pc).text := by
    rw [fetched, if_pos hp, hm, Option.getD_some, ← List.singleton_append, Effect.traced_append,
      Effect.traced_singleton, Effect.traced_singleton]
    exact String.append_empty
  obtain ⟨r, t, after, hc, hstep⟩ := exists_comes hi
  rw [hstep, Effect.traced_append, Effect.traced_append, Effect.traced_map_print,
    String.append_empty, hfetched]
  cases hc with
  | completed h =>
      refine ⟨_, .completed hi hm' h, ?_⟩
      have htext : Effect.traced (p.completed t) = stackText t.stack ++ "\n" := by
        rw [completed, if_pos hp, Effect.traced_singleton]
        rfl
      rw [htext, ← String.append_assoc]
      exact .completed (isStackTable_stackText t.stack)
  | faulted h =>
      refine ⟨_, .faulted hi hm' h, ?_⟩
      rw [Effect.traced_singleton]
      exact String.append_empty.symm ▸ .faulted
  | unknown ha =>
      rw [← InstructionSet.isSome_action?_iff, ha] at hk
      cases hk

/-- A block for each instruction of a list, and the trace of them all. -/
theorem exists_blocks (hp : p.tracing = true) (hs : p.instructions.WellFormed)
    (hsize : p.instructions.size < 2 ^ 32)
    (hk : ∀ i ∈ p.code, (p.instructions.mnemonic? i.opcode).isSome) {ts : List State}
    (hts : ∀ u ∈ ts, u.pc < p.code.size) :
    ∃ blocks texts, List.Forall₂ (p.instructions.Shows p.code p.out) ts blocks ∧
      List.Forall₂ Block.IsText blocks texts ∧
      Effect.traced (ts.flatMap fun u => (p.step u).emitted) = String.join texts := by
  induction ts with
  | nil => exact ⟨[], [], .nil, .nil, rfl⟩
  | cons u us ih =>
      rw [List.forall_mem_cons] at hts
      have hi := Array.getElem?_eq_getElem hts.1
      obtain ⟨b, hb, htext⟩ := exists_block hp hs hsize hi (hk _ (Array.mem_of_getElem? hi))
      obtain ⟨blocks, texts, hblocks, htexts, hrest⟩ := ih hts.2
      refine ⟨b :: blocks, _ :: texts, .cons hb hblocks, .cons htext htexts, ?_⟩
      rw [List.flatMap_cons, Effect.traced_append, hrest, String.join_cons]

theorem Runs.traced_eq_empty {budget : Option Nat} {n : Nat} {t : State} {es : List Effect}
    {c : Option Stop} (h : p.Runs budget n s es t c) (hp : p.tracing = false) :
    Effect.traced es = "" :=
  Effect.join_stderr_eq_empty (h.forall_mem (isTrace_eq_false_of_mem_emitted hp))

end Program

namespace InstructionSet

variable {set : InstructionSet} {code : Code} {out : Stdout}

theorem Shows.isSome_stack {p : Program} {s : State} {b : Block} {f : Flow}
    (h : p.instructions.Shows p.code p.out s b) (hs : (p.step s).result = .ok f) :
    b.stack.isSome := by
  cases h with
  | completed => rfl
  | faulted _ _ h => cases hs.symm.trans (Program.result_of_performs h)

end InstructionSet

/-! ### The transcript of a run -/

namespace Machine

variable {P : Action → Prop} {m : Machine} {code : Code} {out : Stdout} {budget : Option Nat}
  {n : Nat} {report : Report}

theorem stderr_reported (m : Machine) (code : Code) (n : Nat) (es : List Effect) (t : State)
    (c : Option Stop) : (m.reported code n es t c).log.stderr =
      Effect.traced (m.preamble code) ++ Effect.traced es := by
  have hclosing : Effect.traced (closing n t c) = "" :=
    Effect.join_stderr_eq_empty (forall_mem_closing (fun _ => rfl) (fun _ _ => rfl) n t c)
  show Effect.traced (m.reported code n es t c).log.toList = _
  rw [toList_log_reported, Effect.traced_append, Effect.traced_append, Effect.traced_append,
    hclosing, String.append_empty, Effect.traced_singleton]
  exact congrArg (· ++ _) String.append_empty

/-- Without the debugging switch there is no transcript. -/
theorem Reports.stderr_eq_empty (h : m.Reports code out budget n report) (hd : m.debug = false) :
    report.log.stderr = "" := by
  obtain ⟨es, t, c, hs, rfl⟩ := h.runs
  have htracing : (m.program code out).tracing = false := by
    rw [program, hd]
    rfl
  rw [stderr_reported, hs.traced_eq_empty htracing, preamble, hd]
  rfl

/-- Only the last block of a journal can lack its stack. -/
theorem isSome_stack_of_mem_dropLast {ts : List State} {blocks : List Block}
    (hj : m.Journal code out budget ts)
    (hb : List.Forall₂ (m.instructions.Shows code out) ts blocks) :
    ∀ b ∈ blocks.dropLast, b.stack.isSome := by
  intro b hmem
  have hinit : List.Forall₂ (m.instructions.Shows code out) ts.dropLast blocks.dropLast := by
    rw [List.dropLast_eq_take, List.dropLast_eq_take, hb.length_eq]
    exact List.forall₂_take _ hb
  obtain ⟨u, hu, hshows⟩ := exists_forall₂_iff.mp
    ⟨_, ((List.forall₂_and_left _ _).mpr ⟨hj.forall_dropLast, hinit⟩).flip⟩ b hmem
  exact hshows.isSome_stack (p := m.program code out) hu

/-- **The transcript of a debugged run tells its fetches one to one.**  Let the set be one that
registrations can make, of fewer than 2³² instructions.  If it knows every opcode of the code, the
transcript is the complete listing of the code between a header and an end mark, and then one block
for each fetch, in their order; only the last block can lack its stack.  If not, it is the listing
of the code before the first unknown opcode, with a note of that opcode between it and the end mark,
however many instructions the run completes. -/
theorem transcript_tells_run (hm : m.instructions.Reachable P)
    (hsize : m.instructions.size < 2 ^ 32) (hd : m.debug = true)
    (h : m.Reports code out budget n report) :
    (∃ (listing : Listing) (ts : List State) (blocks : List Block) (head : String)
        (texts : List String),
      listing.Complete m.instructions code ∧ m.Journal code out budget ts ∧
      List.Forall₂ (m.instructions.Shows code out) ts blocks ∧
      (∀ b ∈ blocks.dropLast, b.stack.isSome) ∧
      IsTranscriptHead listing.rows "" head ∧ List.Forall₂ Block.IsText blocks texts ∧
      report.log.stderr = head ++ String.join texts) ∨
    ∃ (listing : Listing) (pc : Nat) (o : Opcode),
      Listing.FirstUnknown m.instructions code pc o ∧
      listing.Complete m.instructions (code.take pc) ∧
      IsTranscriptHead listing.rows (unknownNote pc o) report.log.stderr := by
  obtain ⟨es, t, c, hs, rfl⟩ := h.runs
  have hhead := isTranscriptHead_text (Listing.ofCode m.instructions code)
  rw [stderr_reported, traced_preamble hd]
  cases hu : (Listing.ofCode m.instructions code).unknown with
  | none =>
      have hk := Listing.unknown_ofCode_eq_none_iff.mp hu
      obtain ⟨ts, hj, rfl, -⟩ := hs.journal
      obtain ⟨blocks, texts, hb, htexts, htext⟩ := Program.exists_blocks (p := m.program code out)
        ((tracing_program_of_known hk).trans hd) hm.wellFormed hsize hk fun _ => hj.pc_lt
      rw [hu] at hhead
      refine .inl ⟨_, ts, blocks, _, texts, Listing.complete_ofCode hk, hj, hb,
        isSome_stack_of_mem_dropLast hj hb, hhead, htexts, ?_⟩
      rw [htext]
  | some po =>
      obtain ⟨pc, o⟩ := po
      have hfirst := Listing.firstUnknown_of_unknown_ofCode hu
      have htracing : (m.program code out).tracing = false := by
        rw [program, hu]
        exact Bool.and_false _
      rw [hu, hfirst.rows_eq] at hhead
      refine .inr ⟨_, pc, o, hfirst, Listing.complete_ofCode hfirst.known_take, ?_⟩
      rw [hs.traced_eq_empty htracing, String.append_empty]
      exact hhead

/-- A traced run that ends in a fault, at an addition that finds one operand. -/
theorem transcript_tells_run_underflow :
    ∃ report, Reports { debug := true } #[⟨1, 7⟩, ⟨4, 0⟩] .connected (some 9) 1 report ∧
      report.result = .error (.stackUnderflow 2 1) ∧
      report.log.stderr =
        "=== running vm ======================\ndisassembly of run code:\n" ++
        "  PC │ Instruction │ Argument  \n" ++
        " ────┼─────────────┼────────── \n" ++
        "   0 │ LOAD_CONST  │        7  \n" ++
        "   1 │ ADD         │        0  \n" ++
        " ────┴─────────────┴────────── \n\n=== end of disassembly\n\n" ++
        "-- exec LOAD_CONST arg=7 at pc=0\n" ++
        "         Depth │ Value  \n" ++
        " ──────────────┼─────── \n" ++
        "  * --> S[0] = │ 7      \n" ++
        " ──────────────┴─────── \n\n-- exec ADD arg=0 at pc=1\n" ∧
      ∃ (listing : Listing) (ts : List State) (blocks : List Block) (head : String)
          (texts : List String),
        listing.Complete .standard #[⟨1, 7⟩, ⟨4, 0⟩] ∧
        Journal { debug := true } #[⟨1, 7⟩, ⟨4, 0⟩] .connected (some 9) ts ∧
        List.Forall₂ (InstructionSet.standard.Shows #[⟨1, 7⟩, ⟨4, 0⟩] .connected) ts blocks ∧
        (∀ b ∈ blocks.dropLast, b.stack.isSome) ∧
        IsTranscriptHead listing.rows "" head ∧ List.Forall₂ Block.IsText blocks texts ∧
        report.log.stderr = head ++ String.join texts := by
  have hknown : ∀ i ∈ (#[⟨1, 7⟩, ⟨4, 0⟩] : Code),
      (InstructionSet.standard.mnemonic? i.opcode).isSome := by decide
  have h : Reports { debug := true } #[⟨1, 7⟩, ⟨4, 0⟩] .connected (some 9) 1 _ := .bounded 9
  refine ⟨_, h, rfl, by decide +kernel, ?_⟩
  rcases transcript_tells_run (P := fun _ => False) .standard (by decide) rfl h with
    ht | ⟨_, pc, _, ⟨⟨i, hi, rfl⟩, hnone, -⟩, -⟩
  · exact ht
  · cases hnone ▸ hknown i (Array.mem_of_getElem? hi)

end Machine

end StackMachine
