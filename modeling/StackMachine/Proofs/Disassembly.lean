import StackMachine.Proofs.Closed
import StackMachine.Proofs.Contract
import StackMachine.Proofs.Diagnosis
import StackMachine.Proofs.Recovery

/-!
# Proofs — Disassembly

What the command owes to whoever has a program listed with it.  All that is needed for a listing is
the text of the program and the names of the instructions: the command runs nothing and looks at no
other option (`AsksListing.task_eq`).  What has been assembled can be listed, so that the command
fails exactly if the program cannot be assembled, and no other error is to be seen
(`listing_contract`).

A listing has a row for each line of the source that is not blank.  The row shows what is written
there, its mnemonic and the value of its argument (`ShowsLine`), and nothing of the opcodes that
stand between the two.  On standard output the row is a line, with the place of the source line and
these two in columns of so many characters (`Exit.Listed`).
-/

namespace StackMachine

theorem Fault.message_unknownInstruction (mnemonic : String) (line : Nat) :
    (unknownInstruction mnemonic line).message =
      "line " ++ line.repr ++ ": unknown instruction `" ++ mnemonic ++ "`" := rfl

theorem Fault.message_malformedInstruction (line : Nat) (text reason : String) :
    (malformedInstruction line text reason).message =
      "line " ++ line.repr ++ ": malformed instruction `" ++ text ++ "`: " ++ reason := rfl

/-! ### Names without actions -/

namespace InstructionSet

variable {set set' : InstructionSet} {source : String} {code : Code} {f : Fault}

/-- The assembler looks at no action. -/
theorem assemble_of_mnemonics_eq (h : set'.mnemonics = set.mnemonics) (source : String) :
    set'.assemble source = set.assemble source := by
  have hline (l : Line) : l.instruction set' = l.instruction set := by
    simp only [Line.instruction, Line.opcode, opcode?_eq, h]
  simp only [assemble, hline]

/-- Neither does a listing show any. -/
theorem disassemble_of_mnemonics_eq (h : set'.mnemonics = set.mnemonics) (code : Code) :
    set'.disassemble code = set.disassemble code := by
  have hrow (i : Instruction) (pc : Nat) : Listing.row? set' i pc = Listing.row? set i pc := by
    simp only [Listing.row?, mnemonic?_eq, h]
  simp only [disassemble, Listing.ofCode, hrow]

/-- A fault of the assembler names its line before anything else. -/
theorem prefix_message (h : set.assemble source = .error f) :
    "line ".toList <+: f.message.toList := by
  obtain ⟨before, l, after, hsource, -, hl⟩ := assemble_eq_error_iff.mp h
  have hmem : l ∈ Line.ofSource source := by simp [hsource]
  obtain ⟨t, -, hd⟩ := Line.exists_mem_ofSource_iff.mp ⟨l, hmem, rfl, hl⟩
  cases hd with
  | tooMany | argument =>
      rw [Fault.message_malformedInstruction]
      simp only [String.toList_append, List.append_assoc]
      exact List.prefix_append _ _
  | unknown =>
      rw [Fault.message_unknownInstruction]
      simp only [String.toList_append, List.append_assoc]
      exact List.prefix_append _ _

end InstructionSet

/-! ### Rows and lines -/

/-- The row shows the line: its mnemonic, and the value of its argument, which is zero if none is
written. -/
inductive ShowsLine : List Char → Listing.Row → Prop where
  | bare (b : Builtin) (pc : Nat) : ShowsLine b.mnemonic.toList ⟨pc, b.mnemonic, 0⟩
  | full (b : Builtin) (pc : Nat) {ds : List Char} {i : Int} (hd : Word.Literal ds i)
      (hi : -2 ^ 63 ≤ i ∧ i ≤ 2 ^ 63 - 1) :
      ShowsLine (b.mnemonic.toList ++ ' ' :: ds) ⟨pc, b.mnemonic, .ofInt i⟩

/-- The lines of the source that are not blank, less the white space at their ends. -/
def writtenLines (source : String) : List (List Char) := (lines source).filter (· ≠ [])

/-- Each line that is not blank has one row, in their order; it shows the line, and the place of the
line among them. -/
def ShowsSource (source : String) (rows : List Listing.Row) : Prop :=
  List.Forall₂ (fun line row => row.pc = line.2 ∧ ShowsLine line.1 row)
    (writtenLines source).zipIdx rows

theorem Builtin.isPlain_mnemonic (b : Builtin) : Text.isPlain b.mnemonic = true := by
  cases b <;> decide

/-- Only the standard mnemonics are there to be shown. -/
theorem ShowsSource.isPlain_mnemonic {source : String} {rows : List Listing.Row}
    (h : ShowsSource source rows) : ∀ r ∈ rows, Text.isPlain r.mnemonic = true := by
  intro r hr
  obtain ⟨⟨line, k⟩, -, hline⟩ := exists_forall₂_iff.mp ⟨_, h.flip⟩ r hr
  cases hline with
  | bare b | full b => exact b.isPlain_mnemonic

theorem ShowsSource.length_eq {source : String} {rows : List Listing.Row}
    (h : ShowsSource source rows) : rows.length = (writtenLines source).length := by
  rw [← List.Forall₂.length_eq h, List.length_zipIdx]

theorem showsLine_of_spells {line : List Char} {i : Instruction} {m : String}
    (h : Line.Spells .standard line i) (hm : InstructionSet.standard.mnemonic? i.opcode = some m)
    (pc : Nat) : ShowsLine line ⟨pc, m, i.argument⟩ := by
  have hlookup {n : String} {o : Opcode} (ho : InstructionSet.standard.opcode? n = some o) :
      ∃ b : Builtin, n = b.mnemonic ∧ InstructionSet.standard.mnemonic? o = some n := by
    have hn : InstructionSet.standard.mnemonic? o = some n :=
      (InstructionSet.wellFormed_standard.opcode?_eq_some_iff (by decide)).mp ho
    obtain ⟨b, hb, -⟩ | ⟨hnone, -⟩ := InstructionSet.standard_cases o
    · exact ⟨b, Option.some.inj (hn.symm.trans hb), hn⟩
    · cases hn.symm.trans hnone
  cases h with
  | bare ho =>
      obtain ⟨b, rfl, hn⟩ := hlookup ho
      obtain rfl := Option.some.inj (hm.symm.trans hn)
      exact .bare b pc
  | full ho hd hi =>
      obtain ⟨b, rfl, hn⟩ := hlookup ho
      obtain rfl := Option.some.inj (hm.symm.trans hn)
      exact .full b pc hd hi

/-- **The rows of a listing show the source** that the code was assembled from. -/
theorem showsSource_of_assemble {source : String} {code : Code}
    (h : InstructionSet.standard.assemble source = .ok code) :
    ShowsSource source (Listing.ofCode .standard code).rows := by
  have hspells := InstructionSet.wellFormed_standard.assemble_eq_ok_iff.mp h
  have hcomplete := Listing.complete_ofCode (InstructionSet.known_of_assemble h)
  have hlength : (writtenLines source).length = code.toList.length := hspells.length_eq
  refine List.forall₂_iff_get.mpr ⟨?_, fun k hk hk' => ?_⟩
  · rw [List.length_zipIdx, hlength, hcomplete.length, Array.length_toList]
  · rw [List.length_zipIdx] at hk
    have hi : code[k]? = some (code.toList.get ⟨k, hlength ▸ hk⟩) := by
      rw [← Array.getElem?_toList]
      exact List.getElem?_eq_getElem _
    obtain ⟨m, hm, hrow⟩ := hcomplete.row k _ hi
    obtain ⟨hlt, hrow⟩ := List.getElem?_eq_some_iff.mp hrow
    have hline := (List.forall₂_iff_get.mp hspells).2 k hk (hlength ▸ hk)
    simp only [List.get_eq_getElem, List.getElem_zipIdx, hrow, Nat.zero_add, true_and]
    exact showsLine_of_spells hline hm k

/-! ### Commands that list a program -/

namespace CommandLine

/-- The arguments ask, with these options, for the listing of the program with this text. -/
structure AsksListing (w : Workspace) (arguments : List String) (o : Options) (source : String) :
    Prop where
  accepted : Invocation.of arguments = .ok (.run o)
  listed   : o.disassemble = true
  readable : w.read o.program = .ok source

/-- The end of a command that has listed the source: the table alone, and an empty line after it. -/
structure Exit.Listed (source : String) (e : Exit) : Prop where
  code   : e.code = 0
  /-- Each row is on a line of its own: the place, the mnemonic and the argument. -/
  stdout : ∃ rows table, ShowsSource source rows ∧ Listing.IsDrawn String.length rows table ∧
    e.stdout = table ++ "\n"
  /-- There is a line for each row, and for the titles, the two rules and the end. -/
  lines  : Text.breaks e.stdout = (writtenLines source).length + 4
  stderr : e.stderr = ""

theorem Exit.failure_injective {reason reason' : String}
    (h : Exit.failure reason = .failure reason') : reason = reason' := by
  have herror : "error: " ++ reason ++ "\n" = "error: " ++ reason' ++ "\n" :=
    congrArg Exit.stderr h
  simpa using herror

/-- What a command that is asked for a listing comes to. -/
def listingExit (source : String) : Exit :=
  match InstructionSet.standard.assemble source with
  | .error fault => .failure fault.message
  | .ok code     => .listing (InstructionSet.standard.disassemble code)

variable {w : Workspace} {arguments : List String} {o : Options} {source : String} {code : Code}

/-- **Nothing is left to run**, whatever the other options are. -/
theorem AsksListing.task_eq (h : AsksListing w arguments o source) :
    Task.of o (.ok source) = .done (listingExit source) := by
  simp only [Task.of, listingExit]
  cases InstructionSet.standard.assemble source with
  | error fault => rfl
  | ok code => simp [h.listed]

theorem listingExit_of_error {fault : Fault}
    (ha : InstructionSet.standard.assemble source = .error fault) :
    listingExit source = .failure fault.message := by
  rw [listingExit, ha]

theorem listingExit_of_ok (ha : InstructionSet.standard.assemble source = .ok code) :
    listingExit source = .listing (some (Listing.ofCode .standard code).text) := by
  have hknown := InstructionSet.known_of_assemble ha
  rw [listingExit, ha]
  exact congrArg Exit.listing (InstructionSet.disassemble_eq_some_iff.mpr ⟨hknown, rfl⟩)

theorem listed_listingExit (ha : InstructionSet.standard.assemble source = .ok code) :
    Exit.Listed source (listingExit source) := by
  have hshows := showsSource_of_assemble ha
  have hbreaks := Listing.breaks_text_ofCode InstructionSet.wellFormed_standard code
  have hdrawn := Listing.isDrawn_length_text hshows.isPlain_mnemonic
  rw [listingExit_of_ok ha]
  refine ⟨rfl, ⟨_, _, hshows, hdrawn, rfl⟩, ?_, rfl⟩
  show Text.breaks (_ ++ "\n") = _
  rw [Text.breaks_append, hbreaks, hshows.length_eq]
  rfl

/-- An opcode that has no name is never what the command complains of. -/
theorem listingExit_ne (source : String) : listingExit source ≠ .listing none := by
  cases ha : InstructionSet.standard.assemble source with
  | ok code =>
      rw [listingExit_of_ok ha]
      nofun
  | error fault =>
      have hprefix := InstructionSet.prefix_message ha
      rw [listingExit_of_error ha]
      intro h
      rw [Exit.failure_injective h] at hprefix
      exact absurd hprefix (by decide)

/-- **What the command owes to whoever has a program listed with it.**  It runs nothing, asks
nothing of the actions that instructions have, and ends.  The exit code is zero exactly if the
program can be assembled; then the listing is all that is written, with one row for each line that
is not blank.  If it cannot, its fault is all that is written, and the exit code is one.  It never
is an opcode without a name that the command complains of, and whatever other options are given and
wherever the program is read, the command ends alike. -/
theorem listing_contract (h : AsksListing w arguments o source) :
    ∃ e, Task.of o (.ok source) = .done e ∧ (∀ fuel, execute fuel w arguments = .ok (some e)) ∧
      (e.code = 0 ↔ ∃ code, InstructionSet.standard.assemble source = .ok code) ∧
      (∀ code, InstructionSet.standard.assemble source = .ok code → Exit.Listed source e) ∧
      (∀ fault, InstructionSet.standard.assemble source = .error fault →
        e = { code := 1, stdout := "", stderr := "error: " ++ fault.message ++ "\n" }) ∧
      e ≠ .listing none ∧
      (∀ set : InstructionSet, set.mnemonics = InstructionSet.standard.mnemonics →
        set.assemble source = InstructionSet.standard.assemble source ∧
          ∀ code, set.disassemble code = InstructionSet.standard.disassemble code) ∧
      ∀ w' arguments' o', AsksListing w' arguments' o' source →
        ∀ fuel, execute fuel w' arguments' = .ok (some e) := by
  have hends {w : Workspace} {arguments : List String} {o : Options}
      (h : AsksListing w arguments o source) (fuel : Nat) :
      execute fuel w arguments = .ok (some (listingExit source)) := by
    rw [execute_of_readable h.accepted h.readable, h.task_eq]
    rfl
  refine ⟨listingExit source, h.task_eq, hends h, ⟨fun hcode => ?_, ?_⟩,
    fun code => listed_listingExit, fun fault => listingExit_of_error, listingExit_ne source,
    fun set hset => ⟨InstructionSet.assemble_of_mnemonics_eq hset source,
      InstructionSet.disassemble_of_mnemonics_eq hset⟩,
    fun w' arguments' o' h' => hends h'⟩
  · cases ha : InstructionSet.standard.assemble source with
    | ok code => exact ⟨code, rfl⟩
    | error fault =>
        rw [listingExit_of_error ha] at hcode
        cases hcode
  · rintro ⟨code, ha⟩
    exact (listed_listingExit ha).code

/-- A program with blank lines among the others, listed by a command that could not run it for want
of steps. -/
theorem listing_contract_blank :
    let w : Workspace :=
      ⟨[("p", "LOAD_CONST +07 \n\n \t\r\nPRINT\nEXIT".toUTF8)], [], .empty⟩
    ∃ e, (∀ fuel, execute fuel w ["--disassemble", "--debug", "--max-steps", "0", "p"] =
        .ok (some e)) ∧ e.code = 0 ∧ e.stderr = "" ∧ Text.breaks e.stdout = 7 ∧
      e.stdout =
        "  PC │ Instruction │ Argument  \n" ++
        " ────┼─────────────┼────────── \n" ++
        "   0 │ LOAD_CONST  │        7  \n" ++
        "   1 │ PRINT       │        0  \n" ++
        "   2 │ EXIT        │        0  \n" ++
        " ────┴─────────────┴────────── \n\n" ∧
      ∃ r₀ r₁ r₂ table, ShowsSource "LOAD_CONST +07 \n\n \t\r\nPRINT\nEXIT" [r₀, r₁, r₂] ∧
        Listing.IsDrawn String.length [r₀, r₁, r₂] table ∧ e.stdout = table ++ "\n" := by
  intro w
  have asks : AsksListing w ["--disassemble", "--debug", "--max-steps", "0", "p"]
      { program := "p", debug := true, disassemble := true, maxSteps := some 0 }
      "LOAD_CONST +07 \n\n \t\r\nPRINT\nEXIT" := ⟨rfl, rfl, rfl⟩
  have assembles : InstructionSet.standard.assemble "LOAD_CONST +07 \n\n \t\r\nPRINT\nEXIT" =
      .ok #[⟨1, 7⟩, ⟨0, 0⟩, ⟨2, 0⟩] := by decide +kernel
  obtain ⟨e, done, ends, -, lists, -⟩ := listing_contract asks
  obtain rfl := Task.done.inj (done.symm.trans asks.task_eq)
  have listed := lists _ assembles
  obtain ⟨rows, table, shows, drawn, stdout⟩ := listed.stdout
  have three : writtenLines "LOAD_CONST +07 \n\n \t\r\nPRINT\nEXIT" =
      ["LOAD_CONST +07".toList, "PRINT".toList, "EXIT".toList] := by decide
  have length := shows.length_eq
  have breaks := listed.lines
  rw [three] at length breaks
  obtain ⟨r₀, r₁, r₂, rfl⟩ := List.length_eq_three.mp length
  exact ⟨_, ends, listed.code, listed.stderr, breaks, by decide +kernel, r₀, r₁, r₂, table, shows,
    drawn, stdout⟩

end CommandLine

end StackMachine
