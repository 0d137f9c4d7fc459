import StackMachine.Machine
import StackMachine.Proofs.Quotation
import StackMachine.Proofs.Recovery

/-!
# Proofs — Dump

The state of a machine can be told from its text.  The output stands in the text between quotes, and
it may be anything, the rest of such a text included.  But the two figures before it end at a tab,
which no figure has in it; the output ends at the quote that closes it, since no quote in it stands
for itself; and all that follows is the stack table.  The words of its rows, two cells each, tell
the values one by one (`stack_eq_of_isLayout`): what is written of a depth is the same in every
table.

`Machine.IsDump` asks as little of a text as this needs.  The output may be written in any way that
quotes allow, and the table drawn with any blanks about its cells.
-/

namespace StackMachine

/-! ### The table of a stack -/

/-- The words of a row: those of the place, a bar, and the value. -/
def stackRowWords (p : Word × Nat) : List (List Char) :=
  Text.words (stackLabel p.2).toList ++ [['│'], p.1.text.toList]

theorem lineWords_stackRow (p : Word × Nat) :
    Text.lineWords [stackLabel p.2, p.1.text] = stackRowWords p := by
  rw [Text.lineWords, List.map_cons, List.map_cons, p.1.isMnemonic_text.words_eq]
  rfl

theorem isLayout_stackText (stack : List Word) : (stackTable stack).IsLayout (stackText stack) := by
  refine Text.Table.isLayout_render (by simp [stackTable]) ?_
  simp only [stackTable, List.forall_mem_map]
  exact fun _ _ => rfl

/-- Rows from the same depth on have the same places, so that they differ in their values only. -/
theorem eq_of_stackRowWords_eq {vs ws : List Word} {depth : Nat}
    (h : (vs.zipIdx depth).flatMap stackRowWords = (ws.zipIdx depth).flatMap stackRowWords) :
    vs = ws := by
  induction vs generalizing ws depth with
  | nil =>
      cases ws with
      | nil => rfl
      | cons w ws => simp [List.zipIdx_cons, stackRowWords] at h
  | cons v vs ih =>
      cases ws with
      | nil => simp [List.zipIdx_cons, stackRowWords] at h
      | cons w ws =>
          simp only [List.zipIdx_cons, List.flatMap_cons, stackRowWords, List.append_assoc,
            List.append_cancel_left_eq, List.cons_append, List.nil_append, List.cons.injEq,
            true_and, String.toList_inj] at h
          rw [Word.text_injective h.1, ih h.2]

/-- **The stack can be told from its table**, however wide the columns are drawn. -/
theorem stack_eq_of_isLayout {vs ws : List Word} {text : String}
    (h : (stackTable vs).IsLayout text) (h' : (stackTable ws).IsLayout text) : vs = ws := by
  have hrows : ∀ stack : List Word, (stackTable stack).rows.flatMap Text.lineWords =
      stack.zipIdx.flatMap stackRowWords := fun stack => by
    rw [stackTable, List.flatMap_map]
    exact List.flatMap_congr fun p _ => lineWords_stackRow p
  obtain ⟨rule, last, hw⟩ := h.exists_words_eq
  obtain ⟨rule', last', hw'⟩ := h'.exists_words_eq
  rw [hw', hrows, hrows] at hw
  have hrest := (List.cons.inj (List.append_cancel_left hw)).2
  exact (eq_of_stackRowWords_eq (List.append_inj' hrest rfl).1).symm

/-! ### The text of a machine -/

/-- A figure ends at a tab. -/
theorem eq_of_repr_append_eq {n k : Nat} {x y : List Char}
    (h : n.repr.toList ++ '\t' :: x = k.repr.toList ++ '\t' :: y) : n = k ∧ x = y := by
  obtain ⟨hrepr, hrest⟩ := Text.eq_of_append_cons_eq ((isMnemonic_repr n).notMem (by decide))
    ((isMnemonic_repr k).notMem (by decide)) h
  exact ⟨repr_injective (String.toList_inj.mp hrepr), hrest⟩

namespace Machine

/-- The text tells the state: the counter, the number of instructions and the output on a line, and
the stack below it. -/
inductive IsDump (m : Machine) : String → Prop where
  | intro {literal table : String} (hl : Text.IsLiteral m.state.output literal.toList)
      (ht : (stackTable m.state.stack).IsLayout table) :
      IsDump m ("PC: " ++ m.state.pc.repr ++ "\tInstructions: " ++ m.instructions.size.repr
        ++ "\tOutput: " ++ literal ++ "\n" ++ table)

/-- The same is shown of both machines. -/
structure ShowsAs (m m' : Machine) : Prop where
  pc     : m.state.pc = m'.state.pc
  size   : m.instructions.size = m'.instructions.size
  output : m.state.output = m'.state.output
  stack  : m.state.stack = m'.state.stack

variable {m m' : Machine} {text : String}

theorem isDump_text (m : Machine) : m.IsDump m.text :=
  .intro (Text.isLiteral_quoted _) (isLayout_stackText _)

theorem ShowsAs.text_eq (h : m.ShowsAs m') : m.text = m'.text := by
  rw [text, text, h.pc, h.size, h.output, h.stack]

/-- **The parts of a dump stand apart.** -/
theorem IsDump.showsAs (h : m.IsDump text) (h' : m'.IsDump text) : m.ShowsAs m' := by
  generalize ht : text = other at h'
  obtain ⟨hliteral, htable⟩ := h
  obtain ⟨hliteral', htable'⟩ := h'
  have hchars := congrArg String.toList ht
  simp only [String.toList_append, List.append_assoc] at hchars
  obtain ⟨hpc, hchars⟩ := eq_of_repr_append_eq (List.append_cancel_left hchars)
  change "Instructions: ".toList ++ _ = "Instructions: ".toList ++ _ at hchars
  obtain ⟨hsize, hchars⟩ := eq_of_repr_append_eq (List.append_cancel_left hchars)
  change "Output: ".toList ++ _ = "Output: ".toList ++ _ at hchars
  obtain ⟨houtput, hchars⟩ := hliteral.unique hliteral' (List.append_cancel_left hchars)
  obtain rfl := String.toList_inj.mp (List.append_cancel_left hchars)
  exact ⟨hpc, hsize, houtput, stack_eq_of_isLayout htable htable'⟩

/-- **A dump is of one state.**  The texts of two machines are the same exactly if the machines have
the same counter, as many instructions, the same output and the same stack, word by word from its
top; and no text at all is a dump of machines that differ in one of these. -/
theorem text_identifies (m m' : Machine) :
    (m.text = m'.text ↔ m.ShowsAs m') ∧ m.IsDump m.text ∧
      ∀ text, m.IsDump text → m'.IsDump text → m.ShowsAs m' := by
  refine ⟨⟨fun h => ?_, ShowsAs.text_eq⟩, m.isDump_text, fun _ h h' => h.showsAs h'⟩
  exact m.isDump_text.showsAs (h ▸ m'.isDump_text)

/-- A machine whose output looks like the end of one dump and the start of another. -/
def imitating : Machine where
  state := { stack := [22, 11], pc := 3, output := "\"\n │ 7 \nPC: 4\tOutput: \"\\" }

/-- The output is shown on one line, and nothing in it is taken for what it looks like. -/
theorem text_identifies_imitating :
    imitating.text =
      "PC: 3\tInstructions: 13\tOutput: \"\\\"\\n │ 7 \\nPC: 4\\tOutput: \\\"\\\\\"\n" ++
      "         Depth │ Value  \n" ++
      " ──────────────┼─────── \n" ++
      "  * --> S[0] = │ 22     \n" ++
      "        S[1] = │ 11     \n" ++
      " ──────────────┴─────── \n" ∧
    imitating.IsDump imitating.text ∧ IsDump { imitating with debug := true } imitating.text ∧
    imitating.ShowsAs { imitating with debug := true } := by
  have hdump := imitating.isDump_text
  have hdebugged : IsDump { imitating with debug := true } imitating.text := isDump_text _
  obtain ⟨-, -, identifies⟩ := text_identifies imitating { imitating with debug := true }
  exact ⟨by decide +kernel, hdump, hdebugged, identifies _ hdump hdebugged⟩

end Machine

end StackMachine
