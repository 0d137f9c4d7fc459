import StackMachine.Proofs.Lines
import StackMachine.Proofs.Literal
import StackMachine.Proofs.Reachable

/-!
# Proofs — Grammar

The language of the assembler, and its translation.  `Line.Spells set text i`: the text is a line
for the instruction `i`, a mnemonic of the set alone, or with one space and a literal after it.  A
source assembles exactly if each of its lines, less the white space at its end, is empty or spells
an instruction; the code is then the instructions that the lines spell, in their order
(`assemble_eq_ok_iff_spells`).

That a line is cut at each single space costs nothing, since neither mnemonics nor literals have
spaces in them: this is where the set has to be one that registrations can make.
-/

namespace StackMachine

/-- The text is a line for the instruction: a mnemonic alone, or with a space and a literal. -/
inductive Line.Spells (set : InstructionSet) : List Char → Instruction → Prop where
  | bare {m : String} {o : Opcode} (ho : set.opcode? m = some o) : Spells set m.toList ⟨o, 0⟩
  | full {m : String} {o : Opcode} {ds : List Char} {i : Int} (ho : set.opcode? m = some o)
      (hd : Word.Literal ds i) (hi : -2 ^ 63 ≤ i ∧ i ≤ 2 ^ 63 - 1) :
      Spells set (m.toList ++ ' ' :: ds) ⟨o, .ofInt i⟩

theorem IsMnemonic.notMem {m : String} (h : IsMnemonic m) {c : Char}
    (hc : Text.isBlank c = true) : c ∉ m.toList := by
  intro hm
  rw [h.2 c hm] at hc
  cases hc

theorem IsMnemonic.ne_nil {m : String} (h : IsMnemonic m) : m.toList ≠ [] :=
  fun hm => h.1 (by simpa using hm)

/-- Only words can be looked up. -/
theorem InstructionSet.WellFormed.isMnemonic_of_opcode? {set : InstructionSet} (h : set.WellFormed)
    {m : String} {o : Opcode} (ho : set.opcode? m = some o) : IsMnemonic m :=
  h.isMnemonic m (isSome_opcode?_iff.mp (by rw [ho]; rfl))

/-- No range of white space reaches into the digits. -/
theorem Text.isBlank_of_isDigit {c : Char} (h : c.isDigit = true) : isBlank c = false := by
  have hc : 48 ≤ c.toNat ∧ c.toNat ≤ 57 := Char.isDigit_iff_toNat.mp h
  have hr : ∀ r ∈ blankRanges, r.2 < 48 ∨ 57 < r.1 := by decide
  rw [← Bool.not_eq_true, isBlank, Ranges.contains_iff ascending_blankRanges]
  rintro ⟨r, hm, hlo, hhi⟩
  have := hr r hm
  omega

theorem Word.Literal.isBlank_eq_false {ds : List Char} {i : Int} (h : Word.Literal ds i) {c : Char}
    (hc : c ∈ ds) : Text.isBlank c = false := by
  cases h with
  | plain _ hd => exact Text.isBlank_of_isDigit (hd c hc)
  | plus _ hd | minus _ hd =>
      rcases List.mem_cons.mp hc with rfl | hc
      · decide
      · exact Text.isBlank_of_isDigit (hd c hc)

/-- The digits of a number are a word of a line. -/
theorem isMnemonic_repr (n : Nat) : IsMnemonic n.repr := by
  refine ⟨fun h => ?_, fun c hc => Text.isBlank_of_isDigit ?_⟩
  · have hdigits : Nat.toDigits 10 n = [] := by rw [← Nat.toList_repr, h]; rfl
    exact Nat.toDigits_ne_nil hdigits
  · rw [Nat.toList_repr] at hc
    exact Nat.isDigit_of_mem_toDigits (by decide) (by decide) hc

/-- And so is the text of a word. -/
theorem Word.isMnemonic_text (w : Word) : IsMnemonic w.text := by
  obtain ⟨i, hi, -⟩ := ofLiteral?_eq_some_iff.mp (ofLiteral?_text w)
  exact ⟨fun h => hi.ne_nil (by simp [h]), fun c hc => hi.isBlank_eq_false hc⟩

theorem Word.Literal.notMem {ds : List Char} {i : Int} (h : Word.Literal ds i) {c : Char}
    (hc : Text.isBlank c = true) : c ∉ ds := by
  intro hm
  rw [h.isBlank_eq_false hm] at hc
  cases hc

/-! ### One line -/

namespace Line

variable {set : InstructionSet} {l : Line}

theorem opcode_eq_ok_iff {m : String} {o : Opcode} :
    l.opcode set m = .ok o ↔ set.opcode? m = some o := by
  rw [opcode]
  cases set.opcode? m <;> simp

theorem argument_eq_ok_iff {s : String} {w : Word} :
    l.argument s = .ok w ↔ Word.ofLiteral? s = some w := by
  rw [argument]
  cases Word.ofLiteral? s <;> simp

/-- A line of one word. -/
theorem instruction_of_word {m : List Char} (hs : Text.segments ' ' l.text.toList = [m])
    {i : Instruction} :
    l.instruction set = .ok i ↔ ∃ o, set.opcode? (String.ofList m) = some o ∧ i = ⟨o, 0⟩ := by
  simp only [instruction, Text.split, hs, List.map_cons, List.map_nil, ← opcode_eq_ok_iff (l := l)]
  cases l.opcode set (String.ofList m) <;> simp [bind, Except.bind, pure, Except.pure, eq_comm]

/-- A line of two words. -/
theorem instruction_of_words {m w : List Char} (hs : Text.segments ' ' l.text.toList = [m, w])
    {i : Instruction} :
    l.instruction set = .ok i ↔ ∃ o v, set.opcode? (String.ofList m) = some o ∧
      Word.ofLiteral? (String.ofList w) = some v ∧ i = ⟨o, v⟩ := by
  simp only [instruction, Text.split, hs, List.map_cons, List.map_nil, ← opcode_eq_ok_iff (l := l),
    ← argument_eq_ok_iff (l := l)]
  cases l.opcode set (String.ofList m) <;> cases l.argument (String.ofList w) <;>
    simp [bind, Except.bind, pure, Except.pure, eq_comm]

/-- A line of more words. -/
theorem instruction_of_more {m w x : List Char} {ws : List (List Char)}
    (hs : Text.segments ' ' l.text.toList = m :: w :: x :: ws) {i : Instruction} :
    l.instruction set ≠ .ok i := by
  simp [instruction, Text.split, hs]

/-- **A line of the assembler is a line of the grammar.** -/
theorem instruction_eq_ok_iff (h : set.WellFormed) (hne : l.text.toList ≠ [])
    (hend : ∀ c ∈ l.text.toList.getLast?, Text.isBlank c = false) {i : Instruction} :
    l.instruction set = .ok i ↔ Spells set l.text.toList i := by
  constructor
  · intro hi
    -- the last character is no space: the words, with a space after each, are the line and a space
    have hlast : l.text.toList.getLast? ≠ some ' ' := fun hs => absurd (hend ' ' hs) (by decide)
    have hjoin := Text.flatMap_segments_of_getLast?_ne hne hlast
    rcases hs : Text.segments ' ' l.text.toList with _ | ⟨m, _ | ⟨w, _ | ⟨x, ws⟩⟩⟩
    · exact absurd (Text.segments_eq_nil_iff.mp hs) hne
    · obtain ⟨o, ho, rfl⟩ := (instruction_of_word hs).mp hi
      have ht : l.text.toList = m := by simpa [hs] using hjoin.symm
      rw [ht]
      simpa using Spells.bare ho
    · obtain ⟨o, v, ho, hv, rfl⟩ := (instruction_of_words hs).mp hi
      obtain ⟨n, hd, hn, rfl⟩ := Word.ofLiteral?_eq_some_iff.mp hv
      have ht : l.text.toList = m ++ ' ' :: w := by
        rw [hs] at hjoin
        have hcancel : l.text.toList ++ [' '] = (m ++ ' ' :: w) ++ [' '] := by
          simpa using hjoin.symm
        exact List.append_cancel_right hcancel
      rw [ht]
      simpa using Spells.full ho hd hn
    · exact absurd hi (instruction_of_more hs)
  · intro hi
    -- the parts of the line hold no space, so they are its words
    generalize ht : l.text.toList = text at hi
    cases hi with
    | @bare m o ho =>
        have hm := h.isMnemonic_of_opcode? ho
        have hs := Text.segments_of_notMem (hm.notMem (c := ' ') (by decide)) hm.ne_nil
        exact (instruction_of_word (m := m.toList) (by rw [ht, hs])).mpr ⟨o, by simpa using ho, rfl⟩
    | @full m o ds n ho hd hn =>
        have hm := h.isMnemonic_of_opcode? ho
        have hs := Text.segments_append_cons (hm.notMem (c := ' ') (by decide)) ds
        rw [Text.segments_of_notMem (hd.notMem (by decide)) hd.ne_nil] at hs
        refine (instruction_of_words (ht ▸ hs)).mpr ⟨o, _, by simpa using ho, ?_, rfl⟩
        exact Word.ofLiteral?_eq_some_iff.mpr ⟨n, by simpa using hd, hn, rfl⟩

/-- No line for an instruction begins with a space. -/
theorem Spells.head?_ne {text : List Char} {i : Instruction} (hi : Spells set text i)
    (h : set.WellFormed) : text.head? ≠ some ' ' := by
  have hmnemonic : ∀ {m : String} {o : Opcode}, set.opcode? m = some o →
      m.toList.head? ≠ some ' ' := fun ho hs =>
    (h.isMnemonic_of_opcode? ho).notMem (by decide) (List.mem_of_head? hs)
  cases hi with
  | bare ho => exact hmnemonic ho
  | full ho _ _ =>
      rw [List.head?_append_of_ne_nil _ (h.isMnemonic_of_opcode? ho).ne_nil]
      exact hmnemonic ho

end Line

/-! ### A whole source -/

/-- A traversal succeeds exactly if it does so element by element. -/
theorem mapM_eq_ok_iff {α β ε : Type} {f : α → Except ε β} {xs : List α} {ys : List β} :
    xs.mapM f = .ok ys ↔ List.Forall₂ (fun x y => f x = .ok y) xs ys := by
  induction xs generalizing ys with
  | nil => simp [pure, Except.pure, eq_comm]
  | cons x xs ih =>
      rw [List.mapM_cons, List.forall₂_cons_left_iff]
      constructor
      · intro h
        cases hx : f x with
        | error e => simp [hx, bind, Except.bind] at h
        | ok y =>
            cases hxs : xs.mapM f with
            | error e => simp [hx, hxs, bind, Except.bind] at h
            | ok zs =>
                simp only [hx, hxs, bind, Except.bind, pure, Except.pure, Except.ok.injEq] at h
                exact ⟨y, zs, rfl, ih.mp hxs, h.symm⟩
      · rintro ⟨y, zs, hx, hxs, rfl⟩
        simp [hx, ih.mpr hxs, bind, Except.bind, pure, Except.pure]

/-- A traversal fails as the first element that fails. -/
theorem mapM_eq_error_iff {α β ε : Type} {f : α → Except ε β} {xs : List α} {e : ε} :
    xs.mapM f = .error e ↔ ∃ before x after, xs = before ++ x :: after ∧
      (∀ y ∈ before, ∃ z, f y = .ok z) ∧ f x = .error e := by
  induction xs with
  | nil => simp [pure, Except.pure]
  | cons x xs ih =>
      rw [List.mapM_cons]
      constructor
      · intro h
        cases hx : f x with
        | error e' =>
            simp only [hx, bind, Except.bind, Except.error.injEq] at h
            exact ⟨[], x, xs, rfl, nofun, by rw [hx, h]⟩
        | ok y =>
            cases hxs : xs.mapM f with
            | ok ys => simp [hx, hxs, bind, Except.bind, pure, Except.pure] at h
            | error e' =>
                simp only [hx, hxs, bind, Except.bind, Except.error.injEq] at h
                obtain ⟨before, z, after, rfl, hok, hz⟩ := ih.mp (hxs.trans (congrArg _ h))
                refine ⟨x :: before, z, after, rfl, ?_, hz⟩
                exact List.forall_mem_cons.mpr ⟨⟨y, hx⟩, hok⟩
      · rintro ⟨_ | ⟨x', before⟩, z, after, heq, hok, hz⟩
        · cases heq
          simp [hz, bind, Except.bind]
        · rw [List.cons_append, List.cons.injEq] at heq
          obtain ⟨rfl, rfl⟩ := heq
          obtain ⟨⟨y, hy⟩, hok⟩ := List.forall_mem_cons.mp hok
          have hrest := ih.mpr ⟨before, z, after, rfl, hok, hz⟩
          simp only [hy, hrest, bind, Except.bind]

theorem forall₂_congr_of_mem {α β : Type} {R S : α → β → Prop} {xs : List α} {ys : List β}
    (h : ∀ x ∈ xs, ∀ y, R x y ↔ S x y) : List.Forall₂ R xs ys ↔ List.Forall₂ S xs ys := by
  induction xs generalizing ys with
  | nil => simp
  | cons x xs ih =>
      simp only [List.forall₂_cons_left_iff, h x List.mem_cons_self,
        ih fun z hz => h z (List.mem_cons_of_mem x hz)]

namespace InstructionSet

variable {set : InstructionSet} {source : String}

/-- The code is what the lines stand for, in their order. -/
theorem assemble_eq_ok_iff_forall₂ {code : Code} :
    set.assemble source = .ok code ↔
      List.Forall₂ (fun l i => l.instruction set = .ok i) (Line.ofSource source) code.toList := by
  rw [← mapM_eq_ok_iff, assemble]
  cases (Line.ofSource source).mapM fun l => l.instruction set with
  | error e => simp [bind, Except.bind]
  | ok is =>
      simp only [bind, Except.bind, pure, Except.pure, Except.ok.injEq]
      exact ⟨fun hc => by rw [← hc], fun hc => by rw [hc]⟩

/-- The fault is that of the first line that stands for nothing. -/
theorem assemble_eq_error_iff {f : Fault} :
    set.assemble source = .error f ↔ ∃ before l after,
      Line.ofSource source = before ++ l :: after ∧
      (∀ k ∈ before, ∃ i, k.instruction set = .ok i) ∧ l.instruction set = .error f := by
  rw [← mapM_eq_error_iff, assemble]
  cases (Line.ofSource source).mapM fun l => l.instruction set <;>
    simp [bind, Except.bind, pure, Except.pure]

/-- **The assembler translates its grammar.** -/
theorem WellFormed.assemble_eq_ok_iff (h : set.WellFormed) {code : Code} :
    set.assemble source = .ok code ↔
      List.Forall₂ (Line.Spells set) ((lines source).filter (· ≠ [])) code.toList := by
  rw [assemble_eq_ok_iff_forall₂, ← Line.map_text_ofSource, List.forall₂_map_left_iff]
  refine forall₂_congr_of_mem fun l hl i => ?_
  obtain ⟨hne, hend⟩ := Line.mem_ofSource hl
  exact Line.instruction_eq_ok_iff h hne hend

end InstructionSet

theorem exists_forall₂_iff {α β : Type} {R : α → β → Prop} {xs : List α} :
    (∃ ys, List.Forall₂ R xs ys) ↔ ∀ x ∈ xs, ∃ y, R x y := by
  induction xs with
  | nil => simp
  | cons x xs ih =>
      rw [List.forall_mem_cons, ← ih]
      constructor
      · rintro ⟨_, _ | ⟨hy, hys⟩⟩
        exact ⟨⟨_, hy⟩, _, hys⟩
      · rintro ⟨⟨y, hy⟩, ys, hys⟩
        exact ⟨y :: ys, .cons hy hys⟩

/-- The sources that assemble are those whose lines are empty or in the grammar. -/
theorem InstructionSet.WellFormed.exists_assemble_iff {set : InstructionSet} (h : set.WellFormed)
    {source : String} :
    (∃ code, set.assemble source = .ok code) ↔
      ∀ line ∈ lines source, line = [] ∨ ∃ i, Line.Spells set line i := by
  have hcode : (∃ code, set.assemble source = .ok code) ↔
      ∃ is, List.Forall₂ (Line.Spells set) ((lines source).filter (· ≠ [])) is := by
    simp only [h.assemble_eq_ok_iff]
    exact ⟨fun ⟨code, hc⟩ => ⟨code.toList, hc⟩, fun ⟨is, hi⟩ => ⟨is.toArray, hi⟩⟩
  rw [hcode, exists_forall₂_iff]
  simp only [List.mem_filter, decide_eq_true_eq, and_imp, or_iff_not_imp_left]

/-- **The assembler accepts exactly its grammar and translates it exactly**: for a set that
registrations can make, a source assembles if and only if each of its lines, less the white space at
its end, is empty or spells an instruction, and the code is what the lines that are not empty spell,
in their order.  A line that begins with a space spells none, and each line the assembler goes over
has a first word. -/
theorem assemble_eq_ok_iff_spells {P : Action → Prop} {set : InstructionSet} (h : set.Reachable P)
    (source : String) :
    ((∃ code, set.assemble source = .ok code) ↔
      ∀ line ∈ lines source, line = [] ∨ ∃ i, Line.Spells set line i) ∧
    (∀ code, set.assemble source = .ok code ↔
      List.Forall₂ (Line.Spells set) ((lines source).filter (· ≠ [])) code.toList) ∧
    (∀ line ∈ lines source, line.head? = some ' ' → ∀ code, set.assemble source ≠ .ok code) ∧
    ∀ l ∈ Line.ofSource source, Text.split l.text ' ' ≠ [] := by
  have hset := h.wellFormed
  refine ⟨hset.exists_assemble_iff, fun code => hset.assemble_eq_ok_iff, ?_, ?_⟩
  · intro line hl hs code hc
    rcases hset.exists_assemble_iff.mp ⟨code, hc⟩ line hl with rfl | ⟨i, hi⟩
    · cases hs
    · exact hi.head?_ne hset hs
  · intro l hl hs
    rw [Text.split, List.map_eq_nil_iff, Text.segments_eq_nil_iff] at hs
    exact (Line.mem_ofSource hl).1 hs

/-- The standard instructions and one whose name is a number. -/
def numbered : InstructionSet :=
  ⟨InstructionSet.standard.entries.push ⟨"7", Routine.action [.halt]⟩⟩

theorem reachable_numbered : numbered.Reachable fun _ => True :=
  .register .standard trivial (InstructionSet.register_of_notMem _ (by decide) (by decide))

theorem assemble_numbered :
    numbered.Reachable (fun _ => True) ∧
    numbered.assemble "LOAD_CONST +007 \r\n\n7 -7\nEXIT" = .ok #[⟨1, 7⟩, ⟨13, -7⟩, ⟨2, 0⟩] := by
  refine ⟨reachable_numbered, ((assemble_eq_ok_iff_spells reachable_numbered _).2.1 _).mpr ?_⟩
  have hl : (lines "LOAD_CONST +007 \r\n\n7 -7\nEXIT").filter (· ≠ []) =
      ["LOAD_CONST +007".toList, "7 -7".toList, "EXIT".toList] := by decide
  rw [hl]
  have opcodes : numbered.opcode? "LOAD_CONST" = some 1 ∧ numbered.opcode? "7" = some 13 ∧
      numbered.opcode? "EXIT" = some 2 := by
    simp only [InstructionSet.opcode?_eq]
    decide
  have literals : Word.Literal ['+', '0', '0', '7'] 7 ∧ Word.Literal ['-', '7'] (-7) := by
    simp only [← Word.integer?_eq_some_iff]
    decide
  exact .cons (.full opcodes.1 literals.1 (by decide))
    (.cons (.full opcodes.2.1 literals.2 (by decide)) (.cons (.bare opcodes.2.2) .nil))

end StackMachine
