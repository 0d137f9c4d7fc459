import StackMachine.Proofs.Grammar
import StackMachine.Proofs.Numbered
import StackMachine.Proofs.Reading

/-!
# Proofs — Diagnosis

What is wrong with a line, and which line of a source is reported.  `Line.Diagnosis set n t f`: line
`n`, which reads `t`, is bad, and the fault says what is wrong with it.  A line with two spaces or
more has too many words, whatever they are; otherwise its first word may be none that the set knows,
whatever follows it; otherwise the word after the space may be no literal.

A source fails to assemble exactly if one of its lines is bad, and the fault is the diagnosis of the
first that is (`assemble_eq_error_iff_first`).
-/

namespace StackMachine

/-- What is wrong with the line of this number and text; there is nothing wrong with a blank one. -/
inductive Line.Diagnosis (set : InstructionSet) (n : Nat) (t : List Char) : Fault → Prop where
  | tooMany (h : 2 ≤ t.count ' ') :
      Diagnosis set n t (.malformedInstruction n (.ofList t)
        ("expected at most one argument but found " ++ (t.count ' ').repr))
  | unknown {m : List Char} (hne : t ≠ []) (h : t.count ' ' < 2) (hm : m = t.takeWhile (· ≠ ' '))
      (ho : set.opcode? (.ofList m) = none) :
      Diagnosis set n t (.unknownInstruction (.ofList m) n)
  | argument {m w : List Char} (ht : t = m ++ ' ' :: w) (hm : ' ' ∉ m) (hw : ' ' ∉ w)
      (ho : (set.opcode? (.ofList m)).isSome) (hl : ¬ Word.IsLiteral w) :
      Diagnosis set n t (.malformedInstruction n (.ofList t)
        ("`" ++ .ofList w ++ "` is not a 64 bit integer"))

/-! ### The words of a line -/

/-- One more segment than delimiters, where none stands at the end. -/
theorem Text.length_segments {d : Char} {cs : List Char} (hne : cs ≠ [])
    (hend : cs.getLast? ≠ some d) : (segments d cs).length = cs.count d + 1 := by
  have hsegment : ∀ seg ∈ segments d cs, (seg ++ [d]).count d = 1 := by
    intro seg hseg
    rw [List.count_append, List.count_eq_zero_of_not_mem (not_mem_of_mem_segments hseg)]
    simp
  have hcount := congrArg (List.count d) (flatMap_segments_of_getLast?_ne hne hend)
  rw [List.count_flatMap, Function.comp_def, List.map_congr_left hsegment,
    List.count_append] at hcount
  simpa using hcount

theorem Text.takeWhile_ne_eq_self {d : Char} {a : List Char} (h : d ∉ a) :
    a.takeWhile (· ≠ d) = a :=
  List.takeWhile_eq_self_iff.mpr fun c hc => decide_eq_true fun (e : c = d) => h (e ▸ hc)

theorem Text.takeWhile_ne_append_cons {d : Char} {a : List Char} (h : d ∉ a) (b : List Char) :
    (a ++ d :: b).takeWhile (· ≠ d) = a := by
  rw [List.takeWhile_append_of_pos (List.takeWhile_eq_self_iff.mp (takeWhile_ne_eq_self h)),
    List.takeWhile_cons_of_neg (by simp), List.append_nil]

namespace Line

variable {set : InstructionSet} {l : Line} {f : Fault}

/-- The words of a line, by the number of its spaces. -/
theorem words_cases (hne : l.text.toList ≠ []) (hend : l.text.toList.getLast? ≠ some ' ') :
    (' ' ∉ l.text.toList ∧ l.words = .ok (l.text, .ok 0)) ∨
    (∃ m w, l.text.toList = m ++ ' ' :: w ∧ ' ' ∉ m ∧ ' ' ∉ w ∧
      l.words = .ok (.ofList m, l.argument (.ofList w))) ∨
    (2 ≤ l.text.toList.count ' ' ∧ l.words = .error
      (.malformedInstruction l.number l.text (tooManyArguments (l.text.toList.count ' ')))) := by
  have hjoin := Text.flatMap_segments_of_getLast?_ne hne hend
  have hlength := Text.length_segments hne hend
  have hwords : ∀ seg ∈ Text.segments ' ' l.text.toList, ' ' ∉ seg :=
    fun _ => Text.not_mem_of_mem_segments
  rw [words, Text.split]
  generalize Text.segments ' ' l.text.toList = segs at hjoin hlength hwords ⊢
  rcases segs with _ | ⟨m, _ | ⟨w, _ | ⟨x, ws⟩⟩⟩
  · cases hlength
  · have ht : l.text.toList = m := by simpa using hjoin.symm
    refine .inl ⟨ht ▸ hwords m List.mem_cons_self, ?_⟩
    rw [← ht]
    simp
  · have ht : l.text.toList = m ++ ' ' :: w := by
      have hcancel : l.text.toList ++ [' '] = (m ++ ' ' :: w) ++ [' '] := by
        simpa using hjoin.symm
      exact List.append_cancel_right hcancel
    exact .inr (.inl ⟨m, w, ht, hwords m (by simp), hwords w (by simp), rfl⟩)
  · have hcount : l.text.toList.count ' ' = ws.length + 2 := by simpa using hlength.symm
    refine .inr (.inr ⟨by omega, ?_⟩)
    simp [hcount]

theorem argument_eq_error_iff {w : List Char} :
    l.argument (.ofList w) = .error f ↔ ¬ Word.IsLiteral w ∧
      f = .malformedInstruction l.number l.text (notAnInteger (.ofList w)) := by
  have hliteral := Word.isSome_ofLiteral?_iff (s := .ofList w)
  rw [String.toList_ofList] at hliteral
  rw [← hliteral, argument]
  cases Word.ofLiteral? (.ofList w) <;> simp [eq_comm]

/-- Once the words are told apart, the first has to be known and the second has to have a value. -/
theorem instruction_eq_error_of_words {m : String} {a : Except Fault Word}
    (hw : l.words = .ok (m, a)) :
    l.instruction set = .error f ↔
      set.opcode? m = none ∧ f = .unknownInstruction m l.number ∨
      (set.opcode? m).isSome ∧ a = .error f := by
  rw [instruction_eq, hw]
  simp only [bind, Except.bind, opcode]
  cases set.opcode? m with
  | none => simp [eq_comm]
  | some o => cases a <;> simp [Except.map]

/-! ### The diagnosis of a line -/

namespace Diagnosis

variable {n : Nat} {t m w : List Char}

theorem ne_nil (h : Diagnosis set n t f) : t ≠ [] := by
  cases h with
  | tooMany h =>
      rintro rfl
      cases h
  | unknown hne _ _ _ => exact hne
  | argument ht _ _ _ _ => simp [ht]

theorem iff_of_word (ht : ' ' ∉ t) (hne : t ≠ []) :
    Diagnosis set n t f ↔
      set.opcode? (.ofList t) = none ∧ f = .unknownInstruction (.ofList t) n := by
  have hcount : t.count ' ' = 0 := List.count_eq_zero_of_not_mem ht
  have hfirst : t.takeWhile (· ≠ ' ') = t := Text.takeWhile_ne_eq_self ht
  constructor
  · intro h
    cases h with
    | tooMany h => omega
    | unknown _ _ hm ho =>
        obtain rfl := hm.trans hfirst
        exact ⟨ho, rfl⟩
    | argument h _ _ _ _ => simp [h] at ht
  · rintro ⟨ho, rfl⟩
    exact .unknown hne (by omega) hfirst.symm ho

theorem iff_of_words (ht : t = m ++ ' ' :: w) (hm : ' ' ∉ m) (hw : ' ' ∉ w) :
    Diagnosis set n t f ↔
      set.opcode? (.ofList m) = none ∧ f = .unknownInstruction (.ofList m) n ∨
      (set.opcode? (.ofList m)).isSome ∧
        ¬ Word.IsLiteral w ∧
        f = .malformedInstruction n (.ofList t) (notAnInteger (.ofList w)) := by
  have hcount : t.count ' ' = 1 := by
    simp [ht, List.count_eq_zero_of_not_mem hm, List.count_eq_zero_of_not_mem hw]
  have hfirst : t.takeWhile (· ≠ ' ') = m := ht ▸ Text.takeWhile_ne_append_cons hm w
  constructor
  · intro h
    cases h with
    | tooMany h => omega
    | unknown _ _ hk ho =>
        obtain rfl := hk.trans hfirst
        exact .inl ⟨ho, rfl⟩
    | @argument k v hk hspace _ ho hl =>
        -- the first space of a line is at one place only
        obtain rfl : k = m := by rw [← hfirst, hk, Text.takeWhile_ne_append_cons hspace]
        obtain rfl : v = w := by simpa [hk] using ht
        exact .inr ⟨ho, hl, rfl⟩
  · rintro (⟨ho, rfl⟩ | ⟨ho, hl, rfl⟩)
    · exact .unknown (by simp [ht]) (by omega) hfirst.symm ho
    · exact .argument ht hm hw ho hl

theorem iff_of_more (ht : 2 ≤ t.count ' ') :
    Diagnosis set n t f ↔
      f = .malformedInstruction n (.ofList t) (tooManyArguments (t.count ' ')) := by
  constructor
  · intro h
    cases h with
    | tooMany => rfl
    | unknown _ h _ _ => omega
    | argument h hm hw _ _ =>
        rw [h] at ht
        simp [List.count_eq_zero_of_not_mem hm, List.count_eq_zero_of_not_mem hw] at ht
  · rintro rfl
    exact .tooMany ht

end Diagnosis

/-- **What is reported of a line is its diagnosis.** -/
theorem instruction_eq_error_iff (hne : l.text.toList ≠ [])
    (hend : l.text.toList.getLast? ≠ some ' ') :
    l.instruction set = .error f ↔ Diagnosis set l.number l.text.toList f := by
  rcases words_cases hne hend with ⟨ht, hw⟩ | ⟨m, w, ht, hm, hspace, hw⟩ | ⟨hcount, hw⟩
  · rw [instruction_eq_error_of_words hw, Diagnosis.iff_of_word ht hne]
    simp
  · rw [instruction_eq_error_of_words hw, Diagnosis.iff_of_words ht hm hspace,
      argument_eq_error_iff, String.ofList_toList]
  · rw [instruction_eq_iff.mpr (.malformed hw), Diagnosis.iff_of_more hcount, String.ofList_toList,
      Except.error.injEq, eq_comm]

/-- Among the lines of a source, those that the assembler cannot read are the bad ones. -/
theorem exists_mem_ofSource_iff {source : String} {n : Nat} :
    (∃ l ∈ ofSource source, l.number = n ∧ l.instruction set = .error f) ↔
      ∃ t, LineAt source n t ∧ Diagnosis set n t f := by
  have hiff : ∀ l ∈ ofSource source,
      (l.instruction set = .error f ↔ Diagnosis set l.number l.text.toList f) := by
    intro l hl
    obtain ⟨hne, hend⟩ := mem_ofSource hl
    exact instruction_eq_error_iff hne fun h => absurd (hend ' ' h) (by decide)
  constructor
  · rintro ⟨l, hl, rfl, h⟩
    exact ⟨_, (mem_ofSource_iff.mp hl).1, (hiff l hl).mp h⟩
  · rintro ⟨t, ht, hd⟩
    have hl : (⟨n, .ofList t⟩ : Line) ∈ ofSource source :=
      mem_ofSource_iff.mpr (by simpa using ⟨ht, hd.ne_nil⟩)
    exact ⟨_, hl, rfl, (hiff _ hl).mpr (by simpa using hd)⟩

end Line

/-! ### The first bad line -/

namespace InstructionSet

variable {set : InstructionSet} {source : String} {f : Fault}

theorem exists_assemble_error_iff :
    (∃ f, set.assemble source = .error f) ↔
      ∃ l ∈ Line.ofSource source, ∃ f, l.instruction set = .error f := by
  constructor
  · rintro ⟨f, h⟩
    obtain ⟨before, l, after, hsource, -, hl⟩ := assemble_eq_error_iff.mp h
    exact ⟨l, by simp [hsource], f, hl⟩
  · rintro ⟨l, hmem, f, hl⟩
    cases ha : set.assemble source with
    | error g => exact ⟨g, rfl⟩
    | ok code =>
        obtain ⟨i, hi⟩ := exists_forall₂_iff.mp ⟨_, assemble_eq_ok_iff_forall₂.mp ha⟩ l hmem
        rw [hl] at hi
        cases hi

/-- The fault is that of the line with the least number among those that stand for nothing. -/
theorem assemble_eq_error_iff_least :
    set.assemble source = .error f ↔
      ∃ l ∈ Line.ofSource source, l.instruction set = .error f ∧
        ∀ k ∈ Line.ofSource source, k.number < l.number → ∀ g, k.instruction set ≠ .error g := by
  have hordered := Line.pairwise_number source
  rw [assemble_eq_error_iff]
  constructor
  · rintro ⟨before, l, after, hsource, hbefore, hl⟩
    refine ⟨l, by simp [hsource], hl, fun k hk hlt g hg => ?_⟩
    rw [hsource, List.pairwise_append, List.pairwise_cons] at hordered
    rw [hsource, List.mem_append, List.mem_cons] at hk
    rcases hk with hk | rfl | hk
    · obtain ⟨i, hi⟩ := hbefore k hk
      rw [hg] at hi
      cases hi
    · exact absurd hlt (Nat.lt_irrefl _)
    · exact absurd hlt (Nat.lt_asymm (hordered.2.1.1 k hk))
  · rintro ⟨l, hmem, hl, hleast⟩
    obtain ⟨before, after, hsource⟩ := List.mem_iff_append.mp hmem
    refine ⟨before, l, after, hsource, fun k hk => ?_, hl⟩
    rw [hsource] at hordered
    have hlt : k.number < l.number :=
      (List.pairwise_append.mp hordered).2.2 k hk l List.mem_cons_self
    cases hk' : k.instruction set with
    | ok i => exact ⟨i, rfl⟩
    | error g => exact absurd hk' (hleast k (by simp [hsource, hk]) hlt g)

end InstructionSet

/-- **The assembler reports the first bad line, and what is wrong with it.**  A source does not
assemble exactly if some line of it is bad, and the fault is then the diagnosis of a bad line that
has no bad line before it. -/
theorem assemble_eq_error_iff_first (set : InstructionSet) (source : String) :
    ((∃ f, set.assemble source = .error f) ↔
      ∃ n t f, LineAt source n t ∧ Line.Diagnosis set n t f) ∧
    ∀ f, set.assemble source = .error f ↔
      ∃ n t, LineAt source n t ∧ Line.Diagnosis set n t f ∧
        ∀ k < n, ∀ u g, LineAt source k u → ¬ Line.Diagnosis set k u g := by
  constructor
  · rw [InstructionSet.exists_assemble_error_iff]
    constructor
    · rintro ⟨l, hl, f, hf⟩
      obtain ⟨t, h⟩ := Line.exists_mem_ofSource_iff.mp ⟨l, hl, rfl, hf⟩
      exact ⟨_, t, f, h⟩
    · rintro ⟨n, t, f, h⟩
      obtain ⟨l, hl, -, hf⟩ := Line.exists_mem_ofSource_iff.mpr ⟨t, h⟩
      exact ⟨l, hl, f, hf⟩
  · intro f
    rw [InstructionSet.assemble_eq_error_iff_least]
    constructor
    · rintro ⟨l, hl, hf, hleast⟩
      obtain ⟨t, ht, hd⟩ := Line.exists_mem_ofSource_iff.mp ⟨l, hl, rfl, hf⟩
      refine ⟨_, t, ht, hd, fun k hk u g hu hg => ?_⟩
      obtain ⟨l', hl', rfl, hg'⟩ := Line.exists_mem_ofSource_iff.mpr ⟨u, hu, hg⟩
      exact hleast l' hl' hk g hg'
    · rintro ⟨n, t, ht, hd, hleast⟩
      obtain ⟨l, hl, rfl, hf⟩ := Line.exists_mem_ofSource_iff.mpr ⟨t, ht, hd⟩
      refine ⟨l, hl, hf, fun k hk hlt g hg => ?_⟩
      obtain ⟨u, hu, hd'⟩ := Line.exists_mem_ofSource_iff.mp ⟨k, hk, rfl, hg⟩
      exact hleast _ hlt u g hu hd'

/-- A line that begins with a space has an empty first word, and blank lines are counted. -/
example : InstructionSet.standard.assemble "PRINT\n\n PRINT\nPRINT 1 2" =
    .error (.unknownInstruction "" 3) := by decide +kernel

end StackMachine
