import StackMachine.Proofs.Listed

/-!
# Proofs — Recovery

A listing can be told from its text.  A mnemonic may be any word, a vertical bar or a rule just as
well, so that neither the bars of a row nor the width of its columns tell where a cell ends.  But
each of its three cells is one word, and with the bars between them a row is five
(`Listing.Row.lineWords_cells`).  The words of the text, but for those of the titles and the two
rules, are thus those of the rows, five by five, and no two listings have them in common
(`Listing.rows_eq_of_isLayout`).

In a complete listing, the rows say what the instructions are, for a mnemonic has one opcode.
-/

namespace StackMachine

/-- Blocks of one length stand apart in a row of them. -/
theorem map_eq_map_of_flatMap_eq {α β : Type} {f : α → List β} {k : Nat} (hk : k ≠ 0)
    (hf : ∀ x, (f x).length = k) {xs ys : List α} (h : xs.flatMap f = ys.flatMap f) :
    xs.map f = ys.map f := by
  have hne : ∀ x, f x ≠ [] := fun x hx => hk (by rw [← hf x, hx, List.length_nil])
  induction xs generalizing ys with
  | nil =>
      cases ys with
      | nil => rfl
      | cons y ys => exact absurd (List.append_eq_nil_iff.mp h.symm).1 (hne y)
  | cons x xs ih =>
      cases ys with
      | nil => exact absurd (List.append_eq_nil_iff.mp h).1 (hne x)
      | cons y ys =>
          obtain ⟨hfirst, hrest⟩ := List.append_inj h ((hf x).trans (hf y).symm)
          rw [List.map_cons, List.map_cons, hfirst, ih hrest]

/-! ### The words of a row -/

theorem repr_injective {n k : Nat} (h : n.repr = k.repr) : n = k := by
  have hdigits : Nat.toDigits 10 n = Nat.toDigits 10 k := by
    rw [← Nat.toList_repr, ← Nat.toList_repr, h]
  exact Option.some.inj
    (by rw [← Word.decimal?_toDigits n, hdigits, Word.decimal?_toDigits k])

theorem Word.text_injective {v w : Word} (h : v.text = w.text) : v = w :=
  Option.some.inj (by rw [← ofLiteral?_text v, h, ofLiteral?_text w])

theorem IsMnemonic.words_eq {m : String} (h : IsMnemonic m) : Text.words m.toList = [m.toList] :=
  Text.words_eq_singleton h.ne_nil h.2

/-- A mnemonic has one opcode. -/
theorem InstructionSet.WellFormed.opcode_unique {set : InstructionSet} (h : set.WellFormed)
    {m : String} {o o' : Opcode} (ho : set.mnemonic? o = some m) (ho' : set.mnemonic? o' = some m) :
    o = o' := by
  rw [mnemonic?_eq] at ho ho'
  have hlt : o.toNat < set.mnemonics.length := (List.getElem?_eq_some_iff.mp ho).1
  exact UInt32.toNat_inj.mp ((List.getElem?_inj hlt h.nodup).mp (ho.trans ho'.symm))

namespace Listing

/-- The words of a row: its cells and the bars between them. -/
def Row.words (r : Row) : List (List Char) :=
  [r.pc.repr.toList, ['│'], r.mnemonic.toList, ['│'], r.argument.text.toList]

theorem Row.lineWords_cells {r : Row} (h : IsMnemonic r.mnemonic) :
    Text.lineWords r.cells = r.words := by
  rw [Text.lineWords, cells, List.map_cons, List.map_cons, List.map_cons,
    (isMnemonic_repr _).words_eq, h.words_eq, r.argument.isMnemonic_text.words_eq]
  rfl

theorem Row.words_injective (r r' : Row) (h : r.words = r'.words) : r = r' := by
  obtain ⟨pc, m, w⟩ := r
  obtain ⟨pc', m', w'⟩ := r'
  simp only [words, List.cons.injEq, String.toList_inj, true_and, and_true] at h
  obtain ⟨hpc, rfl, hw⟩ := h
  rw [repr_injective hpc, Word.text_injective hw]

/-! ### The text of a listing -/

variable {set : InstructionSet} {l l' : Listing} {text : String}

/-- **The rows can be told from the text**, however wide its columns are drawn. -/
theorem rows_eq_of_isLayout (hl : ∀ r ∈ l.rows, IsMnemonic r.mnemonic)
    (hl' : ∀ r ∈ l'.rows, IsMnemonic r.mnemonic) (h : l.table.IsLayout text)
    (h' : l'.table.IsLayout text) : l.rows = l'.rows := by
  have hrows : ∀ {l : Listing}, (∀ r ∈ l.rows, IsMnemonic r.mnemonic) →
      l.table.rows.flatMap Text.lineWords = l.rows.flatMap Row.words := fun {l} hl => by
    rw [table, List.flatMap_map]
    exact List.flatMap_congr fun r hr => Row.lineWords_cells (hl r hr)
  obtain ⟨rule, last, hw⟩ := h.exists_words_eq
  obtain ⟨rule', last', hw'⟩ := h'.exists_words_eq
  -- the titles are the same, and each rule is one word
  rw [hw', hrows hl, hrows hl'] at hw
  have hrest := (List.cons.inj (List.append_cancel_left hw)).2
  have hblocks := (List.append_inj' hrest rfl).1
  have hmap := map_eq_map_of_flatMap_eq (k := 5) (by decide) (fun _ => rfl) hblocks.symm
  exact (List.map_inj_right Row.words_injective).mp hmap

/-- A complete listing is of one code. -/
theorem Complete.code_eq (h : set.WellFormed) {code other : Code} (hc : Complete set code l)
    (ho : Complete set other l) : code = other := by
  have hsize : code.size = other.size := hc.length.symm.trans ho.length
  refine Array.ext hsize fun k hk hk' => ?_
  obtain ⟨m, hm, hrow⟩ := hc.row k code[k] (Array.getElem?_eq_getElem hk)
  obtain ⟨m', hm', hrow'⟩ := ho.row k other[k] (Array.getElem?_eq_getElem hk')
  obtain ⟨-, rfl, hargument⟩ := Row.mk.inj (Option.some.inj (hrow.symm.trans hrow'))
  have hopcode := h.opcode_unique hm hm'
  generalize code[k] = i, other[k] = j at hopcode hargument
  cases i
  cases j
  exact congrArg₂ _ hopcode hargument

/-- Codes that can be listed to their ends have no layout in common, unless they are the same. -/
theorem code_eq_of_isLayout (h : set.WellFormed) {c d : Code}
    (hc : ∀ i ∈ c, (set.mnemonic? i.opcode).isSome) (hd : ∀ i ∈ d, (set.mnemonic? i.opcode).isSome)
    (ht : (ofCode set c).table.IsLayout text) (ht' : (ofCode set d).table.IsLayout text) :
    c = d := by
  have hrows := rows_eq_of_isLayout (fun _ => isMnemonic_of_mem_rows h)
    (fun _ => isMnemonic_of_mem_rows h) ht ht'
  have hcomplete := complete_ofCode hd
  have hlisting : ofCode set c = ofCode set d :=
    congrArg₂ Listing.mk hrows ((complete_ofCode hc).unknown.trans hcomplete.unknown.symm)
  exact (hlisting ▸ complete_ofCode hc).code_eq h hcomplete

end Listing

theorem InstructionSet.disassemble_eq_some_iff {set : InstructionSet} {code : Code}
    {text : String} :
    set.disassemble code = some text ↔
      (∀ i ∈ code, (set.mnemonic? i.opcode).isSome) ∧ (Listing.ofCode set code).text = text := by
  rw [← Listing.unknown_ofCode_eq_none_iff, disassemble]
  cases (Listing.ofCode set code).unknown <;> simp

/-- **A disassembly identifies its code.**  For a set that registrations can make, whatever words
its mnemonics are, the codes whose opcodes it knows are those that are disassembled, and no two of
them to one text.  Nor have the tables of two such codes a layout in common, however many blanks
bring its cells to the widths of their columns. -/
theorem disassemble_identifies {P : Action → Prop} {set : InstructionSet} (h : set.Reachable P)
    (c d : Code) :
    ((∃ text, set.disassemble c = some text) ↔ ∀ i ∈ c, (set.mnemonic? i.opcode).isSome) ∧
    (∀ text, set.disassemble c = some text → set.disassemble d = some text → c = d) ∧
    ((∀ i ∈ c, (set.mnemonic? i.opcode).isSome) → (∀ i ∈ d, (set.mnemonic? i.opcode).isSome) →
      ∀ text, (Listing.ofCode set c).table.IsLayout text →
        (Listing.ofCode set d).table.IsLayout text → c = d) := by
  have hidentifies (hc : ∀ i ∈ c, (set.mnemonic? i.opcode).isSome)
      (hd : ∀ i ∈ d, (set.mnemonic? i.opcode).isSome) (text : String) :
      (Listing.ofCode set c).table.IsLayout text → (Listing.ofCode set d).table.IsLayout text →
        c = d := Listing.code_eq_of_isLayout h.wellFormed hc hd
  simp only [InstructionSet.disassemble_eq_some_iff]
  refine ⟨by simp, ?_, hidentifies⟩
  rintro text ⟨hc, rfl⟩ ⟨hd, ht⟩
  exact hidentifies hc hd _ (Listing.isLayout_text _) (ht ▸ Listing.isLayout_text _)

/-- The standard instructions and one whose name is a bar. -/
def barred : InstructionSet :=
  ⟨InstructionSet.standard.entries.push ⟨"│", Routine.action [.halt]⟩⟩

theorem reachable_barred : barred.Reachable fun _ => True :=
  .register .standard trivial (InstructionSet.register_of_notMem _ (by decide) (by decide))

/-- The bar in the second column is the mnemonic. -/
theorem disassemble_identifies_bar :
    barred.Reachable (fun _ => True) ∧
    ∀ code, barred.disassemble code = some
        ("  PC │ Instruction │ Argument  \n" ++
         " ────┼─────────────┼────────── \n" ++
         "   0 │ │           │       -1  \n" ++
         " ────┴─────────────┴────────── \n") →
      code = #[⟨13, -1⟩] := by
  refine ⟨reachable_barred, fun code hcode => ?_⟩
  obtain ⟨-, identifies, -⟩ := disassemble_identifies reachable_barred code #[⟨13, -1⟩]
  exact identifies _ hcode (by decide +kernel)

end StackMachine
