import StackMachine.Proofs.Reachable
import StackMachine.Session

/-!
# Proofs — Registration

Histories of registrations, refused ones included.  A call asks for an entry; it is answered with
the entry's opcode or with a fault, and leaves a set (`InstructionSet.call`).  There are three
answers (`answers_call`), and all else is read off them: a set begins with the entries of every set
before it (`Extends`), so that nothing an opcode was given is ever taken back, and its entries are
those of the calls that were accepted, in their order, with the opcodes counted up (`entries_after`,
`map_fst_accepted`).
-/

namespace StackMachine

/-- The entry of a standard instruction. -/
def Builtin.entry (b : Builtin) : Entry := ⟨b.mnemonic, b.action⟩

namespace InstructionSet

variable {set set' set'' : InstructionSet} {e : Entry} {calls : List Entry}

/-! ### Larger sets -/

/-- The larger set begins with the entries of the smaller. -/
def Extends (set set' : InstructionSet) : Prop := set.entries.toList <+: set'.entries.toList

namespace Extends

theorem refl (set : InstructionSet) : set.Extends set := List.prefix_refl _

theorem trans (h : set.Extends set') (h' : set'.Extends set'') : set.Extends set'' :=
  List.IsPrefix.trans h h'

/-- An entry stays the entry of its opcode. -/
theorem entry?_eq (h : set.Extends set') {o : Opcode} (he : set.entry? o = some e) :
    set'.entry? o = some e := by
  unfold entry? at he ⊢
  rw [← Array.getElem?_toList] at he ⊢
  obtain ⟨es, h⟩ := h
  rw [← h, List.getElem?_append_left (List.getElem?_eq_some_iff.mp he).1, he]

theorem action?_eq (h : set.Extends set') {o : Opcode} {a : Action}
    (ha : set.action? o = some a) : set'.action? o = some a := by
  rw [action?, Option.map_eq_some_iff] at ha ⊢
  obtain ⟨e, he, rfl⟩ := ha
  exact ⟨e, h.entry?_eq he, rfl⟩

theorem mnemonic?_eq (h : set.Extends set') {o : Opcode} {m : String}
    (hm : set.mnemonic? o = some m) : set'.mnemonic? o = some m := by
  rw [mnemonic?, Option.map_eq_some_iff] at hm ⊢
  obtain ⟨e, he, rfl⟩ := hm
  exact ⟨e, h.entry?_eq he, rfl⟩

/-- A mnemonic stays that of its opcode, whatever is put behind it. -/
theorem opcode?_eq (h : set.Extends set') {m : String} {o : Opcode}
    (ho : set.opcode? m = some o) : set'.opcode? m = some o := by
  obtain ⟨es, h⟩ := h
  rw [InstructionSet.opcode?_eq, Option.map_eq_some_iff] at ho ⊢
  obtain ⟨i, hi, rfl⟩ := ho
  refine ⟨i, ?_, rfl⟩
  rw [mnemonics, ← h, List.map_append, List.findIdx?_append, ← mnemonics, hi]
  rfl

theorem size_lt (h : set.Extends set') {n : Nat} (hs : set'.size < n) : set.size < n :=
  Nat.lt_of_le_of_lt (List.IsPrefix.length_le h) hs

end Extends

theorem extends_push (set : InstructionSet) (e : Entry) : set.Extends ⟨set.entries.push e⟩ :=
  ⟨[e], by rw [Array.toList_push]⟩

/-- The next opcode has no mnemonic yet. -/
theorem mnemonic?_ofNat_size (hs : set.size < 2 ^ 32) : set.mnemonic? (.ofNat set.size) = none := by
  rw [mnemonic?_eq, UInt32.toNat_ofNat_of_lt' hs]
  exact List.getElem?_eq_none (Nat.le_of_eq set.length_mnemonics)

theorem entry?_push (hs : set.size < 2 ^ 32) (o : Opcode) :
    entry? ⟨set.entries.push e⟩ o = if o = .ofNat set.size then some e else set.entry? o := by
  have ho : o = .ofNat set.size ↔ o.toNat = set.entries.size := by
    rw [← UInt32.toNat_inj, UInt32.toNat_ofNat_of_lt' hs]
    rfl
  simp only [Array.getElem?_push, entry?, ho]

theorem mnemonic?_push (hs : set.size < 2 ^ 32) (o : Opcode) :
    mnemonic? ⟨set.entries.push e⟩ o =
      if o = .ofNat set.size then some e.mnemonic else set.mnemonic? o := by
  rw [mnemonic?, mnemonic?, entry?_push hs, apply_ite (Option.map Entry.mnemonic)]
  rfl

theorem opcode?_push (hd : e.mnemonic ∉ set.mnemonics) (m : String) :
    opcode? ⟨set.entries.push e⟩ m =
      if m = e.mnemonic then some (.ofNat set.size) else set.opcode? m := by
  rw [opcode?_eq, opcode?_eq, mnemonics_push, List.findIdx?_append]
  split
  · rename_i hm
    subst hm
    rw [List.findIdx?_eq_none_iff.mpr (fun k hk => by simp; rintro rfl; exact hd hk)]
    simp [length_mnemonics]
  · rename_i hm
    simp [List.findIdx?_cons, Ne.symm hm]

theorem register_extends {m : String} {a : Action} {o : Opcode}
    (h : set.register m a = .ok (o, set')) : set.Extends set' := by
  obtain ⟨-, -, -, rfl⟩ := register_eq_ok h
  exact set.extends_push _

/-! ### One call -/

/-- The answer to a call for an entry, and the set after it. -/
def call (set : InstructionSet) (e : Entry) : Except Fault Opcode × InstructionSet :=
  match set.register e.mnemonic e.action with
  | .ok (o, set') => (.ok o, set')
  | .error f      => (.error f, set)

/-- The answers that there are to a call.  One that is refused changes nothing. -/
inductive Answers (set : InstructionSet) (e : Entry) :
    Except Fault Opcode × InstructionSet → Prop where
  | invalid (hm : ¬ IsMnemonic e.mnemonic) :
      Answers set e (.error (.invalidMnemonic e.mnemonic), set)
  | duplicate (hm : IsMnemonic e.mnemonic) (hd : e.mnemonic ∈ set.mnemonics) :
      Answers set e (.error (.duplicateMnemonic e.mnemonic), set)
  | accepted (hm : IsMnemonic e.mnemonic) (hd : e.mnemonic ∉ set.mnemonics) :
      Answers set e (.ok (.ofNat set.size), ⟨set.entries.push e⟩)

theorem call_of_notMem (hm : IsMnemonic e.mnemonic) (hd : e.mnemonic ∉ set.mnemonics) :
    set.call e = (.ok (.ofNat set.size), ⟨set.entries.push e⟩) := by
  rw [call, register_of_notMem e.action hm hd]

theorem answers_call (set : InstructionSet) (e : Entry) : set.Answers e (set.call e) := by
  by_cases hm : IsMnemonic e.mnemonic
  · by_cases hd : e.mnemonic ∈ set.mnemonics
    · rw [call, register, if_neg (not_not.mpr hm), if_pos (isSome_opcode?_iff.mpr hd)]
      exact .duplicate hm hd
    · rw [call_of_notMem hm hd]
      exact .accepted hm hd
  · rw [call, register, if_pos hm]
    exact .invalid hm

theorem extends_call (set : InstructionSet) (e : Entry) : set.Extends (set.call e).2 := by
  have h := set.answers_call e
  generalize set.call e = c at h ⊢
  cases h with
  | invalid | duplicate => exact .refl set
  | accepted => exact set.extends_push e

theorem Reachable.call {P : Action → Prop} (h : Reachable P set) (he : P e.action) :
    Reachable P (set.call e).2 := by
  have hc := set.answers_call e
  generalize set.call e = c at hc ⊢
  cases hc with
  | invalid | duplicate => exact h
  | accepted hm hd => exact .register h he (register_of_notMem e.action hm hd)

/-! ### Histories -/

/-- The set after the calls. -/
def after (set : InstructionSet) (calls : List Entry) : InstructionSet :=
  calls.foldl (fun set e => (set.call e).2) set

/-- The opcodes that the calls are answered with, and the entry of each; refusals are left out. -/
def accepted (set : InstructionSet) : List Entry → List (Opcode × Entry)
  | []         => []
  | e :: calls =>
    match set.call e with
    | (.ok o, set')    => (o, e) :: set'.accepted calls
    | (.error _, set') => set'.accepted calls

@[simp] theorem after_nil (set : InstructionSet) : set.after [] = set := rfl

@[simp] theorem after_cons (set : InstructionSet) (e : Entry) (calls : List Entry) :
    set.after (e :: calls) = (set.call e).2.after calls := rfl

theorem after_append (set : InstructionSet) (calls calls' : List Entry) :
    set.after (calls ++ calls') = (set.after calls).after calls' := List.foldl_append

theorem extends_after (set : InstructionSet) (calls : List Entry) :
    set.Extends (set.after calls) := by
  induction calls generalizing set with
  | nil => exact .refl set
  | cons e calls ih => exact (set.extends_call e).trans (ih _)

theorem Reachable.after {P : Action → Prop} (h : Reachable P set)
    (hP : ∀ e ∈ calls, P e.action) : Reachable P (set.after calls) := by
  induction calls generalizing set with
  | nil => exact h
  | cons e calls ih =>
      rw [List.forall_mem_cons] at hP
      exact ih (h.call hP.1) hP.2

/-- **The entries are those of the accepted calls**, after those that were there. -/
theorem entries_after (set : InstructionSet) (calls : List Entry) :
    (set.after calls).entries.toList =
      set.entries.toList ++ (set.accepted calls).map Prod.snd := by
  induction calls generalizing set with
  | nil => simp [accepted]
  | cons e calls ih =>
      rw [after_cons, accepted]
      have hc := set.answers_call e
      generalize set.call e = c at hc ⊢
      cases hc with
      | invalid | duplicate => exact ih set
      | accepted => simp [ih]

theorem size_after (set : InstructionSet) (calls : List Entry) :
    (set.after calls).size = set.size + (set.accepted calls).length := by
  simp only [size, ← Array.length_toList, entries_after, List.length_append, List.length_map]

/-- **The opcodes are counted up** from the number of entries that were there. -/
theorem map_fst_accepted (set : InstructionSet) (calls : List Entry) :
    (set.accepted calls).map Prod.fst =
      (List.range' set.size (set.accepted calls).length).map UInt32.ofNat := by
  induction calls generalizing set with
  | nil => rfl
  | cons e calls ih =>
      rw [accepted]
      have hc := set.answers_call e
      generalize set.call e = c at hc ⊢
      cases hc with
      | invalid | duplicate => exact ih set
      | accepted => simp [ih, size, List.range'_succ]

/-- Of mnemonics that are all new, the first is new, and so are the others after it. -/
theorem notMem_of_nodup (hd : (set.mnemonics ++ (e :: calls).map Entry.mnemonic).Nodup) :
    e.mnemonic ∉ set.mnemonics ∧
      (mnemonics ⟨set.entries.push e⟩ ++ calls.map Entry.mnemonic).Nodup := by
  constructor
  · exact fun h => (List.nodup_append.mp hd).2.2 _ h _ (List.mem_map_of_mem List.mem_cons_self) rfl
  · rwa [mnemonics_push, List.append_assoc]

/-- Words that are all new are all accepted. -/
theorem after_of_nodup (hm : ∀ e ∈ calls, IsMnemonic e.mnemonic)
    (hd : (set.mnemonics ++ calls.map Entry.mnemonic).Nodup) :
    set.after calls = ⟨set.entries ++ calls.toArray⟩ := by
  induction calls generalizing set with
  | nil => simp
  | cons e calls ih =>
      rw [List.forall_mem_cons] at hm
      obtain ⟨hne, hd⟩ := notMem_of_nodup hd
      rw [after_cons, call_of_notMem hm.1 hne, ih hm.2 hd]
      simp

/-- The standard set is what calls for its entries make. -/
theorem standard_eq_after : standard = empty.after (Builtin.all.map Builtin.entry) := by
  have hm : (Builtin.all.map Builtin.entry).map Entry.mnemonic = standard.mnemonics := rfl
  rw [after_of_nodup]
  · rfl
  · intro e he
    exact wellFormed_standard.isMnemonic _ (hm ▸ List.mem_map_of_mem he)
  · exact hm ▸ wellFormed_standard.nodup

/-! ### What every history keeps -/

/-- The look-ups of a set agree with one another and with its size. -/
structure Aligned (set : InstructionSet) : Prop where
  inverse    : ∀ m o, set.opcode? m = some o ↔ set.mnemonic? o = some m
  named_iff  : ∀ o, (set.mnemonic? o).isSome ↔ o.toNat < set.size
  bound_iff  : ∀ o, (set.action? o).isSome ↔ o.toNat < set.size
  isMnemonic : ∀ o m, set.mnemonic? o = some m → IsMnemonic m
  /-- The list has each opcode once, in order, and its mnemonic with it. -/
  opcodes    : set.toList.map Prod.fst = (List.range set.size).map UInt32.ofNat
  mnemonics  : ∀ p ∈ set.toList, set.mnemonic? p.1 = some p.2

theorem WellFormed.aligned (h : set.WellFormed) (hs : set.size < 2 ^ 32) : set.Aligned where
  inverse _ _ := h.opcode?_eq_some_iff hs
  named_iff o := by simp [mnemonic?, entry?, size]
  bound_iff o := by simp [action?, entry?, size]
  isMnemonic o m hm := by
    rw [mnemonic?_eq] at hm
    exact h.isMnemonic m (List.mem_of_getElem? hm)
  opcodes := by
    rw [toList, List.map_map, List.range_eq_range', size, ← Array.length_toList,
      ← List.zipIdx_map_snd, List.map_map]
    rfl
  mnemonics := by
    intro p hp
    rw [toList, List.mem_map] at hp
    obtain ⟨⟨e, i⟩, hi, rfl⟩ := hp
    rw [List.mem_zipIdx_iff_getElem?] at hi
    have hlt : i < set.size := by
      simpa [size] using (List.getElem?_eq_some_iff.mp hi).1
    rw [mnemonic?, entry?, ← Array.getElem?_toList,
      UInt32.toNat_ofNat_of_lt' (Nat.lt_trans hlt hs), hi]
    rfl

/-- How a call for `e` is answered in a set that is `last` after all further calls. -/
structure Settled (set : InstructionSet) (e : Entry) (last : InstructionSet) : Prop where
  invalid_iff   : (set.call e).1 = .error (.invalidMnemonic e.mnemonic) ↔
    e.mnemonic = "" ∨ ∃ c ∈ e.mnemonic.toList, Text.isBlank c = true
  duplicate_iff : (set.call e).1 = .error (.duplicateMnemonic e.mnemonic) ↔
    ¬ (e.mnemonic = "" ∨ ∃ c ∈ e.mnemonic.toList, Text.isBlank c = true) ∧
      (set.opcode? e.mnemonic).isSome
  /-- There are no other refusals, and none changes the set. -/
  refused       : ∀ f, (set.call e).1 = .error f → (set.call e).2 = set ∧
    (f = .invalidMnemonic e.mnemonic ∨ f = .duplicateMnemonic e.mnemonic)
  /-- The mnemonic and the action of an accepted call stay those of its opcode. -/
  accepted      : ∀ o, (set.call e).1 = .ok o → set.opcode? e.mnemonic = none ∧
    last.opcode? e.mnemonic = some o ∧ last.action? o = some e.action

theorem not_isMnemonic_iff {m : String} :
    ¬ IsMnemonic m ↔ m = "" ∨ ∃ c ∈ m.toList, Text.isBlank c = true := by
  simp only [IsMnemonic, not_and_or, ne_eq, not_not, not_forall, Bool.not_eq_false, exists_prop]

theorem settled {last : InstructionSet} (h : (set.call e).2.Extends last) (hw : last.WellFormed)
    (hs : last.size < 2 ^ 32) : set.Settled e last := by
  have hc := set.answers_call e
  generalize hcall : set.call e = c at hc h
  cases hc with
  | invalid hm =>
      exact {
        invalid_iff := by simpa [hcall] using not_isMnemonic_iff.mp hm
        duplicate_iff := by simp [hcall, ← not_isMnemonic_iff, hm]
        refused := by simp [hcall]
        accepted := by simp [hcall] }
  | duplicate hm hd =>
      exact {
        invalid_iff := by simp [hcall, ← not_isMnemonic_iff, hm]
        duplicate_iff := by simp [hcall, ← not_isMnemonic_iff, hm, isSome_opcode?_iff, hd]
        refused := by simp [hcall]
        accepted := by simp [hcall] }
  | accepted hm hd =>
      have hlt : set.size < 2 ^ 32 := (set.extends_push e).size_lt (h.size_lt hs)
      have hentry : last.entry? (.ofNat set.size) = some e :=
        h.entry?_eq (by rw [entry?_push hlt, if_pos rfl])
      exact {
        invalid_iff := by simp [hcall, ← not_isMnemonic_iff, hm]
        duplicate_iff := by simp [hcall, isSome_opcode?_iff, hd]
        refused := by simp [hcall]
        accepted := by
          rw [hcall]
          rintro _ ⟨⟩
          refine ⟨Option.not_isSome_iff_eq_none.mp (mt isSome_opcode?_iff.mp hd), ?_, ?_⟩
          · rw [hw.opcode?_eq_some_iff hs, mnemonic?, hentry]
            rfl
          · rw [action?, hentry]
            rfl }

end InstructionSet

/-- Each registration in a session is a call, and touches nothing but the set. -/
theorem Session.perform_register (patience : Nat) (s : Session) (m : String) (body : Routine) :
    let r := s.perform patience (.register m body)
    let c := s.machine.instructions.call ⟨m, body.action⟩
    r.result = c.1.map .opcode ∧
      r.session = { s with machine := { s.machine with instructions := c.2 } } := by
  simp only [perform, Machine.register, InstructionSet.call]
  cases s.machine.instructions.register m body.action <;> exact ⟨rfl, rfl⟩

end StackMachine
