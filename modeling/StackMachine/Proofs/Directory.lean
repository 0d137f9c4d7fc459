import StackMachine.Proofs.Registration

/-!
# Proofs — Directory

An instruction set in three stores: a table from mnemonics to opcodes, the same table from opcodes
to mnemonics, and the actions in the order of their opcodes.  Each registration writes to all three,
and a pair put into the table drives out those that share a side with it, so that nothing in the
stores themselves keeps them aligned.  What does is that only new mnemonics get so far, and that
opcodes do not wrap.

A directory stands for a list of entries (`Directory.Represents`).  One call keeps it so
(`Represents.call`), and with it any history of calls; hence all that a directory answers is what
the instruction set answers (`register_histories`).
-/

namespace StackMachine

/-- The pairs of mnemonics and opcodes, by either side, and the actions. -/
structure Directory where
  opcode?   : String → Option Opcode
  mnemonic? : Opcode → Option String
  actions   : Array Action

namespace Directory

/-- No instructions. -/
def empty : Directory := ⟨fun _ => none, fun _ => none, #[]⟩

/-- A pair in the table, which drives out the pairs with its mnemonic or its opcode. -/
def insert (d : Directory) (m : String) (o : Opcode) : Directory where
  opcode? k   := if k = m then some o else if d.mnemonic? o = some k then none else d.opcode? k
  mnemonic? p := if p = o then some m else if d.opcode? m = some p then none else d.mnemonic? p
  actions     := d.actions

/-- An entry in all stores, and the opcode it received; its mnemonic is not looked at. -/
def install (d : Directory) (e : Entry) : Opcode × Directory :=
  let o := .ofNat d.actions.size
  (o, { d.insert e.mnemonic o with actions := d.actions.push e.action })

/-- The answer to a call for an entry, and the directory after it. -/
def call (d : Directory) (e : Entry) : Except Fault Opcode × Directory :=
  if ¬ IsMnemonic e.mnemonic then (.error (.invalidMnemonic e.mnemonic), d)
  else if (d.opcode? e.mnemonic).isSome then (.error (.duplicateMnemonic e.mnemonic), d)
  else
    let (o, d) := d.install e
    (.ok o, d)

/-- The entries installed one after another. -/
def installed (d : Directory) (es : List Entry) : Directory :=
  es.foldl (fun d e => (d.install e).2) d

/-- The directory after the calls. -/
def after (d : Directory) (calls : List Entry) : Directory :=
  calls.foldl (fun d e => (d.call e).2) d

/-- The standard instructions. -/
def standard : Directory := empty.installed (Builtin.all.map Builtin.entry)

/-- The action of an opcode. -/
def action? (d : Directory) (o : Opcode) : Option Action := d.actions[o.toNat]?

/-- The mnemonics that are found under the opcodes from zero on, as many as there are actions. -/
def toList (d : Directory) : List (Opcode × String) :=
  ((List.range (UInt32.ofNat d.actions.size).toNat).map UInt32.ofNat).filterMap fun o =>
    (d.mnemonic? o).map fun m => (o, m)

/-- The directory answers as the set does. -/
structure Represents (d : Directory) (set : InstructionSet) : Prop where
  opcode?_eq   : ∀ m, d.opcode? m = set.opcode? m
  mnemonic?_eq : ∀ o, d.mnemonic? o = set.mnemonic? o
  actions_eq   : d.actions = set.entries.map Entry.action

namespace Represents

variable {d : Directory} {set : InstructionSet} {e : Entry} {es calls : List Entry}

theorem size_eq (h : d.Represents set) : d.actions.size = set.size := by
  rw [h.actions_eq, Array.size_map, InstructionSet.size]

theorem action?_eq (h : d.Represents set) (o : Opcode) : d.action? o = set.action? o := by
  rw [action?, h.actions_eq, Array.getElem?_map]
  rfl

theorem empty : empty.Represents .empty :=
  ⟨by simp [Directory.empty, InstructionSet.empty, InstructionSet.opcode?], fun _ => rfl,
    by simp [Directory.empty, InstructionSet.empty]⟩

/-- **An entry whose mnemonic is new drives nothing out.** -/
theorem install (h : d.Represents set) (hs : set.size < 2 ^ 32) (hd : e.mnemonic ∉ set.mnemonics) :
    (d.install e).1 = .ofNat set.size ∧ (d.install e).2.Represents ⟨set.entries.push e⟩ := by
  have hm : d.opcode? e.mnemonic = none := by
    rw [h.opcode?_eq]
    exact Option.not_isSome_iff_eq_none.mp (mt InstructionSet.isSome_opcode?_iff.mp hd)
  have ho : d.mnemonic? (.ofNat set.size) = none := by
    rw [h.mnemonic?_eq, InstructionSet.mnemonic?_ofNat_size hs]
  rw [Directory.install, h.size_eq]
  refine ⟨rfl, fun m => ?_, fun o => ?_, ?_⟩
  · simp only [insert, ho, h.opcode?_eq, InstructionSet.opcode?_push hd]
    simp
  · simp only [insert, hm, h.mnemonic?_eq, InstructionSet.mnemonic?_push hs]
    simp
  · simp [h.actions_eq]

/-- **One call is answered alike**, and the directory stands for the set after it. -/
theorem call (h : d.Represents set) (hs : (set.call e).2.size < 2 ^ 32) :
    (d.call e).1 = (set.call e).1 ∧ (d.call e).2.Represents (set.call e).2 := by
  have hc := set.answers_call e
  generalize set.call e = c at hc hs ⊢
  cases hc with
  | invalid hm =>
      rw [Directory.call, if_pos hm]
      exact ⟨rfl, h⟩
  | duplicate hm hd =>
      rw [Directory.call, if_neg (not_not.mpr hm), h.opcode?_eq,
        if_pos (InstructionSet.isSome_opcode?_iff.mpr hd)]
      exact ⟨rfl, h⟩
  | accepted hm hd =>
      rw [Directory.call, if_neg (not_not.mpr hm), h.opcode?_eq,
        if_neg (mt InstructionSet.isSome_opcode?_iff.mp hd)]
      obtain ⟨ho, hd'⟩ := h.install ((set.extends_push e).size_lt hs) hd
      exact ⟨congrArg _ ho, hd'⟩

theorem after (h : d.Represents set) (hs : (set.after calls).size < 2 ^ 32) :
    (d.after calls).Represents (set.after calls) := by
  induction calls generalizing d set with
  | nil => exact h
  | cons e calls ih =>
      exact ih (h.call (((set.call e).2.extends_after calls).size_lt hs)).2 hs

theorem installed (h : d.Represents set) (hs : set.size + es.length ≤ 2 ^ 32)
    (hd : (set.mnemonics ++ es.map Entry.mnemonic).Nodup) :
    (d.installed es).Represents ⟨set.entries ++ es.toArray⟩ := by
  induction es generalizing d set with
  | nil => simpa [Directory.installed] using h
  | cons e es ih =>
      obtain ⟨hne, hd⟩ := InstructionSet.notMem_of_nodup hd
      rw [List.length_cons] at hs
      have hi := ih (h.install (by omega) hne).2
        (by simp only [InstructionSet.size, Array.size_push] at hs ⊢; omega) hd
      simpa [Directory.installed] using hi

/-- The standard mnemonics are distinct, so none of the unchecked entries is lost. -/
theorem standard : standard.Represents .standard :=
  empty.installed (by decide) InstructionSet.wellFormed_standard.nodup

/-- The list finds each opcode again, and nothing else. -/
theorem toList_eq (h : d.Represents set) (ha : set.Aligned) (hs : set.size < 2 ^ 32) :
    d.toList = set.toList := by
  rw [toList, h.size_eq, UInt32.toNat_ofNat_of_lt' hs, ← ha.opcodes, List.filterMap_map,
    List.filterMap_congr (g := some), List.filterMap_some]
  intro p hp
  rw [Function.comp_apply, h.mnemonic?_eq, ha.mnemonics p hp]
  rfl

end Represents

/-- What a history begins with, and the entries that are there by then. -/
inductive Begins : InstructionSet → Directory → List Entry → Prop where
  | empty : Begins .empty .empty []
  | standard : Begins .standard .standard (Builtin.all.map Builtin.entry)

theorem Begins.represents {set : InstructionSet} {d : Directory} {first : List Entry}
    (h : Begins set d first) : d.Represents set := by
  cases h with
  | empty => exact .empty
  | standard => exact .standard

theorem Begins.eq_after {set : InstructionSet} {d : Directory} {first : List Entry}
    (h : Begins set d first) : set = .after .empty first := by
  cases h with
  | empty => rfl
  | standard => exact InstructionSet.standard_eq_after

end Directory

/-- **The stores stay aligned through every history.**

Whatever calls are made on an empty or the standard set, as long as opcodes do not wrap: the
registrations that succeeded, the standard ones included, received the opcodes from zero on, in
order, and their entries are the set; its look-ups agree with one another; each call, now and for
good, is settled as its mnemonic and the mnemonics before it say; and three separate stores, written
one by one, answer the same throughout. -/
theorem register_histories {start : InstructionSet} {d : Directory} {first : List Entry}
    (h : Directory.Begins start d first) (calls : List Entry)
    (hs : (start.after calls).size < 2 ^ 32) :
    let last := start.after calls
    let made := InstructionSet.empty.accepted (first ++ calls)
    last = .after .empty (first ++ calls) ∧
    made.map Prod.fst = (List.range last.size).map UInt32.ofNat ∧
    made.map Prod.snd = last.entries.toList ∧
    last.Aligned ∧
    (∀ before e later, first ++ calls = before ++ e :: later →
      (InstructionSet.empty.after before).Settled e last) ∧
    (d.after calls).Represents last ∧ (∀ o, (d.after calls).action? o = last.action? o) ∧
    (d.after calls).toList = last.toList ∧
    ∀ before e later, calls = before ++ e :: later →
      ((d.after before).call e).1 = ((start.after before).call e).1 := by
  intro last made
  have hlast : last = .after .empty (first ++ calls) := by
    rw [InstructionSet.after_append, ← h.eq_after]
  have hw : last.WellFormed := by
    rw [hlast]
    exact (InstructionSet.Reachable.empty.after (P := fun _ => True) (by simp)).wellFormed
  have hmade : made.map Prod.snd = last.entries.toList := by
    rw [hlast, InstructionSet.entries_after]
    rfl
  have hrep := h.represents.after hs
  refine ⟨hlast, ?_, hmade, hw.aligned hs, ?_, hrep, hrep.action?_eq,
    hrep.toList_eq (hw.aligned hs) hs, ?_⟩
  · rw [InstructionSet.map_fst_accepted, List.range_eq_range', hlast, InstructionSet.size_after,
      InstructionSet.size_empty, Nat.zero_add]
  · intro before e later hsplit
    refine InstructionSet.settled ?_ hw hs
    rw [hlast, hsplit, InstructionSet.after_append, InstructionSet.after_cons]
    exact InstructionSet.extends_after _ later
  · rintro before e later rfl
    rw [InstructionSet.after_append, InstructionSet.after_cons] at hs
    have hlt := (InstructionSet.extends_after _ later).size_lt hs
    have hnow := (InstructionSet.extends_call _ e).size_lt hlt
    exact ((h.represents.after hnow).call hlt).1

/-- Five calls on the standard set, of which the first and the last are accepted. -/
theorem register_histories_standard :
    let calls : List Entry := [⟨"NIP", Builtin.pop.action⟩, ⟨"ADD", Builtin.pop.action⟩,
      ⟨"A B", Builtin.pop.action⟩, ⟨"NIP", Builtin.dup.action⟩, ⟨"TWIN", Builtin.dup.action⟩]
    let last := InstructionSet.standard.after calls
    last.size = 15 ∧ last.Aligned ∧ last.opcode? "NIP" = some 13 ∧
      last.action? 13 = some Builtin.pop.action ∧
      (Directory.standard.after calls).toList = last.toList := by
  intro calls last
  have hsize : last.size = 15 := by decide +kernel
  obtain ⟨-, -, -, haligned, hsettled, -, -, hlist, -⟩ :=
    register_histories .standard calls (by rw [hsize]; decide)
  have hcall : ((InstructionSet.empty.after (Builtin.all.map Builtin.entry)).call
      ⟨"NIP", Builtin.pop.action⟩).1 = .ok 13 := by
    rw [← InstructionSet.standard_eq_after]
    decide +kernel
  obtain ⟨-, hopcode, haction⟩ := (hsettled _ _ _ rfl).accepted 13 hcall
  exact ⟨hsize, haligned, hopcode, haction, hlist⟩

end StackMachine
