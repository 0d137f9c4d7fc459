import Mathlib.Algebra.Group.Nat.Defs
import Mathlib.Data.List.Nodup
import StackMachine.InstructionSet

/-!
# Proofs — Reachable

The instruction sets that a history of registrations can make, from no instructions or from the
standard ones, with every registered action in a given class.  Two facts hold of the mnemonics of
each of them: all are words of a line, and no two are equal (`InstructionSet.WellFormed`).  Opcodes
are places in the list of mnemonics, so that, as long as opcodes do not wrap, the two look-ups are
inverse to each other (`WellFormed.opcode?_eq_some_iff`).
-/

namespace StackMachine

namespace InstructionSet

/-- The mnemonics in the order of their opcodes. -/
def mnemonics (set : InstructionSet) : List String := set.entries.toList.map Entry.mnemonic

theorem length_mnemonics (set : InstructionSet) : set.mnemonics.length = set.size := by
  simp [mnemonics, size]

theorem size_empty : empty.size = 0 := rfl

theorem opcode?_eq (set : InstructionSet) (m : String) :
    set.opcode? m = (set.mnemonics.findIdx? (· == m)).map UInt32.ofNat := by
  obtain ⟨⟨es⟩⟩ := set
  rw [opcode?, mnemonics, List.findIdx?_map, List.findIdx?_toArray]
  rfl

theorem mnemonic?_eq (set : InstructionSet) (o : Opcode) :
    set.mnemonic? o = set.mnemonics[o.toNat]? := by
  rw [mnemonic?, entry?, mnemonics, List.getElem?_map, Array.getElem?_toList]

theorem mnemonics_push (set : InstructionSet) (e : Entry) :
    mnemonics ⟨set.entries.push e⟩ = set.mnemonics ++ [e.mnemonic] := by
  simp [mnemonics]

theorem isSome_opcode?_iff {set : InstructionSet} {m : String} :
    (set.opcode? m).isSome ↔ m ∈ set.mnemonics := by
  simp [opcode?_eq, List.findIdx?_isSome]

/-- A registration that succeeds adds one entry at the end. -/
theorem register_eq_ok {set set' : InstructionSet} {m : String} {a : Action} {o : Opcode}
    (h : set.register m a = .ok (o, set')) :
    IsMnemonic m ∧ m ∉ set.mnemonics ∧ o = UInt32.ofNat set.size ∧
      set' = ⟨set.entries.push ⟨m, a⟩⟩ := by
  rw [register] at h
  split at h
  · cases h
  · rename_i hm
    split at h
    · cases h
    · rename_i hd
      cases h
      exact ⟨not_not.mp hm, fun hmem => hd (isSome_opcode?_iff.mpr hmem), rfl, rfl⟩

theorem register_of_notMem {set : InstructionSet} {m : String} (a : Action) (hm : IsMnemonic m)
    (hd : m ∉ set.mnemonics) :
    set.register m a = .ok (UInt32.ofNat set.size, ⟨set.entries.push ⟨m, a⟩⟩) := by
  rw [register, if_neg (not_not.mpr hm), if_neg (mt isSome_opcode?_iff.mp hd)]

/-- Made from no instructions or the standard ones by registrations of actions in `P`. -/
inductive Reachable (P : Action → Prop) : InstructionSet → Prop where
  | empty : Reachable P empty
  | standard : Reachable P standard
  | register {set set' : InstructionSet} {m : String} {a : Action} {o : Opcode}
      (h : Reachable P set) (ha : P a) (hr : set.register m a = .ok (o, set')) : Reachable P set'

/-- Every mnemonic is a word, and none is given twice. -/
structure WellFormed (set : InstructionSet) : Prop where
  isMnemonic : ∀ m ∈ set.mnemonics, IsMnemonic m
  nodup      : set.mnemonics.Nodup

theorem wellFormed_standard : standard.WellFormed :=
  ⟨by decide, by decide⟩

theorem WellFormed.register {set set' : InstructionSet} {m : String} {a : Action} {o : Opcode}
    (h : set.WellFormed) (hr : set.register m a = .ok (o, set')) : set'.WellFormed := by
  obtain ⟨hm, hd, -, rfl⟩ := register_eq_ok hr
  have he : mnemonics ⟨set.entries.push ⟨m, a⟩⟩ = set.mnemonics ++ [m] := set.mnemonics_push _
  refine ⟨fun k hk => ?_, ?_⟩
  · rw [he, List.mem_append, List.mem_singleton] at hk
    rcases hk with hk | rfl
    · exact h.isMnemonic k hk
    · exact hm
  · rw [he]
    exact List.nodup_append.mpr ⟨h.nodup, List.nodup_singleton m,
      fun k hk l hl => by rw [List.mem_singleton.mp hl]; rintro rfl; exact hd hk⟩

variable {P : Action → Prop} {set : InstructionSet}

theorem Reachable.wellFormed (h : Reachable P set) : set.WellFormed := by
  induction h with
  | empty =>
      have hm : mnemonics InstructionSet.empty = [] := rfl
      exact ⟨by simp [hm], by simp [hm]⟩
  | standard => exact wellFormed_standard
  | register _ _ hr ih => exact ih.register hr

theorem Reachable.mono {Q : Action → Prop} (h : Reachable P set) (hPQ : ∀ a, P a → Q a) :
    Reachable Q set := by
  induction h with
  | empty => exact .empty
  | standard => exact .standard
  | register _ ha hr ih => exact .register ih (hPQ _ ha) hr

/-- A class that has the standard actions and the registered ones has all actions of the set. -/
theorem Reachable.action (h : Reachable P set) (hb : ∀ b : Builtin, P b.action) {o : Opcode}
    {a : Action} (ha : set.action? o = some a) : P a := by
  suffices hall : ∀ e ∈ set.entries, P e.action by
    rw [action?, entry?, Option.map_eq_some_iff] at ha
    obtain ⟨e, he, rfl⟩ := ha
    exact hall e (Array.mem_of_getElem? he)
  clear ha
  -- registration adds one entry, and its action is in the class
  induction h with
  | empty => simp [InstructionSet.empty]
  | standard =>
      intro e he
      simp only [InstructionSet.standard, List.mem_toArray, List.mem_map] at he
      obtain ⟨b, -, rfl⟩ := he
      exact hb b
  | register _ ha hr ih =>
      obtain ⟨-, -, -, rfl⟩ := register_eq_ok hr
      intro e he
      rcases Array.mem_push.mp he with he | rfl
      · exact ih e he
      · exact ha

/-- An action of the set is a registered one or a standard one. -/
theorem Reachable.action_cases (h : Reachable P set) {o : Opcode} {a : Action}
    (ha : set.action? o = some a) : P a ∨ ∃ b : Builtin, a = b.action :=
  (h.mono (Q := fun a => P a ∨ ∃ b : Builtin, a = b.action) fun _ => .inl).action
    (fun b => .inr ⟨b, rfl⟩) ha

/-- The actions of the standard set are the standard actions. -/
theorem exists_builtin_of_action? {o : Opcode} {a : Action} (ha : standard.action? o = some a) :
    ∃ b : Builtin, a = b.action :=
  (Reachable.standard.action_cases (P := fun _ => False) ha).resolve_left False.elim

theorem toNat_ofNat_of_lt_size (hs : set.size < 2 ^ 32) {i : Nat}
    (hi : i < set.mnemonics.length) : (UInt32.ofNat i).toNat = i :=
  UInt32.toNat_ofNat_of_lt' (by rw [length_mnemonics] at hi; simp only [UInt32.size]; omega)

/-- **The two look-ups are inverse to each other.** -/
theorem WellFormed.opcode?_eq_some_iff (h : set.WellFormed) (hs : set.size < 2 ^ 32) {m : String}
    {o : Opcode} : set.opcode? m = some o ↔ set.mnemonic? o = some m := by
  rw [opcode?_eq, mnemonic?_eq, Option.map_eq_some_iff]
  constructor
  · rintro ⟨i, hi, rfl⟩
    obtain ⟨hlt, hm, -⟩ := List.findIdx?_eq_some_iff_getElem.mp hi
    rw [toNat_ofNat_of_lt_size hs hlt, List.getElem?_eq_getElem hlt, eq_of_beq hm]
  · intro hm
    obtain ⟨hlt, hm⟩ := List.getElem?_eq_some_iff.mp hm
    refine ⟨o.toNat, List.findIdx?_eq_some_iff_getElem.mpr ⟨hlt, by simp [hm], ?_⟩, by simp⟩
    -- an earlier place with the same mnemonic would be this one
    intro j hj he
    have := h.nodup.getElem_inj_iff.mp ((eq_of_beq he).trans hm.symm)
    omega

end InstructionSet

end StackMachine
