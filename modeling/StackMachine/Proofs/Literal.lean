import Mathlib.Algebra.Group.Int.Defs
import Mathlib.Algebra.Group.Nat.Defs
import StackMachine.Word

/-!
# Proofs — Literal

The grammar of literals, `[+-]?[0-9]+`, with the integer that each stands for by the places of its
digits.  `Word.ofLiteral?_eq_some_iff`: a text is read as a word exactly if it is a literal for an
integer of 64 bits, and the word is that integer.
-/

namespace StackMachine.Word

/-- The number of decimal digits: each counts for ten times as much as in the place after it. -/
def placeValue : List Char → Nat
  | []      => 0
  | d :: ds => (d.toNat - '0'.toNat) * 10 ^ ds.length + placeValue ds

/-- The text is a literal for the integer. -/
inductive Literal : List Char → Int → Prop where
  | plain {ds : List Char} (hne : ds ≠ []) (hd : ∀ c ∈ ds, c.isDigit = true) :
      Literal ds (placeValue ds)
  | plus {ds : List Char} (hne : ds ≠ []) (hd : ∀ c ∈ ds, c.isDigit = true) :
      Literal ('+' :: ds) (placeValue ds)
  | minus {ds : List Char} (hne : ds ≠ []) (hd : ∀ c ∈ ds, c.isDigit = true) :
      Literal ('-' :: ds) (-placeValue ds)

theorem ofDigitChars_eq_placeValue (ds : List Char) : Nat.ofDigitChars 10 ds 0 = placeValue ds := by
  induction ds with
  | nil => rfl
  | cons d ds ih =>
      rw [Nat.ofDigitChars_cons, Nat.ofDigitChars_eq_ofDigitChars_zero, ih, placeValue]
      simp [Nat.mul_comm]

theorem decimal?_eq_some_iff {ds : List Char} {n : Nat} :
    decimal? ds = some n ↔ (ds ≠ [] ∧ ∀ c ∈ ds, c.isDigit = true) ∧ n = placeValue ds := by
  simp only [decimal?, ofDigitChars_eq_placeValue, List.all_eq_true]
  split
  · rename_i h
    exact ⟨fun hn => ⟨h, (Option.some.inj hn).symm⟩, fun hn => congrArg some hn.2.symm⟩
  · rename_i h
    simp only [reduceCtorEq, false_iff]
    exact fun hn => h hn.1

/-- A literal without a sign starts with a digit. -/
theorem integer?_of_forall_isDigit {ds : List Char} (hne : ds ≠ [])
    (hd : ∀ c ∈ ds, c.isDigit = true) : integer? ds = some (placeValue ds : Int) := by
  obtain ⟨c, cs, rfl⟩ := List.exists_cons_of_ne_nil hne
  rw [integer?_of_isDigit (hd c List.mem_cons_self), decimal?_eq_some_iff.mpr ⟨⟨hne, hd⟩, rfl⟩]
  rfl

theorem integer?_eq_some_iff {cs : List Char} {i : Int} : integer? cs = some i ↔ Literal cs i := by
  constructor
  · intro h
    unfold integer? at h
    split at h <;> obtain ⟨n, hn, rfl⟩ := Option.map_eq_some_iff.mp h <;>
      obtain ⟨⟨hne, hd⟩, rfl⟩ := decimal?_eq_some_iff.mp hn
    · exact .plus hne hd
    · exact .minus hne hd
    · exact .plain hne hd
  · rintro (⟨hne, hd⟩ | ⟨hne, hd⟩ | ⟨hne, hd⟩)
    · exact integer?_of_forall_isDigit hne hd
    · rw [integer?, decimal?_eq_some_iff.mpr ⟨⟨hne, hd⟩, rfl⟩]
      rfl
    · rw [integer?, decimal?_eq_some_iff.mpr ⟨⟨hne, hd⟩, rfl⟩]
      rfl

theorem ofInt?_eq_some_iff {i : Int} {w : Word} :
    ofInt? i = some w ↔ (-2 ^ 63 ≤ i ∧ i ≤ 2 ^ 63 - 1) ∧ w = .ofInt i := by
  have hfits : (Int64.minValue.toInt ≤ i ∧ i ≤ Int64.maxValue.toInt) ↔
      (-2 ^ 63 ≤ i ∧ i ≤ 2 ^ 63 - 1) := Iff.rfl
  rw [ofInt?, ← hfits]
  split
  · rename_i h
    simp only [Option.some.injEq, eq_comm (a := w), iff_and_self]
    exact fun _ => h
  · rename_i h
    simp only [reduceCtorEq, false_iff]
    exact fun hw => h hw.1

/-- **The words that texts are read as.** -/
theorem ofLiteral?_eq_some_iff {s : String} {w : Word} :
    ofLiteral? s = some w ↔
      ∃ i, Literal s.toList i ∧ (-2 ^ 63 ≤ i ∧ i ≤ 2 ^ 63 - 1) ∧ w = .ofInt i := by
  simp only [ofLiteral?, Option.bind_eq_some_iff, integer?_eq_some_iff, ofInt?_eq_some_iff]

/-- The text is a literal for an integer of 64 bits. -/
def IsLiteral (cs : List Char) : Prop := ∃ i, Literal cs i ∧ -2 ^ 63 ≤ i ∧ i ≤ 2 ^ 63 - 1

theorem isSome_ofLiteral?_iff {s : String} : (ofLiteral? s).isSome ↔ IsLiteral s.toList := by
  simp only [Option.isSome_iff_exists, ofLiteral?_eq_some_iff]
  exact ⟨fun ⟨_, i, hi, h, _⟩ => ⟨i, hi, h⟩, fun ⟨i, hi, h⟩ => ⟨_, i, hi, h, rfl⟩⟩

theorem Literal.ne_nil {cs : List Char} {i : Int} (h : Literal cs i) : cs ≠ [] := by
  cases h <;> simp_all

end StackMachine.Word
