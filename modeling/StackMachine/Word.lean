/-!
# Word

The values on the stack: 64 bit integers in two's complement.  Addition, subtraction,
multiplication and negation wrap; division truncates toward zero, and the least word divided by -1
is itself.  A word is written in decimal and read from a literal, an optional sign and at least one
digit whose value fits.  `Word.ofLiteral?_text` says that every word is read back from its text.
-/

namespace StackMachine

/-- A 64 bit integer in two's complement. -/
abbrev Word := Int64

namespace Word

/-- The decimal text, with a minus sign if the word is negative. -/
def text (w : Word) : String := w.toInt.repr

/-- 1 for truth and 0 for falsehood. -/
def ofBool (b : Bool) : Word := if b then 1 else 0

/-- The word of a count, reduced to 64 bits. -/
def ofCount (n : Nat) : Word := Int64.ofNat n

/-- The character whose code point is the word modulo 256. -/
def lowChar (w : Word) : Char := Char.ofNat (w.toInt % 256).toNat

/-! ### Literals -/

/-- The word of an integer, if there is one. -/
def ofInt? (i : Int) : Option Word :=
  if Int64.minValue.toInt ≤ i ∧ i ≤ Int64.maxValue.toInt then some (Int64.ofInt i) else none

/-- The number that one or more decimal digits stand for. -/
def decimal? (cs : List Char) : Option Nat :=
  if cs ≠ [] ∧ cs.all Char.isDigit then some (Nat.ofDigitChars 10 cs 0) else none

/-- The integer of a literal: decimal digits after at most one sign. -/
def integer? : List Char → Option Int
  | '+' :: cs => (decimal? cs).map fun n : Nat => (n : Int)
  | '-' :: cs => (decimal? cs).map fun n : Nat => -(n : Int)
  | cs        => (decimal? cs).map fun n : Nat => (n : Int)

/-- The word of a literal whose value fits. -/
def ofLiteral? (s : String) : Option Word := (integer? s.toList).bind ofInt?

theorem ofInt?_toInt (w : Word) : ofInt? w.toInt = some w := by
  rw [ofInt?, if_pos ⟨w.minValue_le_toInt, w.toInt_le⟩, Int64.ofInt_toInt]

theorem decimal?_toDigits (n : Nat) : decimal? (Nat.toDigits 10 n) = some n := by
  rw [decimal?, if_pos, Nat.ofDigitChars_ten_toDigits]
  exact ⟨Nat.toDigits_ne_nil, List.all_eq_true.2 fun c hc =>
    Nat.isDigit_of_mem_toDigits (by decide) (by decide) hc⟩

/-- Digits take no sign with them. -/
theorem integer?_of_isDigit {c : Char} {cs : List Char} (h : c.isDigit = true) :
    integer? (c :: cs) = (decimal? (c :: cs)).map fun n : Nat => (n : Int) := by
  unfold integer?
  split
  · rename_i heq
    obtain ⟨rfl, -⟩ := List.cons.inj heq
    exact absurd h (by decide)
  · rename_i heq
    obtain ⟨rfl, -⟩ := List.cons.inj heq
    exact absurd h (by decide)
  · rfl

theorem integer?_toDigits (n : Nat) : integer? (Nat.toDigits 10 n) = some (n : Int) := by
  obtain ⟨c, cs, h⟩ := List.exists_cons_of_ne_nil (Nat.toDigits_ne_nil (n := n) (b := 10))
  have hc : c.isDigit = true :=
    Nat.isDigit_of_mem_toDigits (b := 10) (n := n) (by decide) (by decide)
      (h ▸ List.mem_cons_self)
  rw [h, integer?_of_isDigit hc, ← h, decimal?_toDigits]
  rfl

theorem integer?_repr (i : Int) : integer? i.repr.toList = some i := by
  cases i with
  | ofNat n => simpa [Int.repr, Nat.toList_repr] using integer?_toDigits n
  | negSucc n =>
    simp only [Int.repr, String.toList_append, Nat.toList_repr]
    simp [integer?, decimal?_toDigits, Int.negSucc_eq]

/-- The decimal text of a word is a literal for it. -/
theorem ofLiteral?_text (w : Word) : ofLiteral? w.text = some w := by
  rw [ofLiteral?, text, integer?_repr]
  exact ofInt?_toInt w

end Word

end StackMachine
