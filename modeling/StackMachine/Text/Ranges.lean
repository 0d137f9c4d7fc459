/-!
# Text — Ranges

A character property as the closed intervals of code points that have it.  The intervals of a
table ascend and do not meet, so a look-up stops at the first one that starts above its argument;
`Ranges.contains_iff` says that on such a table stopping early loses nothing.
-/

namespace StackMachine.Text

/-- Closed intervals of code points, in ascending order. -/
abbrev Ranges := List (Nat × Nat)

namespace Ranges

/-- Whether `n` lies in one of the intervals. -/
def contains : Ranges → Nat → Bool
  | [],               _ => false
  | (lo, hi) :: rest, n => if n < lo then false else n ≤ hi || contains rest n

/-- Every interval is inhabited and ends below the start of the next. -/
def Ascending : Ranges → Prop
  | []                         => True
  | [(lo, hi)]                 => lo ≤ hi
  | (lo, hi) :: (l, h) :: rest => lo ≤ hi ∧ hi < l ∧ Ascending ((l, h) :: rest)

instance decidableAscending : (t : Ranges) → Decidable (Ascending t)
  | []                         => .isTrue trivial
  | [(lo, hi)]                 => inferInstanceAs (Decidable (lo ≤ hi))
  | (lo, hi) :: (l, h) :: rest =>
    have := decidableAscending ((l, h) :: rest)
    inferInstanceAs (Decidable (lo ≤ hi ∧ hi < l ∧ Ascending ((l, h) :: rest)))

theorem Ascending.tail {r : Nat × Nat} {rest : Ranges} (h : Ascending (r :: rest)) :
    Ascending rest := by
  cases rest with
  | nil => trivial
  | cons s rest => exact h.2.2

/-- All that follows an interval lies above its end. -/
theorem Ascending.lt_of_mem {r s : Nat × Nat} {rest : Ranges} (h : Ascending (r :: rest))
    (hs : s ∈ rest) : r.2 < s.1 := by
  induction rest generalizing r with
  | nil => cases hs
  | cons t rest ih =>
    rcases List.mem_cons.1 hs with rfl | hs
    · exact h.2.1
    · have ht : t.1 ≤ t.2 := by
        cases rest with
        | nil => cases hs
        | cons u rest => exact h.2.2.1
      exact Nat.lt_trans (Nat.lt_of_lt_of_le h.2.1 ht) (ih h.tail hs)

theorem Ascending.le {r : Nat × Nat} {rest : Ranges} (h : Ascending (r :: rest)) : r.1 ≤ r.2 := by
  cases rest with
  | nil => exact h
  | cons s rest => exact h.1

/-- On an ascending table the look-up finds exactly the members of the intervals. -/
theorem contains_iff {t : Ranges} (h : Ascending t) (n : Nat) :
    contains t n = true ↔ ∃ r ∈ t, r.1 ≤ n ∧ n ≤ r.2 := by
  induction t with
  | nil => simp [contains]
  | cons r rest ih =>
    by_cases hlo : n < r.1
    · have hnone : ¬ ∃ s ∈ r :: rest, s.1 ≤ n ∧ n ≤ s.2 := by
        rintro ⟨s, hs, hle, -⟩
        rcases List.mem_cons.1 hs with rfl | hs
        · omega
        · have := h.lt_of_mem hs
          have := h.le
          omega
      exact iff_of_false (by simp [contains, hlo]) hnone
    · simp only [contains, hlo, if_false, Bool.or_eq_true, decide_eq_true_eq, ih h.tail,
        List.mem_cons, exists_eq_or_imp]
      constructor
      · rintro (hhi | hrest)
        · exact .inl ⟨by omega, hhi⟩
        · exact .inr hrest
      · rintro (⟨-, hhi⟩ | hrest)
        · exact .inl hhi
        · exact .inr hrest

end Ranges

end StackMachine.Text
