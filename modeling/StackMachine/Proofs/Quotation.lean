import Mathlib.Data.List.Forall2
import StackMachine.Proofs.Diagnosis
import StackMachine.Text.Quoted

/-!
# Proofs — Quotation

A text between quotes, read back.  A character is written there by itself, by an escape of one
letter, or by its code point (`Text.Written`).  A quote or a backslash never stands for itself, so
that each way is told from the others by how it begins, and what is written of one character begins
what is written of no other (`Written.unique`).  What is written of a whole text therefore ends at
the quote that closes it, and is written of no other text (`IsLiteral.unique`).

Nothing is said of which characters are escaped.  To whoever reads the text it makes no difference
whether a character that does not show was escaped, nor which standard says that it does not.
-/

namespace StackMachine.Text

/-- A text that ends before a character which is not in it is told from what follows. -/
theorem eq_of_append_cons_eq {d : Char} {a b x y : List Char} (ha : d ∉ a) (hb : d ∉ b)
    (h : a ++ d :: x = b ++ d :: y) : a = b ∧ x = y := by
  have hab : a = b := by rw [← takeWhile_ne_append_cons ha x, h, takeWhile_ne_append_cons hb]
  subst hab
  exact ⟨rfl, (List.cons.inj (List.append_cancel_left h)).2⟩

/-! ### Hexadecimal digits -/

theorem digitChar_injective : ∀ a < 16, ∀ b < 16, Nat.digitChar a = Nat.digitChar b → a = b := by
  decide

theorem hexDigits_injective {n k : Nat} (h : Nat.toDigits 16 n = Nat.toDigits 16 k) : n = k := by
  have hlong : ∀ {n : Nat} {c d : Char}, [c] ≠ Nat.toDigits 16 n ++ [d] := by
    intro n c d hcd
    have hlength := congrArg List.length hcd
    have hpos : 0 < (Nat.toDigits 16 n).length := Nat.length_toDigits_pos
    rw [List.length_append, List.length_singleton, List.length_singleton] at hlength
    omega
  induction n using Nat.strongRecOn generalizing k with
  | ind n ih =>
      rcases Nat.lt_or_ge n 16 with hn | hn <;> rcases Nat.lt_or_ge k 16 with hk | hk
      · rw [Nat.toDigits_of_lt_base hn, Nat.toDigits_of_lt_base hk] at h
        exact digitChar_injective n hn k hk (List.singleton_inj.mp h)
      · rw [Nat.toDigits_of_lt_base hn, Nat.toDigits_of_base_le (by decide) hk] at h
        exact absurd h hlong
      · rw [Nat.toDigits_of_base_le (by decide) hn, Nat.toDigits_of_lt_base hk] at h
        exact absurd h.symm hlong
      · rw [Nat.toDigits_of_base_le (by decide) hn, Nat.toDigits_of_base_le (by decide) hk] at h
        obtain ⟨hfront, hlast⟩ := List.append_inj' h rfl
        have hquotient := ih (n / 16) (by omega) hfront
        have hremainder := digitChar_injective _ (Nat.mod_lt n (by decide)) _
          (Nat.mod_lt k (by decide)) (List.singleton_inj.mp hlast)
        omega

theorem brace_notMem_hexDigits (n : Nat) : '\x7d' ∉ Nat.toDigits 16 n := by
  have hdigit : ∀ a < 16, '\x7d' ≠ Nat.digitChar a := by decide
  induction n using Nat.strongRecOn with
  | ind n ih =>
      rcases Nat.lt_or_ge n 16 with hn | hn
      · rw [Nat.toDigits_of_lt_base hn, List.mem_singleton]
        exact hdigit n hn
      · rw [Nat.toDigits_of_base_le (by decide) hn, List.mem_append, List.mem_singleton, not_or]
        exact ⟨ih (n / 16) (by omega), hdigit _ (Nat.mod_lt n (by decide))⟩

/-! ### One character -/

/-- The characters that have an escape of one letter, each with its letter. -/
def letterEscapes : List (Char × Char) :=
  [('\x00', '0'), ('\t', 't'), ('\n', 'n'), ('\r', 'r'), ('"', '"'), ('\\', '\\')]

/-- The ways in which a character may be written between quotes. -/
inductive Written : Char → List Char → Prop where
  | plain {c : Char} (hquote : c ≠ '"') (hbackslash : c ≠ '\\') : Written c [c]
  | letter {c l : Char} (h : (c, l) ∈ letterEscapes) : Written c ['\\', l]
  | codePoint (c : Char) : Written c (codePointEscape c)

section Written

variable {c d : Char} {cs ds e f x y : List Char}

theorem letter_unique : ∀ p ∈ letterEscapes, ∀ q ∈ letterEscapes, p.2 = q.2 → p.1 = q.1 := by
  decide

theorem letter_ne : ∀ p ∈ letterEscapes, p.2 ≠ 'u' := by decide

/-- No character is written so that it could close the text. -/
theorem Written.exists_eq_cons (h : Written c e) : ∃ a rest, e = a :: rest ∧ a ≠ '"' := by
  cases h with
  | plain hquote _ => exact ⟨c, [], rfl, hquote⟩
  | letter _ => exact ⟨'\\', _, rfl, by decide⟩
  | codePoint => exact ⟨'\\', _, rfl, by decide⟩

theorem codePointEscape_append (c : Char) (x : List Char) :
    codePointEscape c ++ x = '\\' :: 'u' :: '\x7b' :: (Nat.toDigits 16 c.toNat ++ '\x7d' :: x) := by
  simp [codePointEscape]

theorem codePointEscape_unique (h : codePointEscape c ++ x = codePointEscape d ++ y) :
    c = d ∧ x = y := by
  simp only [codePointEscape_append, List.cons.injEq, true_and] at h
  obtain ⟨hdigits, hrest⟩ :=
    eq_of_append_cons_eq (brace_notMem_hexDigits _) (brace_notMem_hexDigits _) h
  exact ⟨Char.toNat_inj.mp (hexDigits_injective hdigits), hrest⟩

/-- **One character begins the text**, however it is written. -/
theorem Written.unique (h : Written c e) (h' : Written d f) (heq : e ++ x = f ++ y) :
    c = d ∧ x = y := by
  -- the first character tells an escape, and the second tells the two kinds apart
  cases h with
  | plain _ hbackslash =>
      cases h' with
      | plain => exact List.cons.inj heq
      | letter => exact absurd (List.cons.inj heq).1 hbackslash
      | codePoint => exact absurd (List.cons.inj heq).1 hbackslash
  | letter hl =>
      cases h' with
      | plain _ hbackslash => exact absurd (List.cons.inj heq).1.symm hbackslash
      | letter hk =>
          simp only [List.cons_append, List.nil_append, List.cons.injEq, true_and] at heq
          exact ⟨letter_unique _ hl _ hk heq.1, heq.2⟩
      | codePoint =>
          rw [codePointEscape_append] at heq
          exact absurd (List.cons.inj (List.cons.inj heq).2).1 (letter_ne _ hl)
  | codePoint =>
      cases h' with
      | plain _ hbackslash => exact absurd (List.cons.inj heq).1.symm hbackslash
      | letter hk =>
          rw [codePointEscape_append] at heq
          exact absurd (List.cons.inj (List.cons.inj heq).2).1.symm (letter_ne _ hk)
      | codePoint => exact codePointEscape_unique heq

theorem written_quoteChar (c : Char) : Written c (quoteChar c) := by
  rw [quoteChar]
  split_ifs with h₀ ht hn hr hquote hbackslash
  · exact .letter (by simp [h₀, letterEscapes])
  · exact .letter (by simp [ht, letterEscapes])
  · exact .letter (by simp [hn, letterEscapes])
  · exact .letter (by simp [hr, letterEscapes])
  · exact .letter (by simp [hquote, letterEscapes])
  · exact .letter (by simp [hbackslash, letterEscapes])
  · exact .codePoint c
  · exact .plain hquote hbackslash

/-! ### A whole text -/

/-- The text between quotes, each of its characters written in one way or another. -/
inductive IsLiteral (s : String) : List Char → Prop where
  | intro {parts : List (List Char)} (h : List.Forall₂ Written s.toList parts) :
      IsLiteral s ('"' :: parts.flatten ++ ['"'])

/-- What is written of a text ends at the first quote that is not escaped. -/
theorem eq_of_written {es fs : List (List Char)} (hc : List.Forall₂ Written cs es)
    (hd : List.Forall₂ Written ds fs) (h : es.flatten ++ '"' :: x = fs.flatten ++ '"' :: y) :
    cs = ds ∧ x = y := by
  induction hc generalizing ds fs with
  | nil =>
      cases hd with
      | nil => exact ⟨rfl, (List.cons.inj h).2⟩
      | cons hfirst _ =>
          obtain ⟨a, rest, rfl, ha⟩ := hfirst.exists_eq_cons
          exact absurd (List.cons.inj h).1.symm ha
  | cons hfirst _ ih =>
      cases hd with
      | nil =>
          obtain ⟨a, rest, rfl, ha⟩ := hfirst.exists_eq_cons
          exact absurd (List.cons.inj h).1 ha
      | cons hfirst' hrest =>
          rw [List.flatten_cons, List.flatten_cons, List.append_assoc, List.append_assoc] at h
          obtain ⟨rfl, h⟩ := hfirst.unique hfirst' h
          obtain ⟨rfl, h⟩ := ih hrest h
          exact ⟨rfl, h⟩

/-- **One text begins what is read**, and the rest begins after the quote that closes it. -/
theorem IsLiteral.unique {s t : String} (h : IsLiteral s e) (h' : IsLiteral t f)
    (heq : e ++ x = f ++ y) : s = t ∧ x = y := by
  obtain ⟨h⟩ := h
  obtain ⟨h'⟩ := h'
  simp only [List.cons_append, List.append_assoc, List.nil_append, List.cons.injEq, true_and] at heq
  obtain ⟨hs, hrest⟩ := eq_of_written h h' heq
  exact ⟨String.toList_inj.mp hs, hrest⟩

theorem isLiteral_quoted (s : String) : IsLiteral s (quoted s).toList := by
  have hparts : List.Forall₂ Written s.toList (s.toList.map quoteChar) := by
    rw [List.forall₂_map_right_iff, List.forall₂_same]
    exact fun c _ => written_quoteChar c
  rw [quoted, String.toList_ofList, List.flatMap_def]
  exact .intro hparts

end Written

end StackMachine.Text
