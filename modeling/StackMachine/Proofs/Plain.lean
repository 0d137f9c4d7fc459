import StackMachine.Proofs.Composed
import StackMachine.Proofs.Simulation

/-!
# Proofs — Plain

What the standard instructions are made of.  A computation is *plain* when it is built from the
operations of the stack, the counter and the output, none of which looks at more of the state than
it works on, and when the only fault that it raises on its own is a division by zero.  The standard
actions are plain (`Exec.plain_action`), so whatever holds of each operation and is kept by
`bind` holds of every one of them: no proof about all standard actions goes through them one by one.

Two properties of that kind are stated here.  `Respects A R x`: from states related by `R`, the
computation `x` goes alike, unless it ends in a fault outside `A`.  And a plain computation ends in
no fault but those of operations (`Plain.isOperational`).
-/

namespace StackMachine

namespace Exec

variable {α β : Type}

/-- Built from operations that look at no more of the state than they work on. -/
inductive Plain : ∀ {α : Type}, Exec α → Prop where
  | pure {α : Type} (a : α) : Plain (Pure.pure a : Exec α)
  | bind {α β : Type} {x : Exec α} {f : α → Exec β} (hx : Plain x) (hf : ∀ a, Plain (f a)) :
      Plain (x >>= f)
  | divisionByZero {α : Type} : Plain (raise .divisionByZero : Exec α)
  | require (n : Nat) : Plain (require n)
  | push (w : Word) : Plain (push w)
  | pop : Plain pop
  | top : Plain top
  | target (w : Word) : Plain (target w)
  | setPc (pc : Nat) : Plain (setPc pc)
  | writeWord (w : Word) : Plain (writeWord w)
  | writeChar (c : Char) : Plain (writeChar c)
  | print (w : Word) : Plain (print w)

theorem Plain.popPair : Plain popPair :=
  (require 2).bind fun _ => pop.bind fun _ => pop.bind fun _ => pure _

theorem Plain.combine (f : Word → Word → Word) : Plain (combine f) :=
  popPair.bind fun _ => (push _).bind fun _ => pure _

/-- **Every standard action is plain.** -/
theorem plain_action (b : Builtin) (w : Word) : Plain (b.action w) := by
  cases b with
  | print => exact .bind .top fun v => .bind (.print v) fun _ => .pure _
  | loadConst => exact .bind (.push w) fun _ => .pure _
  | exit => exact .bind (.require 1) fun _ => .pure _
  | pop => exact .bind .pop fun _ => .pure _
  | add => exact .combine _
  | eq => exact .combine fun below top => Word.ofBool (below == top)
  | neq => exact .combine fun below top => Word.ofBool (below != top)
  | div =>
      refine .bind (.require 2) fun _ => .bind .top fun v => ?_
      split
      · exact .divisionByZero
      · exact .combine _
  | dup => exact .bind .top fun v => .bind (.push v) fun _ => .pure _
  | jmp => exact .bind (.bind (.target w) fun pc => .setPc pc) fun _ => .pure _
  | jmpz =>
      refine .bind (.target w) fun pc => .bind .pop fun v => ?_
      split
      · exact .bind (.setPc pc) fun _ => .pure _
      · exact .pure _
  | write => exact .bind .top fun v => .bind (.writeWord v) fun _ => .pure _
  | writeChar => exact .bind .top fun v => .bind (.writeChar v.lowChar) fun _ => .pure _

/-! ### Going alike from related states -/

/-- From related states the computation goes alike, unless it ends in a fault outside `A`. -/
def Respects (A : Fault → Prop) (R : State → State → Prop) (x : Exec α) : Prop :=
  ∀ (out : Stdout) (s s' : State), R s s' → (∀ e, (x out s).result = .error e → A e) →
    (x out s).Alike R Eq (x out s')

namespace Respects

variable {A : Fault → Prop} {R : State → State → Prop}

theorem pure (a : α) : Respects A R (Pure.pure a) := fun _ _ _ h _ => ⟨rfl, h, rfl⟩

theorem raise (e : Fault) : Respects A R (raise e : Exec α) := fun _ _ _ h _ => ⟨rfl, h, rfl⟩

theorem bind {x : Exec α} {f : α → Exec β} (hx : Respects A R x) (hf : ∀ a, Respects A R (f a)) :
    Respects A R (x >>= f) := by
  intro out s s' hR hA
  rcases ho : x out s with ⟨e | a, t, ps⟩
  · -- the fault of the first computation is that of both
    rw [bind_of_error ho] at hA ⊢
    have hgo := hx out s s' hR (by rw [ho]; rintro _ ⟨⟩; exact hA e rfl)
    rw [ho] at hgo
    obtain ⟨t', _, ho', ht, rfl⟩ := hgo.exists_eq
    rw [bind_of_error ho']
    exact ⟨rfl, ht, rfl⟩
  · rw [bind_of_ok ho] at hA ⊢
    have hgo := hx out s s' hR (by rw [ho]; nofun)
    rw [ho] at hgo
    obtain ⟨t', _, ho', ht, rfl⟩ := hgo.exists_eq
    rw [bind_of_ok ho']
    obtain ⟨hr, hu, he⟩ := hf a out t t' ht hA
    exact ⟨hr, hu, by rw [he]⟩

end Respects

end Exec

/-! ### Faults -/

/-- The fault is one that an operation can end in. -/
def Fault.IsOperational : Fault → Prop
  | .stackUnderflow .. | .divisionByZero | .outOfBounds .. => True
  | _                                                      => False

namespace Exec

variable {α β : Type}

theorem isOperational_bind {x : Exec α} {f : α → Exec β}
    (hx : ∀ out s e, (x out s).result = .error e → e.IsOperational)
    (hf : ∀ a out s e, (f a out s).result = .error e → e.IsOperational) (out : Stdout) (s : State)
    (e : Fault) (h : ((x >>= f) out s).result = .error e) : e.IsOperational := by
  rcases ho : x out s with ⟨e' | a, t, ps⟩
  · rw [bind_of_error ho] at h
    cases h
    exact hx out s e (by rw [ho])
  · rw [bind_of_ok ho] at h
    exact hf a out t e h

/-- **Plain computations end in no other faults than operations do.** -/
theorem Plain.isOperational {x : Exec α} (h : Plain x) :
    ∀ out s e, (x out s).result = .error e → e.IsOperational := by
  induction h with
  | pure a => nofun
  | bind _ _ ihx ihf => exact isOperational_bind ihx ihf
  | divisionByZero =>
      rintro out s _ ⟨⟩
      trivial
  | require n =>
      intro out s e h
      rcases Nat.lt_or_ge s.depth n with hn | hn
      · rw [require_of_lt hn] at h
        cases h
        trivial
      · rw [require_of_le hn] at h
        cases h
  | pop =>
      intro out s e h
      cases hs : s.stack with
      | nil =>
          rw [pop_of_nil hs] at h
          cases h
          trivial
      | cons w ws =>
          rw [pop_of_cons hs] at h
          cases h
  | top =>
      intro out s e h
      cases hs : s.stack with
      | nil =>
          rw [top_of_nil hs] at h
          cases h
          trivial
      | cons w ws =>
          rw [top_of_cons hs] at h
          cases h
  | target w =>
      intro out s e h
      by_cases hw : 0 ≤ w.toInt ∧ w.toInt < s.codeLength
      · rw [target_of_lt hw] at h
        cases h
      · rw [target_of_not_lt hw] at h
        cases h
        trivial
  | push w | setPc pc | writeWord w | writeChar c => nofun
  | print w => rintro (_ | _) <;> nofun

end Exec

end StackMachine
