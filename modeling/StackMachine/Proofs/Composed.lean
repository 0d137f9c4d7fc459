import StackMachine.Routine

/-!
# Proofs — Composed

What an action can be made of.  A computation is *composed* when it is built from the operations on
a state and from standard instructions: it may look at the whole state, go on as it likes with what
it saw, raise a fault of its own, and carry on after a fault of an operation (`Exec.attempt`).  What
it cannot do is set the code length, or the counter other than by a checked jump or a reset.

`State.Evolves s t` says what this leaves possible, and `Exec.Composed.evolves` that it is so.
Every routine is composed (`Routine.composed_action`).
-/

namespace StackMachine

/-- What operations can make of a state. -/
inductive State.Evolves : State → State → Prop where
  | refl (s : State) : Evolves s s
  | stack (s : State) (stack : List Word) : Evolves s { s with stack }
  | output (s : State) (output : String) : Evolves s { s with output }
  | jump (s : State) {pc : Nat} (h : pc < s.codeLength) : Evolves s { s with pc }
  | reset (s : State) : Evolves s s.reset
  | trans {s t u : State} (h₁ : Evolves s t) (h₂ : Evolves t u) : Evolves s u

/-- The code keeps its length. -/
theorem State.Evolves.codeLength_eq {s t : State} (h : s.Evolves t) :
    t.codeLength = s.codeLength := by
  induction h with
  | refl | stack | output | jump | reset => rfl
  | trans _ _ ih₁ ih₂ => rw [ih₂, ih₁]

namespace Exec

variable {α β : Type}

/-- The computation with its fault, if it ends in one, as an answer. -/
def attempt (x : Exec α) : Exec (Except Fault α) := fun out s =>
  let ⟨r, t, ps⟩ := x out s
  ⟨.ok r, t, ps⟩

/-- Built from the operations on a state and from standard instructions. -/
inductive Composed : ∀ {α : Type}, Exec α → Prop where
  | pure {α : Type} (a : α) : Composed (Pure.pure a : Exec α)
  | bind {α β : Type} {x : Exec α} {f : α → Exec β} (hx : Composed x) (hf : ∀ a, Composed (f a)) :
      Composed (x >>= f)
  | attempt {α : Type} {x : Exec α} (hx : Composed x) : Composed x.attempt
  | get : Composed get
  | raise {α : Type} (e : Fault) : Composed (raise e : Exec α)
  | require (n : Nat) : Composed (require n)
  | push (w : Word) : Composed (push w)
  | pop : Composed pop
  | popPair : Composed popPair
  | top : Composed top
  | target (w : Word) : Composed (target w)
  | jump (w : Word) : Composed (jump w)
  | writeWord (w : Word) : Composed (writeWord w)
  | writeChar (c : Char) : Composed (writeChar c)
  | reset : Composed reset
  | builtin (b : Builtin) (w : Word) : Composed (b.action w)

theorem bind_of_ok {x : Exec α} {f : α → Exec β} {out : Stdout} {s t : State} {a : α}
    {ps : List Print} (h : x out s = ⟨.ok a, t, ps⟩) :
    (x >>= f) out s = ⟨(f a out t).result, (f a out t).state, ps ++ (f a out t).emitted⟩ := by
  show Exec.bind x f out s = _
  rw [Exec.bind, h]

/-- A first computation that prints nothing leaves what is printed to the second. -/
theorem bind_of_ok_nil {x : Exec α} {f : α → Exec β} {out : Stdout} {s t : State} {a : α}
    (h : x out s = ⟨.ok a, t, []⟩) : (x >>= f) out s = f a out t := by
  rw [bind_of_ok h]
  rfl

theorem bind_of_error {x : Exec α} {f : α → Exec β} {out : Stdout} {s t : State} {e : Fault}
    {ps : List Print} (h : x out s = ⟨.error e, t, ps⟩) :
    (x >>= f) out s = ⟨.error e, t, ps⟩ := by
  show Exec.bind x f out s = _
  rw [Exec.bind, h]

theorem pop_of_nil {out : Stdout} {s : State} (h : s.stack = []) :
    pop out s = ⟨.error (.stackUnderflow 1 0), s, []⟩ := by
  rw [pop, bind_of_ok (x := get) rfl, h]
  rfl

theorem pop_of_cons {out : Stdout} {s : State} {w : Word} {ws : List Word} (h : s.stack = w :: ws) :
    pop out s = ⟨.ok w, { s with stack := ws }, []⟩ := by
  rw [pop, bind_of_ok (x := get) rfl, h]
  rfl

theorem top_of_nil {out : Stdout} {s : State} (h : s.stack = []) :
    top out s = ⟨.error (.stackUnderflow 1 0), s, []⟩ := by
  rw [top, bind_of_ok (x := get) rfl, h]
  rfl

theorem top_of_cons {out : Stdout} {s : State} {w : Word} {ws : List Word} (h : s.stack = w :: ws) :
    top out s = ⟨.ok w, s, []⟩ := by
  rw [top, bind_of_ok (x := get) rfl, h]
  rfl

theorem require_of_le {out : Stdout} {s : State} {n : Nat} (h : n ≤ s.depth) :
    require n out s = ⟨.ok (), s, []⟩ := by
  rw [require, bind_of_ok (x := get) rfl, if_pos (hasDepth_iff.mpr h)]
  rfl

theorem require_of_lt {out : Stdout} {s : State} {n : Nat} (h : s.depth < n) :
    require n out s = ⟨.error (.stackUnderflow n s.depth), s, []⟩ := by
  rw [require, bind_of_ok (x := get) rfl, if_neg (mt hasDepth_iff.mp (Nat.not_le_of_lt h))]
  rfl

theorem target_of_lt {out : Stdout} {s : State} {w : Word}
    (h : 0 ≤ w.toInt ∧ w.toInt < s.codeLength) : target w out s = ⟨.ok w.toInt.toNat, s, []⟩ := by
  rw [target, bind_of_ok (x := get) rfl, if_pos h]
  rfl

theorem target_of_not_lt {out : Stdout} {s : State} {w : Word}
    (h : ¬ (0 ≤ w.toInt ∧ w.toInt < s.codeLength)) :
    target w out s = ⟨.error (.outOfBounds w s.codeLength), s, []⟩ := by
  rw [target, bind_of_ok (x := get) rfl, if_neg h]
  rfl

/-! ### What a computation makes of a state -/

/-- Whatever it starts from, the computation makes of it what operations can. -/
def Evolving (x : Exec α) : Prop := ∀ (out : Stdout) (s : State), s.Evolves (x out s).state

namespace Evolving

theorem pure (a : α) : Evolving (Pure.pure a : Exec α) := fun _ s => .refl s

theorem bind {x : Exec α} {f : α → Exec β} (hx : Evolving x) (hf : ∀ a, Evolving (f a)) :
    Evolving (x >>= f) := by
  intro out s
  have h := hx out s
  rcases ho : x out s with ⟨e | a, t, ps⟩
  · rw [ho] at h
    rwa [bind_of_error ho]
  · rw [ho] at h
    rw [bind_of_ok ho]
    exact h.trans (hf a out t)

theorem attempt {x : Exec α} (hx : Evolving x) : Evolving x.attempt := fun out s => hx out s

theorem get : Evolving get := fun _ s => .refl s

theorem raise (e : Fault) : Evolving (raise e : Exec α) := fun _ s => .refl s

theorem print (w : Word) : Evolving (print w)
  | .connected, s => .refl s
  | .closed, s => .refl s

theorem require (n : Nat) : Evolving (require n) := by
  refine get.bind fun s => ?_
  split
  · exact pure ()
  · exact raise _

theorem push (w : Word) : Evolving (push w) := fun _ s => .stack s (w :: s.stack)

theorem pop : Evolving pop := by
  refine get.bind fun s => ?_
  split
  · exact raise _
  · exact bind (fun _ t => .stack t _) fun _ => pure _

theorem popPair : Evolving popPair :=
  (require 2).bind fun _ => pop.bind fun _ => pop.bind fun _ => pure _

theorem top : Evolving top := by
  refine get.bind fun s => ?_
  split
  · exact raise _
  · exact pure _

theorem target (w : Word) : Evolving (target w) := by
  refine get.bind fun s => ?_
  split
  · exact pure _
  · exact raise _

theorem writeWord (w : Word) : Evolving (writeWord w) := fun _ s => .output s _

theorem writeChar (c : Char) : Evolving (writeChar c) := fun _ s => .output s _

theorem reset : Evolving reset := fun _ s => .reset s

end Evolving

/-- The counter may be set to a place that was found in the code. -/
theorem Evolving.target_bind {x : Nat → Exec α} (w : Word)
    (hx : ∀ (pc : Nat) (out : Stdout) (s : State), pc < s.codeLength →
      s.Evolves (x pc out s).state) : Evolving (Exec.target w >>= x) := by
  intro out s
  by_cases h : 0 ≤ w.toInt ∧ w.toInt < s.codeLength
  · rw [bind_of_ok (target_of_lt h)]
    exact hx _ out s (by omega)
  · rw [bind_of_error (target_of_not_lt h)]
    exact .refl s

theorem Evolving.jump (w : Word) : Evolving (Exec.jump w) :=
  target_bind w fun _ _ s h => .jump s h

/-- The counter is set after the operand is off the stack. -/
theorem Evolving.action_jmpz (w : Word) : Evolving (Builtin.action .jmpz w) := by
  refine target_bind w fun pc out s hpc => ?_
  cases hs : s.stack with
  | nil =>
      rw [bind_of_error (pop_of_nil hs)]
      exact .refl s
  | cons a ws =>
      rw [bind_of_ok (pop_of_cons hs)]
      -- the place was found before the operand was taken, and the code is as long as it was
      refine (State.Evolves.stack s ws).trans ?_
      split
      · exact .jump _ hpc
      · exact .refl _

theorem Evolving.combine (f : Word → Word → Word) : Evolving (Exec.combine f) :=
  popPair.bind fun _ => (push _).bind fun _ => pure _

theorem Evolving.action (b : Builtin) (w : Word) : Evolving (b.action w) := by
  cases b with
  | print => exact top.bind fun v => (print v).bind fun _ => pure _
  | loadConst => exact (push w).bind fun _ => pure _
  | exit => exact (require 1).bind fun _ => pure _
  | pop => exact pop.bind fun _ => pure _
  | add | eq | neq => exact combine _
  | div =>
      refine (require 2).bind fun _ => top.bind fun v => ?_
      split
      · exact raise _
      · exact combine _
  | dup => exact top.bind fun v => (push v).bind fun _ => pure _
  | jmp => exact (jump w).bind fun _ => pure _
  | jmpz => exact action_jmpz w
  | write => exact top.bind fun v => (writeWord v).bind fun _ => pure _
  | writeChar => exact top.bind fun v => (writeChar v.lowChar).bind fun _ => pure _

/-- **Composed computations keep to what operations can do.** -/
theorem Composed.evolves {α : Type} {x : Exec α} (h : Composed x) : Evolving x := by
  induction h with
  | pure a => exact .pure a
  | bind _ _ ihx ihf => exact ihx.bind ihf
  | attempt _ ih => exact ih.attempt
  | get => exact .get
  | raise e => exact .raise e
  | require n => exact .require n
  | push w => exact .push w
  | pop => exact .pop
  | popPair => exact .popPair
  | top => exact .top
  | target w => exact .target w
  | jump w => exact .jump w
  | writeWord w => exact .writeWord w
  | writeChar c => exact .writeChar c
  | reset => exact .reset
  | builtin b w => exact .action b w

end Exec

/-! ### Routines -/

theorem Operation.composed_operand (argument : Word) (r : Scratch) (e : Operand) :
    (Operation.operand argument r e).Composed :=
  .bind .get fun _ => .pure _

theorem Operation.composed_perform (argument : Word) (r : Scratch) (op : Operation) :
    (op.perform argument r).Composed := by
  cases op with
  | push e => exact .bind (composed_operand argument r e) fun w => .bind (.push w) fun _ => .pure _
  | pop => exact .bind .pop fun _ => .pure _
  | popPair => exact .bind .popPair fun _ => .pure _
  | top => exact .bind .top fun _ => .pure _
  | require count => exact .bind (.require count) fun _ => .pure _
  | target e =>
      exact .bind (composed_operand argument r e) fun w => .bind (.target w) fun _ => .pure _
  | jump e => exact .bind (composed_operand argument r e) fun w => .bind (.jump w) fun _ => .pure _
  | writeWord e =>
      exact .bind (composed_operand argument r e) fun w => .bind (.writeWord w) fun _ => .pure _
  | writeChar c => exact .bind (.writeChar c) fun _ => .pure _
  | reset => exact .bind .reset fun _ => .pure _
  | raise fault => exact .raise fault
  | halt => exact .pure _
  | builtin b e =>
      exact .bind (composed_operand argument r e) fun w => .bind (.builtin b w) fun _ => .pure _

theorem Routine.composed_run (argument : Word) (ops : Routine) (r : Scratch) :
    (run argument r ops).Composed := by
  induction ops generalizing r with
  | nil => exact .pure _
  | cons op ops ih =>
      refine .bind (op.composed_perform argument r) fun y => ?_
      split
      · exact ih y.scratch
      · exact .pure _

/-- An action whose computation is composed, whatever the argument. -/
def Action.Composed (a : Action) : Prop := ∀ w, (a w).Composed

theorem Builtin.composed_action (b : Builtin) : Action.Composed b.action := fun w => .builtin b w

/-- The action of a routine is composed. -/
theorem Routine.composed_action (ops : Routine) : Action.Composed (Routine.action ops) :=
  fun w => composed_run w ops {}

end StackMachine
