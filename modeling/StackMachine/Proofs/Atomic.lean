import StackMachine.Proofs.Counter
import StackMachine.Proofs.Standard

/-!
# Proofs — Atomic

What is left when a routine faults.  A computation is *atomic* if it has changed and printed nothing
whenever it faults (`Exec.Atomic`).  Two kinds of computations are: those that only look at the
state (`Exec.Reads`) and those that never fault (`Exec.Sure`).  Every operation looks first and then
does what it is for, without fail, so every operation is atomic (`Operation.atomic_perform`).

A sequence of atomic operations is not atomic: what is done before a fault stays done.  But it can
only stop between two operations.  `Routine.Comes` says what a routine comes to in terms of its
operations one by one: all of them ask for the next, or the one at some place halts, or the one at
some place faults and the state is that in which it was begun.  `Routine.run_eq_iff` is this by
induction on the operations.
-/

namespace StackMachine

namespace Exec

variable {α β : Type} {x : Exec α} {f : α → Exec β}

/-- If the computation faults, it has changed and printed nothing. -/
def Atomic (x : Exec α) : Prop :=
  ∀ ⦃out : Stdout⦄ ⦃s t : State⦄ ⦃e : Fault⦄ ⦃ps : List Print⦄,
    x out s = ⟨.error e, t, ps⟩ → t = s ∧ ps = []

/-- The computation looks at the state and leaves it alone. -/
def Reads (x : Exec α) : Prop := ∀ out s, ∃ r, x out s = ⟨r, s, []⟩

/-- The computation does not fault. -/
def Sure (x : Exec α) : Prop := ∀ out s, ∃ a t ps, x out s = ⟨.ok a, t, ps⟩

/-! ### Looking at the state -/

namespace Reads

theorem pure (a : α) : Reads (Pure.pure a : Exec α) := fun _ _ => ⟨.ok a, rfl⟩

theorem raise (e : Fault) : Reads (raise e : Exec α) := fun _ _ => ⟨.error e, rfl⟩

theorem get : Reads get := fun _ s => ⟨.ok s, rfl⟩

theorem bind (hx : Reads x) (hf : ∀ a, Reads (f a)) : Reads (x >>= f) := by
  intro out s
  obtain ⟨e | a, h⟩ := hx out s
  · exact ⟨.error e, bind_of_error h⟩
  · obtain ⟨r, h'⟩ := hf a out s
    exact ⟨r, (bind_of_ok_nil h).trans h'⟩

theorem require (n : Nat) : Reads (require n) := by
  refine get.bind fun s => ?_
  split
  · exact pure ()
  · exact raise _

theorem top : Reads top := by
  refine get.bind fun s => ?_
  split
  · exact raise _
  · exact pure _

theorem target (w : Word) : Reads (target w) := by
  refine get.bind fun s => ?_
  split
  · exact pure _
  · exact raise _

theorem atomic (hx : Reads x) : Atomic x := by
  intro out s t e ps h
  obtain ⟨r, hr⟩ := hx out s
  rw [hr] at h
  cases h
  exact ⟨rfl, rfl⟩

/-- Looking first takes nothing from what comes after it. -/
theorem bind_atomic (hx : Reads x) (hf : ∀ a, Atomic (f a)) : Atomic (x >>= f) := by
  intro out s t e ps h
  obtain ⟨e' | a, hr⟩ := hx out s
  · rw [bind_of_error hr] at h
    cases h
    exact ⟨rfl, rfl⟩
  · rw [bind_of_ok_nil hr] at h
    exact hf a h

end Reads

/-! ### Doing without fail -/

namespace Sure

theorem pure (a : α) : Sure (Pure.pure a : Exec α) := fun _ s => ⟨a, s, [], rfl⟩

theorem modify (g : State → State) : Sure (modify g) := fun _ s => ⟨(), g s, [], rfl⟩

theorem bind (hx : Sure x) (hf : ∀ a, Sure (f a)) : Sure (x >>= f) := by
  intro out s
  obtain ⟨a, t, ps, h⟩ := hx out s
  obtain ⟨b, u, qs, h'⟩ := hf a out t
  rw [bind_of_ok h, h']
  exact ⟨b, u, ps ++ qs, rfl⟩

theorem atomic (hx : Sure x) : Atomic x := by
  intro out s t e ps h
  obtain ⟨a, u, qs, hr⟩ := hx out s
  rw [hr] at h
  cases h

end Sure

/-! ### The operations -/

namespace Atomic

/-- What cannot fail may follow. -/
theorem bind_sure (hx : Atomic x) (hf : ∀ a, Sure (f a)) : Atomic (x >>= f) := by
  intro out s t e ps h
  rcases hr : x out s with ⟨e' | a, u, qs⟩
  · rw [bind_of_error hr] at h
    cases h
    exact hx hr
  · obtain ⟨b, v, rs, hb⟩ := hf a out u
    rw [bind_of_ok hr, hb] at h
    cases h

theorem require (n : Nat) : Atomic (require n) := (Reads.require n).atomic

theorem top : Atomic top := Reads.top.atomic

theorem target (w : Word) : Atomic (target w) := (Reads.target w).atomic

theorem pop : Atomic pop := by
  refine Reads.get.bind_atomic fun s => ?_
  split
  · exact (Reads.raise _).atomic
  · exact ((Sure.modify _).bind fun _ => .pure _).atomic

/-- The second of two words is known to be there before the first is taken off. -/
theorem popPair : Atomic popPair := by
  intro out s t e ps h
  match hs : s.stack with
  | y :: x :: ws =>
    rw [popPair_of_cons hs] at h
    cases h
  | [] | [_] =>
    have hd : s.depth < 2 := by simp [State.depth, hs]
    have hneeds : Exec.popPair out s = _ := (Needs.require 2).bind out s hd
    rw [hneeds] at h
    cases h
    exact ⟨rfl, rfl⟩

theorem jump (w : Word) : Atomic (jump w) :=
  (Reads.target w).bind_atomic fun _ => (Sure.modify _).atomic

/-- A standard instruction that is refused has done nothing. -/
theorem action (b : Builtin) (w : Word) : Atomic (b.action w) := fun _ _ _ _ _ h =>
  (Builtin.action_eq_error_iff.mp h).2

end Atomic

end Exec

namespace Operation

theorem reads_operand (argument : Word) (r : Scratch) (e : Operand) :
    (operand argument r e).Reads :=
  .bind .get fun _ => .pure _

/-- **Every operation is atomic**: it has looked at all that can go wrong before it begins. -/
theorem atomic_perform (argument : Word) (r : Scratch) (op : Operation) :
    (op.perform argument r).Atomic := by
  have hoperand := reads_operand argument r
  cases op with
  | push e =>
      exact (hoperand e).bind_atomic fun w => ((Exec.Sure.modify _).bind fun _ => .pure _).atomic
  | pop => exact Exec.Atomic.pop.bind_sure fun _ => .pure _
  | popPair => exact Exec.Atomic.popPair.bind_sure fun _ => .pure _
  | top => exact Exec.Atomic.top.bind_sure fun _ => .pure _
  | require count => exact (Exec.Atomic.require count).bind_sure fun _ => .pure _
  | target e =>
      exact (hoperand e).bind_atomic fun w => (Exec.Atomic.target w).bind_sure fun _ => .pure _
  | jump e =>
      exact (hoperand e).bind_atomic fun w => (Exec.Atomic.jump w).bind_sure fun _ => .pure _
  | writeWord e =>
      exact (hoperand e).bind_atomic fun w => ((Exec.Sure.modify _).bind fun _ => .pure _).atomic
  | writeChar c => exact ((Exec.Sure.modify _).bind fun _ => .pure _).atomic
  | reset => exact ((Exec.Sure.modify _).bind fun _ => .pure _).atomic
  | raise fault => exact (Exec.Reads.raise fault).atomic
  | halt => exact (Exec.Sure.pure _).atomic
  | builtin b e =>
      exact (hoperand e).bind_atomic fun w => (Exec.Atomic.action b w).bind_sure fun _ => .pure _

end Operation

/-! ### Routines -/

namespace Routine

section Comes

variable (argument : Word) (out : Stdout)

/-- The operations are performed on `s` and the scratch words `r`, and each asks for the next; they
leave the scratch words `r'` and the state `t`, and have printed `ps`. -/
inductive Performed :
    Scratch → State → Routine → Scratch → State → List Print → Prop where
  | none (r : Scratch) (s : State) : Performed r s [] r s []
  | more {r r' r'' : Scratch} {s t u : State} {op : Operation} {ops : Routine} {v : Value}
      {ps qs : List Print} (h : op.perform argument r out s = ⟨.ok ⟨v, r', .next⟩, t, ps⟩)
      (hs : Performed r' t ops r'' u qs) : Performed r s (op :: ops) r'' u (ps ++ qs)

/-- What the operations come to from `s` and the scratch words `r`: their answer or fault, the state
that they leave, and what they have printed. -/
inductive Comes (r : Scratch) (s : State) (ops : Routine) :
    Except Fault Flow → State → List Print → Prop where
  | completed {r' : Scratch} {t : State} {ps : List Print}
      (h : Performed argument out r s ops r' t ps) : Comes r s ops (.ok .next) t ps
  /-- The operation at the place `k` halts, and the state is the one after it. -/
  | halted {k : Nat} {op : Operation} {r' r'' : Scratch} {t u : State} {v : Value}
      {ps qs : List Print} (h : Performed argument out r s (ops.take k) r' t ps)
      (hk : ops[k]? = some op)
      (hop : op.perform argument r' out t = ⟨.ok ⟨v, r'', .halt⟩, u, qs⟩) :
      Comes r s ops (.ok .halt) u (ps ++ qs)
  /-- The operation at the place `k` faults, and the state is the one before it. -/
  | faulted {k : Nat} {op : Operation} {r' : Scratch} {t : State} {e : Fault} {ps : List Print}
      (h : Performed argument out r s (ops.take k) r' t ps) (hk : ops[k]? = some op)
      (hop : (op.perform argument r' out t).result = .error e) : Comes r s ops (.error e) t ps

end Comes

variable {argument : Word} {out : Stdout} {r r' : Scratch} {s t : State} {op : Operation}
  {ops : Routine} {v : Value} {f : Except Fault Flow} {ps qs : List Print}

/-! ### One operation, and the rest -/

theorem run_cons_of_next (h : op.perform argument r out s = ⟨.ok ⟨v, r', .next⟩, t, ps⟩) :
    run argument r (op :: ops) out s =
      ⟨(run argument r' ops out t).result, (run argument r' ops out t).state,
        ps ++ (run argument r' ops out t).emitted⟩ := by
  rw [run, Exec.bind_of_ok h]

theorem run_cons_of_halt (h : op.perform argument r out s = ⟨.ok ⟨v, r', .halt⟩, t, ps⟩) :
    run argument r (op :: ops) out s = ⟨.ok .halt, t, ps⟩ := by
  rw [run, Exec.bind_of_ok h]
  exact congrArg _ (List.append_nil ps)

/-- The operation that faults leaves the state to those before it. -/
theorem run_cons_of_error {e : Fault} (h : (op.perform argument r out s).result = .error e) :
    run argument r (op :: ops) out s = ⟨.error e, s, []⟩ := by
  rcases hop : op.perform argument r out s with ⟨_, u, qs⟩
  rw [hop] at h
  cases h
  obtain ⟨rfl, rfl⟩ := op.atomic_perform argument r hop
  rw [run, Exec.bind_of_error hop]

theorem Comes.cons {u : State} (h : op.perform argument r out s = ⟨.ok ⟨v, r', .next⟩, t, ps⟩)
    (hs : Comes argument out r' t ops f u qs) :
    Comes argument out r s (op :: ops) f u (ps ++ qs) := by
  cases hs with
  | completed hs => exact .completed (.more h hs)
  | @halted k _ _ _ _ _ _ _ _ hs hk hop =>
      rw [← List.append_assoc]
      exact .halted (k := k + 1) (.more h hs) hk hop
  | @faulted k _ _ _ _ _ hs hk hop => exact .faulted (k := k + 1) (.more h hs) hk hop

/-! ### All of them -/

/-- What has been performed is behind, and the rest is still to come. -/
theorem Performed.run_append (h : Performed argument out r s ops r' t ps) (rest : Routine) :
    run argument r (ops ++ rest) out s =
      ⟨(run argument r' rest out t).result, (run argument r' rest out t).state,
        ps ++ (run argument r' rest out t).emitted⟩ := by
  induction h with
  | none => rfl
  | more h _ ih =>
      rw [List.cons_append, run_cons_of_next h, ih, List.append_assoc]

/-- The operation at the place `k` comes after the first `k`. -/
theorem Performed.run_eq {k : Nat} (h : Performed argument out r s (ops.take k) r' t ps)
    (hk : ops[k]? = some op) :
    run argument r ops out s =
      ⟨(run argument r' (op :: ops.drop (k + 1)) out t).result,
        (run argument r' (op :: ops.drop (k + 1)) out t).state,
        ps ++ (run argument r' (op :: ops.drop (k + 1)) out t).emitted⟩ := by
  have hsplit : ops.take k ++ op :: ops.drop (k + 1) = ops := by
    obtain ⟨hlt, rfl⟩ := List.getElem?_eq_some_iff.mp hk
    rw [List.getElem_cons_drop, List.take_append_drop]
  rw [← h.run_append, hsplit]

theorem comes_of_run (h : run argument r ops out s = ⟨f, t, ps⟩) :
    Comes argument out r s ops f t ps := by
  induction ops generalizing r s f t ps with
  | nil =>
      cases h
      exact .completed (.none r s)
  | cons op ops ih =>
      rcases hop : op.perform argument r out s with ⟨e | ⟨v, r', _ | _⟩, u, qs⟩
      · have hfault : (op.perform argument r out s).result = .error e := by rw [hop]
        rw [run_cons_of_error hfault] at h
        cases h
        exact .faulted (k := 0) (.none r s) rfl hfault
      · rw [run_cons_of_next hop] at h
        cases h
        exact .cons hop (ih rfl)
      · rw [run_cons_of_halt hop] at h
        cases h
        exact .halted (k := 0) (.none r s) rfl hop

theorem Comes.run_eq (h : Comes argument out r s ops f t ps) :
    run argument r ops out s = ⟨f, t, ps⟩ := by
  cases h with
  | @completed _ _ ps h =>
      have hrun := h.run_append []
      rw [List.append_nil] at hrun
      exact hrun.trans (congrArg _ (List.append_nil ps))
  | halted h hk hop => rw [h.run_eq hk, run_cons_of_halt hop]
  | faulted h hk hop => rw [h.run_eq hk, run_cons_of_error hop, List.append_nil]

/-- **A routine comes to what its operations say**, one after another. -/
theorem run_eq_iff :
    run argument r ops out s = ⟨f, t, ps⟩ ↔ Comes argument out r s ops f t ps :=
  ⟨comes_of_run, Comes.run_eq⟩

/-- **A routine stops between two of its operations.**  An operation that faults has changed and
printed nothing, be it one of those that look at the stack or at a place in the code, a standard
instruction, or any other.

So a routine that is the action of an instruction comes to one of three ends, which its operations
decide one after another: it asks for the next instruction, after all of them; it halts at one of
them, and the state is the one after it; or it faults at one of them, and the state is the one
before it, after those that come first.  In a run that comes to such an instruction this is what the
instruction does, from the state whose counter has moved past it.  To whichever end the routine
comes, the code keeps its length, and the counter is where it was, at zero, or in the code. -/
theorem stops_between_operations :
    (∀ (n : Nat) (w : Word) (b : Builtin), (Exec.require n).Atomic ∧ Exec.pop.Atomic ∧
      Exec.popPair.Atomic ∧ Exec.top.Atomic ∧ (Exec.target w).Atomic ∧ (Exec.jump w).Atomic ∧
      (b.action w).Atomic) ∧
    (∀ (op : Operation) (argument : Word) (r : Scratch), (op.perform argument r).Atomic) ∧
    ∀ (ops : Routine) (out : Stdout) (s : State),
      (∀ argument f t ps, action ops argument out s = ⟨f, t, ps⟩ ↔
        Comes argument out {} s ops f t ps) ∧
      (∀ (set : InstructionSet) (code : Code) (i : Instruction), code[s.pc]? = some i →
        set.action? i.opcode = some (action ops) → ∀ f t, set.Performs code out s f t ↔
          ∃ ps, Comes i.argument out {} { s with pc := s.pc + 1 } ops f t ps) ∧
      ∀ argument f t ps, Comes argument out {} s ops f t ps → t.codeLength = s.codeLength ∧
        (t.pc = s.pc ∨ t.pc = 0 ∨ t.pc < s.codeLength) := by
  refine ⟨fun n w b => ⟨.require n, .pop, .popPair, .top, .target w, .jump w, .action b w⟩,
    fun op argument r => op.atomic_perform argument r, fun ops out s => ⟨?_, ?_, ?_⟩⟩
  · exact fun argument f t ps => run_eq_iff
  · intro set code i hi ha f t
    constructor
    · rintro ⟨hi', ha', h⟩
      obtain rfl := Option.some.inj (hi.symm.trans hi')
      obtain rfl := Option.some.inj (ha.symm.trans ha')
      exact ⟨_, run_eq_iff.mp h⟩
    · rintro ⟨ps, h⟩
      exact .intro hi ha (run_eq_iff.mpr h)
  · intro argument f t ps h
    have hevolves := (ops.composed_action argument).evolves out s
    have hrun : action ops argument out s = ⟨f, t, ps⟩ := run_eq_iff.mpr h
    rw [hrun] at hevolves
    exact ⟨hevolves.codeLength_eq, hevolves.pc_cases⟩

/-- One word is written and one taken off before two are asked for and only one is there; the third
operation is to blame, and the jump after it is not reached. -/
theorem stops_between_operations_underflow :
    let ops : Routine := [.writeWord .argument, .pop, .popPair, .jump (.word 0)]
    let s : State := { stack := [8, 9], pc := 2, codeLength := 3 }
    let t : State := { stack := [9], pc := 2, codeLength := 3, output := "5" }
    Comes 5 .connected {} s ops (.error (.stackUnderflow 2 1)) t [] ∧
    action ops 5 .connected s = ⟨.error (.stackUnderflow 2 1), t, []⟩ ∧
    t.codeLength = 3 ∧ (t.pc = 2 ∨ t.pc = 0 ∨ t.pc < 3) := by
  intro ops s t
  have five : "" ++ (5 : Word).text = "5" := by decide
  have writes : Operation.perform 5 {} (.writeWord .argument) .connected s =
      ⟨.ok ⟨.none, {}, .next⟩, { s with output := "5" }, []⟩ := by
    rw [← five]
    rfl
  have pops : Operation.perform 5 {} .pop .connected { s with output := "5" } =
      ⟨.ok ⟨.word 8, ⟨8, 0⟩, .next⟩, t, []⟩ := rfl
  have comes : Comes 5 .connected {} s ops (.error (.stackUnderflow 2 1)) t [] :=
    .faulted (k := 2) (.more writes (.more pops (.none _ _))) rfl rfl
  obtain ⟨-, -, routine⟩ := stops_between_operations
  obtain ⟨stops, -, keeps⟩ := routine ops .connected s
  exact ⟨comes, (stops ..).mpr comes, keeps _ _ _ _ comes⟩

end Routine

end StackMachine
