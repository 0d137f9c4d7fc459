import Mathlib.Algebra.Group.Nat.Defs
import Mathlib.Data.List.Basic
import StackMachine.Proofs.Composed
import StackMachine.Proofs.Execution

/-!
# Proofs — Standard

What each standard instruction does, said without the operations that it is made of.  Performed on
the state `s` with the argument `w`, an instruction is refused with a fault (`Builtin.Refuses`) or
completes (`Builtin.Completes`); it is always one of the two, and its action comes to just that
(`Builtin.performs_exactly`).

There is an order to the reasons for which an instruction is refused.  A jump looks at its target
before anything else.  Then the words on the stack are counted, and whichever operation counts them,
it asks for as many as the table of operands says (`Builtin.needs_action`).  Last of all, `DIV`
looks at its divisor.  An instruction that is refused has changed and printed nothing.  One that
completes has taken its operands off and put other words in their place, and has left the words
below them alone (`Builtin.Completes.exists_stack_eq`).
-/

namespace StackMachine

/-- What becomes of a word that is printed on the stream. -/
def Stdout.take : Stdout → Word → Print
  | .connected, v => .line v
  | .closed,    _ => .failed

/-- The text that words leave on the stream when they are printed: each on a line, in decimal. -/
def Stdout.text : Stdout → List Word → String
  | .connected, vs => String.join (vs.map fun v => v.toInt.repr ++ "\n")
  | .closed,    _  => ""

/-- The quotient of two words, toward zero; the least word divided by -1, whose quotient is no word,
is itself. -/
def Word.IsQuotient (x y z : Word) : Prop :=
  if x = Int64.minValue ∧ y = -1 then z = Int64.minValue else z.toInt = x.toInt.tdiv y.toInt

namespace Builtin

/-- The instruction takes its argument for a place in the code. -/
def IsJump (b : Builtin) : Prop := b = .jmp ∨ b = .jmpz

/-- The fault for which the instruction is refused: the first of these that there is. -/
inductive Refuses (w : Word) (s : State) : Builtin → Fault → Prop where
  | target {b : Builtin} (hb : b.IsJump) (h : w.toInt < 0 ∨ s.codeLength ≤ w.toInt) :
      Refuses w s b (.outOfBounds w s.codeLength)
  | operands {b : Builtin} (hb : b.IsJump → 0 ≤ w.toInt ∧ w.toInt < s.codeLength)
      (h : s.depth < b.operands) : Refuses w s b (.stackUnderflow b.operands s.depth)
  | divisor {x : Word} {ws : List Word} (h : s.stack = 0 :: x :: ws) :
      Refuses w s .div .divisionByZero

/-- The instruction answers `f`, leaves the state `t` and prints the words `vs`. -/
inductive Completes (w : Word) (s : State) : Builtin → Flow → State → List Word → Prop where
  | print {v : Word} {ws : List Word} (h : s.stack = v :: ws) : Completes w s .print .next s [v]
  | loadConst : Completes w s .loadConst .next { s with stack := w :: s.stack } []
  | exit {v : Word} {ws : List Word} (h : s.stack = v :: ws) : Completes w s .exit .halt s []
  | pop {v : Word} {ws : List Word} (h : s.stack = v :: ws) :
      Completes w s .pop .next { s with stack := ws } []
  /-- The sum reduced to 64 bits, in two's complement. -/
  | add {x y z : Word} {ws : List Word} (h : s.stack = y :: x :: ws)
      (hz : z.toInt = (x.toInt + y.toInt).bmod (2 ^ 64)) :
      Completes w s .add .next { s with stack := z :: ws } []
  | div {x y z : Word} {ws : List Word} (h : s.stack = y :: x :: ws) (hy : y ≠ 0)
      (hz : x.IsQuotient y z) : Completes w s .div .next { s with stack := z :: ws } []
  | eq {x y : Word} {ws : List Word} (h : s.stack = y :: x :: ws) :
      Completes w s .eq .next { s with stack := (if x = y then 1 else 0) :: ws } []
  | neq {x y : Word} {ws : List Word} (h : s.stack = y :: x :: ws) :
      Completes w s .neq .next { s with stack := (if x = y then 0 else 1) :: ws } []
  | dup {v : Word} {ws : List Word} (h : s.stack = v :: ws) :
      Completes w s .dup .next { s with stack := v :: v :: ws } []
  | jmp {pc : Nat} (hw : w.toInt = pc) (hpc : pc < s.codeLength) :
      Completes w s .jmp .next { s with pc } []
  | jmpzTaken {pc : Nat} {ws : List Word} (hw : w.toInt = pc) (hpc : pc < s.codeLength)
      (h : s.stack = 0 :: ws) : Completes w s .jmpz .next { s with stack := ws, pc } []
  | jmpzPassed {pc : Nat} {v : Word} {ws : List Word} (hw : w.toInt = pc)
      (hpc : pc < s.codeLength) (h : s.stack = v :: ws) (hv : v ≠ 0) :
      Completes w s .jmpz .next { s with stack := ws } []
  | write {v : Word} {ws : List Word} (h : s.stack = v :: ws) :
      Completes w s .write .next { s with output := s.output ++ v.toInt.repr } []
  /-- The character of the low byte. -/
  | writeChar {v : Word} {c : Char} {ws : List Word} (h : s.stack = v :: ws)
      (hc : (c.toNat : Int) = v.toInt % 256) :
      Completes w s .writeChar .next { s with output := s.output.push c } []

end Builtin

theorem Stdout.printed_take (out : Stdout) (vs : List Word) :
    Effect.printed ((vs.map out.take).map .print) = out.text vs := by
  rw [Effect.printed, List.map_map, List.map_map]
  cases out with
  | connected => rfl
  | closed =>
      induction vs with
      | nil => rfl
      | cons v vs ih => rw [List.map_cons, String.join_cons, ih]; rfl

/-! ### Words -/

namespace Word

theorem isQuotient_div (x y : Word) : x.IsQuotient y (x / y) := by
  rw [IsQuotient]
  split
  · rename_i h
    rw [h.1, h.2, Int64.minValue_div_neg_one]
  · rename_i h
    by_cases hx : x = Int64.minValue
    · exact Int64.toInt_div_of_ne_right x y fun hy => h ⟨hx, hy⟩
    · exact Int64.toInt_div_of_ne_left x y hx

theorem isQuotient_iff {x y z : Word} : x.IsQuotient y z ↔ z = x / y := by
  constructor
  · intro h
    have hdiv := isQuotient_div x y
    rw [IsQuotient] at h hdiv
    split at h
    · rename_i hc
      rw [if_pos hc] at hdiv
      rw [h, hdiv]
    · rename_i hc
      rw [if_neg hc] at hdiv
      exact Int64.toInt_inj.mp (h.trans hdiv.symm)
  · rintro rfl
    exact isQuotient_div x y

theorem toNat_lowChar (v : Word) : (v.lowChar.toNat : Int) = v.toInt % 256 := by
  have hlt : (v.toInt % 256).toNat < 256 := by omega
  have hvalid : (v.toInt % 256).toNat.isValidChar := .inl (by omega)
  rw [lowChar, Char.ofNat, dif_pos hvalid]
  show (((v.toInt % 256).toNat : Nat) : Int) = _
  omega

theorem eq_lowChar {v : Word} {c : Char} (h : (c.toNat : Int) = v.toInt % 256) :
    c = v.lowChar := by
  rw [lowChar, ← h, Int.toNat_natCast, Char.ofNat_toNat]

end Word

namespace Exec

variable {α β : Type}

theorem target_of_eq {out : Stdout} {s : State} {w : Word} {pc : Nat} (hw : w.toInt = pc)
    (hpc : pc < s.codeLength) : target w out s = ⟨.ok pc, s, []⟩ := by
  rw [target_of_lt (by omega), hw, Int.toNat_natCast]

theorem popPair_of_cons {out : Stdout} {s : State} {x y : Word} {ws : List Word}
    (h : s.stack = y :: x :: ws) : popPair out s = ⟨.ok (x, y), { s with stack := ws }, []⟩ := by
  have hd : 2 ≤ s.depth := by simp [State.depth, h]
  rw [popPair, bind_of_ok_nil (require_of_le hd), bind_of_ok_nil (pop_of_cons h),
    bind_of_ok_nil (pop_of_cons rfl)]
  rfl

theorem combine_of_cons {out : Stdout} {s : State} {x y : Word} {ws : List Word}
    (f : Word → Word → Word) (h : s.stack = y :: x :: ws) :
    combine f out s = ⟨.ok .next, { s with stack := f x y :: ws }, []⟩ := by
  rw [combine, bind_of_ok_nil (popPair_of_cons h)]
  rfl

/-- With fewer than `n` words on the stack, the computation faults for want of them, and has done
nothing. -/
def Needs (n : Nat) (x : Exec α) : Prop :=
  ∀ out s, s.depth < n → x out s = ⟨.error (.stackUnderflow n s.depth), s, []⟩

namespace Needs

theorem zero (x : Exec α) : Needs 0 x := fun _ _ h => absurd h (Nat.not_lt_zero _)

theorem bind {n : Nat} {x : Exec α} {f : α → Exec β} (hx : Needs n x) : Needs n (x >>= f) :=
  fun out s h => bind_of_error (hx out s h)

theorem require (n : Nat) : Needs n (require n) := fun _ _ h => require_of_lt h

theorem pop : Needs 1 pop := by
  intro out s h
  have hs : s.stack = [] := List.length_eq_zero_iff.mp (Nat.lt_one_iff.mp h)
  rw [pop_of_nil hs, State.depth, hs]
  rfl

theorem top : Needs 1 top := by
  intro out s h
  have hs : s.stack = [] := List.length_eq_zero_iff.mp (Nat.lt_one_iff.mp h)
  rw [top_of_nil hs, State.depth, hs]
  rfl

theorem combine (f : Word → Word → Word) : Needs 2 (combine f) := .bind (.bind (.require 2))

end Needs

end Exec

namespace Builtin

variable {w : Word} {s t : State} {b : Builtin} {f : Flow} {e : Fault} {vs : List Word}

theorem needs_action (hb : ¬ b.IsJump) (w : Word) : Exec.Needs b.operands (b.action w) := by
  cases b with
  | print | dup | write | writeChar => exact .bind .top
  | pop => exact .bind .pop
  | exit => exact .bind (.require 1)
  | div => exact .bind (.require 2)
  | add => exact .combine _
  | eq => exact .combine fun below top => Word.ofBool (below == top)
  | neq => exact .combine fun below top => Word.ofBool (below != top)
  | loadConst => exact .zero _
  | jmp => exact absurd (.inl rfl) hb
  | jmpz => exact absurd (.inr rfl) hb

theorem action_of_refuses (h : b.Refuses w s e) (out : Stdout) :
    b.action w out s = ⟨.error e, s, []⟩ := by
  cases h with
  | target hb h =>
      have hw : ¬ (0 ≤ w.toInt ∧ w.toInt < s.codeLength) := by omega
      rcases hb with rfl | rfl
      · exact Exec.bind_of_error (Exec.bind_of_error (Exec.target_of_not_lt hw))
      · exact Exec.bind_of_error (Exec.target_of_not_lt hw)
  | operands hb h =>
      by_cases hj : b.IsJump
      · rcases hj with rfl | rfl
        · cases h
        · -- the target has been looked at, and the stack is what is wrong
          refine (Exec.bind_of_ok_nil (Exec.target_of_lt (hb (.inr rfl)))).trans ?_
          exact Exec.Needs.pop.bind out s h
      · exact needs_action hj w out s h
  | divisor h =>
      have hd : 2 ≤ s.depth := by simp [State.depth, h]
      refine (Exec.bind_of_ok_nil (Exec.require_of_le hd)).trans ?_
      exact Exec.bind_of_ok_nil (Exec.top_of_cons h)

theorem action_of_completes (h : b.Completes w s f t vs) (out : Stdout) :
    b.action w out s = ⟨.ok f, t, vs.map out.take⟩ := by
  cases h with
  | print h =>
      refine (Exec.bind_of_ok_nil (Exec.top_of_cons h)).trans ?_
      cases out <;> rfl
  | loadConst => rfl
  | exit h =>
      have hd : 1 ≤ s.depth := by simp [State.depth, h]
      exact Exec.bind_of_ok_nil (Exec.require_of_le hd)
  | pop h => exact Exec.bind_of_ok_nil (Exec.pop_of_cons h)
  | @add x y z ws h hz =>
      obtain rfl : z = x + y := Int64.toInt_inj.mp (hz.trans (Int64.toInt_add x y).symm)
      exact Exec.combine_of_cons _ h
  | div h hy hz =>
      obtain rfl := Word.isQuotient_iff.mp hz
      have hd : 2 ≤ s.depth := by simp [State.depth, h]
      refine (Exec.bind_of_ok_nil (Exec.require_of_le hd)).trans
        ((Exec.bind_of_ok_nil (Exec.top_of_cons h)).trans ?_)
      rw [if_neg hy]
      exact Exec.combine_of_cons _ h
  | @eq x y ws h =>
      refine (Exec.combine_of_cons (fun below top => Word.ofBool (below == top)) h).trans ?_
      simp [Word.ofBool]
  | @neq x y ws h =>
      refine (Exec.combine_of_cons (fun below top => Word.ofBool (below != top)) h).trans ?_
      by_cases hxy : x = y <;> simp [Word.ofBool, hxy]
  | dup h =>
      rw [← h]
      exact Exec.bind_of_ok_nil (Exec.top_of_cons h)
  | @jmp pc hw hpc =>
      have ht : Exec.target w out s = ⟨.ok pc, s, []⟩ := Exec.target_of_eq hw hpc
      exact Exec.bind_of_ok_nil ((Exec.bind_of_ok_nil ht).trans rfl)
  | jmpzTaken hw hpc h =>
      exact (Exec.bind_of_ok_nil (Exec.target_of_eq hw hpc)).trans
        (Exec.bind_of_ok_nil (Exec.pop_of_cons h))
  | jmpzPassed hw hpc h hv =>
      refine (Exec.bind_of_ok_nil (Exec.target_of_eq hw hpc)).trans
        ((Exec.bind_of_ok_nil (Exec.pop_of_cons h)).trans ?_)
      rw [if_neg hv]
      rfl
  | write h => exact Exec.bind_of_ok_nil (Exec.top_of_cons h)
  | writeChar h hc =>
      obtain rfl := Word.eq_lowChar hc
      exact Exec.bind_of_ok_nil (Exec.top_of_cons h)

/-- An instruction whose target is a place, if it has one, and that finds its operands, completes
unless it divides by zero. -/
theorem completes_or_refuses_divisor (ht : b.IsJump → 0 ≤ w.toInt ∧ w.toInt < s.codeLength)
    (hd : b.operands ≤ s.depth) :
    (∃ f t vs, b.Completes w s f t vs) ∨ b.Refuses w s .divisionByZero := by
  have hone (h : b.operands = 1) : ∃ v ws, s.stack = v :: ws :=
    List.exists_cons_of_length_pos (Nat.lt_of_lt_of_le Nat.one_pos (h ▸ hd))
  have htwo (h : b.operands = 2) : ∃ y x ws, s.stack = y :: x :: ws := by
    match hs : s.stack with
    | []           => simp [State.depth, hs, h] at hd
    | [_]          => simp [State.depth, hs, h] at hd
    | y :: x :: ws => exact ⟨y, x, ws, rfl⟩
  have hplace (h : b.IsJump) : ∃ pc : Nat, w.toInt = pc ∧ pc < s.codeLength := by
    obtain ⟨pc, hpc⟩ := Int.eq_ofNat_of_zero_le (ht h).1
    exact ⟨pc, hpc, by have := (ht h).2; omega⟩
  cases b with
  | loadConst => exact .inl ⟨_, _, _, .loadConst⟩
  | print | exit | pop | dup | write =>
      obtain ⟨v, ws, hs⟩ := hone rfl
      exact .inl ⟨_, _, _, by constructor; exact hs⟩
  | writeChar =>
      obtain ⟨v, ws, hs⟩ := hone rfl
      exact .inl ⟨_, _, _, .writeChar hs (Word.toNat_lowChar v)⟩
  | add =>
      obtain ⟨y, x, ws, hs⟩ := htwo rfl
      exact .inl ⟨_, _, _, .add hs (Int64.toInt_add x y)⟩
  | eq =>
      obtain ⟨y, x, ws, hs⟩ := htwo rfl
      exact .inl ⟨_, _, _, .eq hs⟩
  | neq =>
      obtain ⟨y, x, ws, hs⟩ := htwo rfl
      exact .inl ⟨_, _, _, .neq hs⟩
  | div =>
      obtain ⟨y, x, ws, hs⟩ := htwo rfl
      by_cases hy : y = 0
      · exact .inr (.divisor (hy ▸ hs))
      · exact .inl ⟨_, _, _, .div hs hy (Word.isQuotient_div x y)⟩
  | jmp =>
      obtain ⟨pc, hw, hpc⟩ := hplace (.inl rfl)
      exact .inl ⟨_, _, _, .jmp hw hpc⟩
  | jmpz =>
      obtain ⟨pc, hw, hpc⟩ := hplace (.inr rfl)
      obtain ⟨v, ws, hs⟩ := hone rfl
      by_cases hv : v = 0
      · exact .inl ⟨_, _, _, .jmpzTaken hw hpc (hv ▸ hs)⟩
      · exact .inl ⟨_, _, _, .jmpzPassed hw hpc hs hv⟩

/-- **An instruction is refused or completes**, whatever it is performed on. -/
theorem refuses_or_completes (b : Builtin) (w : Word) (s : State) :
    (∃ e, b.Refuses w s e) ∨ ∃ f t vs, b.Completes w s f t vs := by
  by_cases ht : b.IsJump → 0 ≤ w.toInt ∧ w.toInt < s.codeLength
  · rcases Nat.lt_or_ge s.depth b.operands with hd | hd
    · exact .inl ⟨_, .operands ht hd⟩
    · exact (completes_or_refuses_divisor ht hd).symm.imp_left fun h => ⟨_, h⟩
  · rw [Classical.not_imp] at ht
    exact .inl ⟨_, .target ht.1 (by omega)⟩

theorem action_eq_error_iff {out : Stdout} {ps : List Print} :
    b.action w out s = ⟨.error e, t, ps⟩ ↔ b.Refuses w s e ∧ t = s ∧ ps = [] := by
  constructor
  · intro h
    obtain ⟨e', hr⟩ | ⟨f, u, vs, hc⟩ := b.refuses_or_completes w s
    · rw [action_of_refuses hr] at h
      cases h
      exact ⟨hr, rfl, rfl⟩
    · rw [action_of_completes hc] at h
      cases h
  · rintro ⟨hr, rfl, rfl⟩
    exact action_of_refuses hr out

theorem action_eq_ok_iff {out : Stdout} {ps : List Print} :
    b.action w out s = ⟨.ok f, t, ps⟩ ↔ ∃ vs, b.Completes w s f t vs ∧ ps = vs.map out.take := by
  constructor
  · intro h
    obtain ⟨e, hr⟩ | ⟨f', u, vs, hc⟩ := b.refuses_or_completes w s
    · rw [action_of_refuses hr] at h
      cases h
    · rw [action_of_completes hc] at h
      cases h
      exact ⟨vs, hc, rfl⟩
  · rintro ⟨vs, hc, rfl⟩
    exact action_of_completes hc out

/-! ### What completing leaves as it is -/

namespace Completes

theorem flow_eq_halt_iff (h : b.Completes w s f t vs) : f = .halt ↔ b = .exit := by
  cases h <;> simp

theorem codeLength_eq (h : b.Completes w s f t vs) : t.codeLength = s.codeLength := by
  cases h <;> rfl

/-- As many words are taken as there are operands, others are put in their place, and what is below
them stays. -/
theorem exists_stack_eq (h : b.Completes w s f t vs) :
    ∃ taken left rest, taken.length = b.operands ∧ s.stack = taken ++ rest ∧
      t.stack = left ++ rest := by
  cases h with
  | loadConst => exact ⟨[], [w], s.stack, rfl, rfl, rfl⟩
  | jmp => exact ⟨[], [], s.stack, rfl, rfl, rfl⟩
  | @print v _ h | @exit v _ h | @write v _ h | @writeChar v _ _ h =>
      exact ⟨[v], [v], _, rfl, h, h⟩
  | @pop v _ h | @jmpzTaken _ v _ _ h | @jmpzPassed _ v _ _ _ h =>
      exact ⟨[_], [], _, rfl, h, rfl⟩
  | @dup v _ h => exact ⟨[v], [v, v], _, rfl, h, rfl⟩
  | @add x y z _ h | @div x y z _ h => exact ⟨[y, x], [z], _, rfl, h, rfl⟩
  | @eq x y _ h | @neq x y _ h => exact ⟨[y, x], [_], _, rfl, h, rfl⟩

/-- The counter is left alone by all but jumps, and they set it to their target. -/
theorem pc_cases (h : b.Completes w s f t vs) :
    t.pc = s.pc ∨ b.IsJump ∧ w.toInt = t.pc ∧ t.pc < s.codeLength := by
  cases h with
  | jmp hw hpc => exact .inr ⟨.inl rfl, hw, hpc⟩
  | jmpzTaken hw hpc => exact .inr ⟨.inr rfl, hw, hpc⟩
  | _ => exact .inl rfl

end Completes

/-- **Each standard instruction does exactly what it is for.**  Its action ends in a fault exactly
if the instruction is refused with that fault, and then the state is as it was and nothing is
printed.  It answers, leaves a state and prints exactly as the instruction completes, and each word
that is printed is a decimal text on a line of standard output, unless that is closed.  It is `EXIT`
alone that halts, the code keeps its length, and no word below the operands is touched. -/
theorem performs_exactly (b : Builtin) (w : Word) (out : Stdout) (s : State) :
    (∀ e t ps, b.action w out s = ⟨.error e, t, ps⟩ ↔ b.Refuses w s e ∧ t = s ∧ ps = []) ∧
    (∀ f t ps, b.action w out s = ⟨.ok f, t, ps⟩ ↔
      ∃ vs, b.Completes w s f t vs ∧ ps = vs.map out.take) ∧
    ∀ f t vs, b.Completes w s f t vs →
      (f = .halt ↔ b = .exit) ∧ t.codeLength = s.codeLength ∧
      (∃ taken left rest, taken.length = b.operands ∧ s.stack = taken ++ rest ∧
        t.stack = left ++ rest) ∧
      Effect.printed ((b.action w out s).emitted.map .print) = out.text vs := by
  refine ⟨fun _ _ _ => action_eq_error_iff, fun _ _ _ => action_eq_ok_iff, fun f t vs h =>
    ⟨h.flow_eq_halt_iff, h.codeLength_eq, h.exists_stack_eq, ?_⟩⟩
  rw [action_of_completes h]
  exact out.printed_take vs

/-- The one quotient that is no word; a jump that is out of bounds and has no operand either; and a
line that is printed. -/
theorem performs_exactly_least :
    let s : State := { stack := [-1, Int64.minValue, 7], pc := 3, codeLength := 5, output := "a" }
    let t : State := { s with stack := [Int64.minValue, 7] }
    Builtin.div.Completes 9 s .next t [] ∧ Builtin.div.action 9 .closed s = ⟨.ok .next, t, []⟩ ∧
    (∃ taken left rest, taken.length = 2 ∧ s.stack = taken ++ rest ∧ t.stack = left ++ rest) ∧
    Builtin.jmpz.action 5 .closed { s with stack := [] } =
      ⟨.error (.outOfBounds 5 5), { s with stack := [] }, []⟩ ∧
    Effect.printed ((Builtin.print.action 0 .connected s).emitted.map .print) = "-1\n" := by
  intro s t
  have divides : Builtin.div.Completes 9 s .next t [] := .div rfl (by decide) rfl
  obtain ⟨-, completes, leaves⟩ := performs_exactly .div 9 .closed s
  obtain ⟨-, -, stack, -⟩ := leaves _ _ _ divides
  obtain ⟨refused, -, -⟩ := performs_exactly .jmpz 5 .closed { s with stack := [] }
  have prints : Builtin.print.Completes 0 s .next s [-1] := .print rfl
  obtain ⟨-, -, printed⟩ := performs_exactly .print 0 .connected s
  obtain ⟨-, -, -, line⟩ := printed _ _ _ prints
  exact ⟨divides, (completes _ _ _).mpr ⟨[], divides, rfl⟩, stack,
    (refused _ _ _).mpr ⟨.target (.inr rfl) (by decide), rfl, rfl⟩, line.trans (by decide)⟩

end Builtin

end StackMachine
