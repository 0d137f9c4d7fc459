import StackMachine.Proofs.Loop
import StackMachine.Proofs.Source
import StackMachine.Proofs.Standard

/-!
# Proofs — Postfix

Expressions as programs.  An expression is made of words by addition, division and the two
comparisons; it has a value (`Expression.Evaluates`) unless somewhere in it the denominator of a
division is zero (`Expression.DividesByZero`).  Its source is the walk over it in postfix order, an
instruction on each line, and `EXIT` after that.

Wherever the code of an expression stands in a program, it runs from its first instruction to the
place after its last and leaves the value on top of the stack (`Expression.Evaluates.iterates`), or
it ends at a division before that (`Expression.DividesByZero.fails`).  Both follow the shape of the
expression: the values of the operands are on the stack, the right one on top, when the instruction
of the operator comes.
-/

namespace StackMachine

/-! ### Expressions -/

/-- What can be computed of two words. -/
inductive Operator
  | add
  | div
  | eq
  | neq
  deriving DecidableEq, Repr

/-- The instruction of the operator. -/
def Operator.builtin : Operator → Builtin
  | add => .add
  | div => .div
  | eq  => .eq
  | neq => .neq

/-- What the operator makes of `x` and `y`; a division by zero yields nothing. -/
inductive Operator.Yields (x y : Word) : Operator → Word → Prop where
  /-- The sum reduced to 64 bits, in two's complement. -/
  | add {z : Word} (hz : z.toInt = (x.toInt + y.toInt).bmod (2 ^ 64)) : Yields x y .add z
  | div {z : Word} (hy : y ≠ 0) (hz : x.IsQuotient y z) : Yields x y .div z
  | eq : Yields x y .eq (if x = y then 1 else 0)
  | neq : Yields x y .neq (if x = y then 0 else 1)

/-- An expression over words. -/
inductive Expression
  | const (value : Word)
  | binary (op : Operator) (left right : Expression)
  deriving DecidableEq, Repr

namespace Expression

/-- The word is the value of the expression. -/
inductive Evaluates : Expression → Word → Prop where
  | const (w : Word) : Evaluates (.const w) w
  | binary {op : Operator} {l r : Expression} {x y z : Word} (hl : Evaluates l x)
      (hr : Evaluates r y) (h : op.Yields x y z) : Evaluates (.binary op l r) z

/-- The denominator of a division in the expression evaluates to zero. -/
inductive DividesByZero : Expression → Prop where
  | here {l r : Expression} (h : r.Evaluates 0) : DividesByZero (.binary .div l r)
  | left {op : Operator} {l r : Expression} (h : DividesByZero l) : DividesByZero (.binary op l r)
  | right {op : Operator} {l r : Expression} (h : DividesByZero r) : DividesByZero (.binary op l r)

/-- The number of nodes. -/
def size : Expression → Nat
  | const _      => 1
  | binary _ l r => l.size + r.size + 1

/-- The lines of the nodes: the operands first, left before right. -/
def lines : Expression → List String
  | const value   => ["LOAD_CONST " ++ value.text]
  | binary op l r => l.lines ++ r.lines ++ [op.builtin.mnemonic]

/-- The source that evaluates the expression. -/
def source (e : Expression) : String := "\n".intercalate (e.lines ++ ["EXIT"])

end Expression

section Values

variable {op : Operator} {e : Expression} {x y z z' v v' : Word}

theorem Operator.Yields.unique (h : op.Yields x y z) (h' : op.Yields x y z') : z = z' := by
  cases h with
  | add hz =>
      cases h' with
      | add hz' => exact Int64.toInt_inj.mp (hz.trans hz'.symm)
  | div _ hz =>
      cases h' with
      | div _ hz' => exact (Word.isQuotient_iff.mp hz).trans (Word.isQuotient_iff.mp hz').symm
  | eq => cases h'; rfl
  | neq => cases h'; rfl

theorem Operator.yields_or_divides (op : Operator) (x y : Word) :
    (∃ z, op.Yields x y z) ∨ op = .div ∧ y = 0 := by
  cases op with
  | add => exact .inl ⟨_, .add (Int64.toInt_add x y)⟩
  | eq => exact .inl ⟨_, .eq⟩
  | neq => exact .inl ⟨_, .neq⟩
  | div =>
      by_cases hy : y = 0
      · exact .inr ⟨rfl, hy⟩
      · exact .inl ⟨_, .div hy (Word.isQuotient_div x y)⟩

/-- **There is one value.** -/
theorem Expression.Evaluates.unique (h : e.Evaluates v) (h' : e.Evaluates v') : v = v' := by
  induction h generalizing v' with
  | const w => cases h'; rfl
  | binary _ _ h ihl ihr =>
      cases h' with
      | binary hl hr h' =>
          obtain rfl := ihl hl
          obtain rfl := ihr hr
          exact h.unique h'

theorem Expression.Evaluates.not_dividesByZero (h : e.Evaluates v) : ¬ e.DividesByZero := by
  induction h with
  | const w => nofun
  | binary _ hr h ihl ihr =>
      intro hd
      cases hd with
      | left hl => exact ihl hl
      | right hr => exact ihr hr
      | here h0 =>
          cases h with
          | div hy _ => exact hy (hr.unique h0)

/-- **An expression has a value or divides by zero.** -/
theorem Expression.evaluates_or_dividesByZero (e : Expression) :
    (∃ v, e.Evaluates v) ∨ e.DividesByZero := by
  induction e with
  | const w => exact .inl ⟨w, .const w⟩
  | binary op l r ihl ihr =>
      rcases ihl with ⟨x, hx⟩ | hl
      · rcases ihr with ⟨y, hy⟩ | hr
        · rcases op.yields_or_divides x y with ⟨z, hz⟩ | ⟨rfl, rfl⟩
          · exact .inl ⟨z, .binary hx hy hz⟩
          · exact .inr (.here hy)
        · exact .inr (.right hr)
      · exact .inr (.left hl)

end Values

/-! ### The code of an expression -/

/-- The opcode of a standard instruction. -/
def Builtin.opcode (b : Builtin) : Opcode := UInt32.ofNat (all.idxOf b)

theorem Builtin.mnemonic?_opcode (b : Builtin) :
    InstructionSet.standard.mnemonic? b.opcode = some b.mnemonic := by
  cases b <;> rfl

theorem Builtin.action?_opcode (b : Builtin) :
    InstructionSet.standard.action? b.opcode = some b.action := by
  cases b <;> rfl

/-- An instruction of which the mnemonic alone is written. -/
theorem Builtin.spells_mnemonic (b : Builtin) :
    Line.Spells .standard b.mnemonic.toList ⟨b.opcode, 0⟩ := by
  have hw : InstructionSet.standard.writeLine true ⟨b.opcode, 0⟩ = .ok b.mnemonic := by
    simp [InstructionSet.writeLine, b.mnemonic?_opcode]
  exact InstructionSet.wellFormed_standard.spells_of_writeLine (by decide) hw

/-- An instruction of which the argument is written after the mnemonic. -/
theorem Builtin.spells_argument (b : Builtin) (w : Word) :
    Line.Spells .standard (b.mnemonic ++ " " ++ w.text).toList ⟨b.opcode, w⟩ := by
  have hw : InstructionSet.standard.writeLine false ⟨b.opcode, w⟩ =
      .ok (b.mnemonic ++ " " ++ w.text) := by
    simp [InstructionSet.writeLine, b.mnemonic?_opcode]
  exact InstructionSet.wellFormed_standard.spells_of_writeLine (by decide) hw

theorem Builtin.spells_count (b : Builtin) {n : Nat} (h : n < 2 ^ 63) :
    Line.Spells .standard (b.mnemonic ++ " " ++ n.repr).toList ⟨b.opcode, .ofCount n⟩ := by
  rw [← Word.text_ofCount h]
  exact b.spells_argument _

namespace Expression

/-- The instructions of the nodes, in the order of their lines. -/
def instructions : Expression → List Instruction
  | const value   => [⟨Builtin.loadConst.opcode, value⟩]
  | binary op l r => l.instructions ++ r.instructions ++ [⟨op.builtin.opcode, 0⟩]

/-- The code that evaluates the expression. -/
def code (e : Expression) : Code :=
  (e.instructions ++ [(⟨Builtin.exit.opcode, 0⟩ : Instruction)]).toArray

@[simp] theorem length_instructions (e : Expression) : e.instructions.length = e.size := by
  induction e with
  | const w => rfl
  | binary op l r ihl ihr => simp [instructions, size, ihl, ihr, Nat.add_assoc]

theorem size_code (e : Expression) : e.code.size = e.size + 1 := by simp [code]

theorem spells_lines (e : Expression) :
    List.Forall₂ (fun (l : String) i => Line.Spells .standard l.toList i) e.lines
      e.instructions := by
  induction e with
  | const w => exact .cons (Builtin.loadConst.spells_argument w) .nil
  | binary op l r ihl ihr =>
      exact List.rel_append (List.rel_append ihl ihr) (.cons op.builtin.spells_mnemonic .nil)

theorem assemble_source (e : Expression) :
    InstructionSet.standard.assemble e.source = .ok e.code :=
  InstructionSet.wellFormed_standard.assemble_intercalate
    (List.rel_append e.spells_lines (.cons Builtin.exit.spells_mnemonic .nil))

end Expression

/-! ### Running the code -/

/-- The instructions stand in the code from a place on. -/
def Code.HasAt (code : Code) (pc : Nat) (is : List Instruction) : Prop :=
  ∀ (k : Nat) (i : Instruction), is[k]? = some i → code[pc + k]? = some i

namespace Code.HasAt

variable {code : Code} {pc : Nat} {i : Instruction} {is js : List Instruction}

theorem left (h : code.HasAt pc (is ++ js)) : code.HasAt pc is := fun k i hi =>
  h k i (by rw [List.getElem?_append_left (List.getElem?_eq_some_iff.mp hi).1, hi])

theorem right (h : code.HasAt pc (is ++ js)) : code.HasAt (pc + is.length) js := fun k i hi => by
  rw [Nat.add_assoc]
  refine h _ i ?_
  rw [List.getElem?_append_right (Nat.le_add_right _ _), Nat.add_sub_cancel_left, hi]

theorem head (h : code.HasAt pc (i :: is)) : code[pc]? = some i := h 0 i rfl

theorem toArray (is : List Instruction) : HasAt is.toArray 0 is := fun k i hi => by
  rw [Nat.zero_add, List.getElem?_toArray, hi]

end Code.HasAt

section Run

variable {code : Code} {out : Stdout} {s t : State} {b : Builtin} {w x y z v : Word} {f : Flow}
  {vs : List Word} {op : Operator} {e : Expression}

theorem Builtin.Completes.performs (hi : code[s.pc]? = some ⟨b.opcode, w⟩)
    (h : b.Completes w { s with pc := s.pc + 1 } f t vs) :
    InstructionSet.standard.Performs code out s (.ok f) t :=
  .intro hi b.action?_opcode (action_of_completes h out)

theorem Builtin.Refuses.performs {fault : Fault} (hi : code[s.pc]? = some ⟨b.opcode, w⟩)
    (h : b.Refuses w { s with pc := s.pc + 1 } fault) :
    InstructionSet.standard.Performs code out s (.error fault) { s with pc := s.pc + 1 } :=
  .intro hi b.action?_opcode (action_of_refuses h out)

/-- An operator takes its operands off the stack and puts what it yields in their place. -/
theorem Operator.Yields.completes {ws : List Word} (h : op.Yields x y z)
    (hs : s.stack = y :: x :: ws) (w : Word) :
    op.builtin.Completes w s .next { s with stack := z :: ws } [] := by
  cases h with
  | add hz => exact .add hs hz
  | div hy hz => exact .div hs hy hz
  | eq => exact .eq hs
  | neq => exact .neq hs

/-- **The code of an expression leaves its value on the stack**, after one instruction for each
node. -/
theorem Expression.Evaluates.iterates (out : Stdout) (h : e.Evaluates v)
    (hc : code.HasAt s.pc e.instructions) :
    InstructionSet.standard.Iterates code out s e.size .next
      { s with stack := v :: s.stack, pc := s.pc + e.size } := by
  induction h generalizing s with
  | const w => exact .more .none (Builtin.Completes.loadConst.performs hc.head)
  | @binary op l r x y z _ _ h ihl ihr =>
      have hleft := ihl hc.left.left
      have hright := ihr (s := { s with stack := x :: s.stack, pc := s.pc + l.size })
        (by simpa using hc.left.right)
      have hoperands : InstructionSet.standard.Iterates code out s (l.size + r.size) .next
          { s with stack := y :: x :: s.stack, pc := s.pc + (l.size + r.size) } := by
        rw [← Nat.add_assoc]
        exact hleft.trans hright
      have hop : code[s.pc + (l.size + r.size)]? = some ⟨op.builtin.opcode, 0⟩ := by
        simpa using hc.right.head
      exact .more hoperands ((h.completes rfl 0).performs hop)

/-- **It ends at a division by zero** if there is one, with nothing written. -/
theorem Expression.DividesByZero.fails (out : Stdout) (h : e.DividesByZero)
    (hc : code.HasAt s.pc e.instructions) :
    ∃ n < e.size, ∃ t u, InstructionSet.standard.Iterates code out s n .next t ∧
      InstructionSet.standard.Fails code out t .divisionByZero u ∧ u.output = s.output := by
  induction e generalizing s with
  | const w => cases h
  | binary op l r ihl ihr =>
      -- the first operand that has no value faults, and if both have one it is the operator
      rcases l.evaluates_or_dividesByZero with ⟨x, hx⟩ | hl
      · have hleft := hx.iterates out hc.left.left
        have hcode : code.HasAt (s.pc + l.size) r.instructions := by simpa using hc.left.right
        rcases r.evaluates_or_dividesByZero with ⟨y, hy⟩ | hr
        · cases h with
          | left hl => exact absurd hl hx.not_dividesByZero
          | right hr => exact absurd hr hy.not_dividesByZero
          | here h0 =>
              obtain rfl := hy.unique h0
              have hright := hy.iterates out
                (s := { s with stack := x :: s.stack, pc := s.pc + l.size }) hcode
              have hop : code[s.pc + l.size + r.size]? = some ⟨Builtin.div.opcode, 0⟩ := by
                simpa [Operator.builtin, Nat.add_assoc] using hc.right.head
              exact ⟨_, Nat.lt_succ_self _, _, _, hleft.trans hright,
                .action ((Builtin.Refuses.divisor rfl).performs hop), rfl⟩
        · obtain ⟨n, hn, t, u, ht, hu, hs⟩ :=
            ihr (s := { s with stack := x :: s.stack, pc := s.pc + l.size }) hr hcode
          exact ⟨l.size + n, by rw [size]; omega, t, u, hleft.trans ht, hu, hs⟩
      · obtain ⟨n, hn, t, u, ht, hu, hs⟩ := ihl hl hc.left.left
        exact ⟨n, by rw [size]; omega, t, u, ht, hu, hs⟩

end Run

namespace Machine

/-- **Postfix programs evaluate expressions.**  The source of an expression always assembles, with a
line break at the end or without.  Run on a standard machine whose counter is at zero, with a budget
that has an instruction for each node and one more, or with none, it halts after just as many, if no
denominator in the expression is zero: the result is the one value that the expression has, which is
left on top of the stack as it was, and the output is as it was too.  Otherwise the run ends in a
division by zero, before the last node, and has written nothing. -/
theorem postfix_evaluates (e : Expression) (m : Machine) (out : Stdout) (budget : Option Nat)
    (hm : m.instructions = .standard) (hpc : m.state.pc = 0)
    (hb : ∀ limit ∈ budget, e.size + 1 ≤ limit) :
    m.instructions.assemble e.source = .ok e.code ∧
    m.instructions.assemble (e.source ++ "\n") = .ok e.code ∧
    (¬ e.DividesByZero → ∃ v, (∀ w, e.Evaluates w ↔ w = v) ∧
      ∃ report, m.Reports e.code out budget (e.size + 1) report ∧
        report.result = .ok ⟨v, m.state.output⟩ ∧
        report.machine.state = { m.state with
          stack := v :: m.state.stack, pc := e.size + 1, codeLength := e.size + 1 }) ∧
    (e.DividesByZero → ∃ n < e.size, ∃ report, m.Reports e.code out budget n report ∧
      report.result = .error .divisionByZero ∧ report.machine.state.output = m.state.output) := by
  obtain ⟨set, ⟨stack, pc, codeLength, output⟩, debug⟩ := m
  obtain rfl : set = .standard := hm
  obtain rfl : pc = 0 := hpc
  have hcode : e.code.HasAt 0 (e.instructions ++ [(⟨Builtin.exit.opcode, 0⟩ : Instruction)]) :=
    .toArray _
  refine ⟨e.assemble_source, ?_, fun hd => ?_, fun hd => ?_⟩
  · exact InstructionSet.wellFormed_standard.assemble_append_break.mpr e.assemble_source
  · obtain ⟨v, hv⟩ := e.evaluates_or_dividesByZero.resolve_right hd
    have hnodes := hv.iterates out (s := ⟨stack, 0, e.code.size, output⟩) hcode.left
    have hexit : e.code[0 + e.size]? = some ⟨Builtin.exit.opcode, 0⟩ := by
      simpa using hcode.right.head
    have hhalts := hnodes.more ((Builtin.Completes.exit rfl).performs hexit)
    obtain ⟨report, hr, hresult, hmachine⟩ := exists_reports_of_closes
      (m := ⟨.standard, ⟨stack, 0, codeLength, output⟩, debug⟩) hhalts hb (.answer rfl)
    refine ⟨v, fun w => ⟨fun hw => hw.unique hv, fun hw => hw ▸ hv⟩, report, hr, hresult, ?_⟩
    simp [hmachine, e.size_code]
  · obtain ⟨n, hn, t, u, ht, hu, houtput⟩ :=
      hd.fails out (s := ⟨stack, 0, e.code.size, output⟩) hcode.left
    have hlimit : ∀ limit ∈ budget, n < limit := fun limit hl => by have := hb limit hl; omega
    obtain ⟨report, hr, hresult, hmachine⟩ := exists_reports_of_closes
      (m := ⟨.standard, ⟨stack, 0, codeLength, output⟩, debug⟩) ht
      (fun limit hl => (hlimit limit hl).le)
      (.failed (fun hbudget => (hlimit n hbudget).false) hu)
    exact ⟨n, hn, report, hr, hresult, by rw [hmachine, houtput]⟩

/-- The one quotient that is no word, in a sum that wraps; and a comparison for a denominator. -/
theorem postfix_evaluates_wrapped :
    let m : Machine := { state := { stack := [5], output := "a" } }
    let sum : Expression :=
      .binary .add (.binary .div (.const Int64.minValue) (.const (-1))) (.const (-1))
    let quotient : Expression := .binary .div (.const 7) (.binary .eq (.const 3) (.const 4))
    sum.source =
      "LOAD_CONST -9223372036854775808\nLOAD_CONST -1\nDIV\nLOAD_CONST -1\nADD\nEXIT" ∧
    (∃ report, m.Reports sum.code .connected (some 6) 6 report ∧
      report.result = .ok ⟨Int64.maxValue, "a"⟩ ∧ report.machine.state =
        { stack := [Int64.maxValue, 5], pc := 6, codeLength := 6, output := "a" }) ∧
    ∃ n < 5, ∃ report, m.Reports quotient.code .closed none n report ∧
      report.result = .error .divisionByZero ∧ report.machine.state.output = "a" := by
  intro m sum quotient
  have hsum : sum.Evaluates Int64.maxValue :=
    .binary (.binary (.const _) (.const _) (.div (by decide) rfl)) (.const _) (.add (by decide))
  have hquotient : quotient.DividesByZero := .here (.binary (.const 3) (.const 4) .eq)
  obtain ⟨-, -, hvalue, -⟩ := postfix_evaluates sum m .connected (some 6) rfl rfl (by decide)
  obtain ⟨-, -, -, hfault⟩ := postfix_evaluates quotient m .closed none rfl rfl nofun
  obtain ⟨v, hv, report, hr, hresult, hstate⟩ := hvalue hsum.not_dividesByZero
  obtain rfl := (hv _).mp hsum
  exact ⟨by decide +kernel, ⟨report, hr, hresult, hstate⟩, hfault hquotient⟩

end Machine

end StackMachine
