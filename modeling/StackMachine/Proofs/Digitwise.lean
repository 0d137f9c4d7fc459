import StackMachine.Proofs.Execution
import StackMachine.Proofs.Listed
import StackMachine.Proofs.Literal
import StackMachine.Proofs.Standard

/-!
# Proofs — Digitwise

Literals read one digit after another, in words throughout.  The value of the digits so far is
multiplied by ten, and then the next digit is added to it, or taken from it after a minus sign; as
soon as one of the two results is no word, there is no value (`Word.appendDigit?`).  Reading stops
at the first character that is no digit, and a text is a literal only if nothing is left of it
(`Word.readAll?`).

A value that is too large for a word only grows with the digits after it (`Word.fits_of_le`), on
either side of zero.  So the look at every beginning refuses no literal but those whose value is no
word, and reading by digits comes to what reading by value does (`Word.readAll?_eq`).

`Word.literals_read_exactly` puts the two next to the grammar of literals, and says that whatever is
written, printed or listed for a word is read as that word.
-/

namespace StackMachine

namespace Word

/-! ### Reading by digits -/

/-- The product, if it is a word. -/
def checkedMul? (x y : Word) : Option Word := ofInt? (x.toInt * y.toInt)

/-- The sum, if it is a word. -/
def checkedAdd? (x y : Word) : Option Word := ofInt? (x.toInt + y.toInt)

/-- The difference, if it is a word. -/
def checkedSub? (x y : Word) : Option Word := ofInt? (x.toInt - y.toInt)

/-- The value of a digit. -/
def digit (d : Char) : Word := .ofNat (d.toNat - '0'.toNat)

/-- The value with one more digit after it.  Below zero the digit is taken off, since the least word
is not the negation of one. -/
def appendDigit? (negative : Bool) (w : Word) (d : Char) : Option Word := do
  let tens ← w.checkedMul? 10
  if negative then tens.checkedSub? (digit d) else tens.checkedAdd? (digit d)

/-- The value of the digits that come first, after those that `w` stands for, and what is left. -/
def readDigits? (negative : Bool) : Word → List Char → Option (Word × List Char)
  | w, []      => some (w, [])
  | w, c :: cs =>
    if c.isDigit then (appendDigit? negative w c).bind fun v => readDigits? negative v cs
    else some (w, c :: cs)

/-- Whether a minus sign comes first, and what comes after the sign if there is one. -/
def takeSign : List Char → Bool × List Char
  | '-' :: cs => (true, cs)
  | '+' :: cs => (false, cs)
  | cs        => (false, cs)

/-- The value of the literal that comes first, and what is left. -/
def readLiteral? (cs : List Char) : Option (Word × List Char) :=
  let (negative, ds) := takeSign cs
  if ds.head?.any Char.isDigit then readDigits? negative 0 ds else none

/-- The value of a text that is a literal and nothing more. -/
def readAll? (s : String) : Option Word :=
  match readLiteral? s.toList with
  | some (w, []) => some w
  | _            => none

/-! ### The value of the digits -/

/-- The integer with this absolute value. -/
def signed (negative : Bool) (n : Nat) : Int := if negative then -n else n

theorem signed_mul (negative : Bool) (m n : Nat) :
    signed negative (m * n) = signed negative m * n := by
  cases negative with
  | false => exact Int.natCast_mul m n
  | true => exact (congrArg Neg.neg (Int.natCast_mul m n)).trans (Int.neg_mul _ _).symm

theorem signed_add (negative : Bool) (m n : Nat) :
    signed negative (m + n) =
      if negative then signed negative m - n else signed negative m + n := by
  cases negative <;> simp only [signed, Bool.false_eq_true, if_true, if_false] <;> omega

/-- The integer is the value of some word. -/
def Fits (i : Int) : Prop := -2 ^ 63 ≤ i ∧ i ≤ 2 ^ 63 - 1

theorem ofInt?_eq_some_iff_toInt {i : Int} {w : Word} : ofInt? i = some w ↔ w.toInt = i := by
  constructor
  · intro h
    obtain ⟨⟨hlo, hhi⟩, rfl⟩ := ofInt?_eq_some_iff.mp h
    exact Int64.toInt_ofInt_of_le hlo (by omega)
  · rintro rfl
    exact ofInt?_toInt w

theorem exists_toInt_eq {i : Int} (h : Fits i) : ∃ w : Word, w.toInt = i :=
  ⟨.ofInt i, ofInt?_eq_some_iff_toInt.mp (ofInt?_eq_some_iff.mpr ⟨h, rfl⟩)⟩

theorem fits_toInt (w : Word) : Fits w.toInt := (ofInt?_eq_some_iff.mp (ofInt?_toInt w)).1

theorem ofInt?_of_not_fits {i : Int} (h : ¬ Fits i) : ofInt? i = none := by
  rw [Option.eq_none_iff_forall_ne_some]
  exact fun w hw => h (ofInt?_eq_some_iff.mp hw).1

/-- **What is no word stays none as it grows**, on either side of zero. -/
theorem fits_of_le {negative : Bool} {m n : Nat} (h : m ≤ n) (hn : Fits (signed negative n)) :
    Fits (signed negative m) := by
  obtain ⟨hlo, hhi⟩ := hn
  cases negative <;> simp only [signed, Fits, Bool.false_eq_true, if_true, if_false] at * <;> omega

theorem toInt_digit {d : Char} (h : d.isDigit = true) :
    (digit d).toInt = ((d.toNat - '0'.toNat : Nat) : Int) := by
  have hd : 48 ≤ d.toNat ∧ d.toNat ≤ 57 := Char.isDigit_iff_toNat.mp h
  exact Int64.toInt_ofNat_of_lt (by omega)

/-- A digit may be appended exactly if the result is a word. -/
theorem appendDigit?_eq {negative : Bool} {w : Word} {n : Nat} {d : Char} (hd : d.isDigit = true)
    (hw : w.toInt = signed negative n) :
    appendDigit? negative w d =
      ofInt? (signed negative (n * 10 + (d.toNat - '0'.toNat))) := by
  have htens : w.toInt * (10 : Word).toInt = signed negative (n * 10) := by
    rw [hw, signed_mul]
    rfl
  rw [appendDigit?, checkedMul?, htens]
  by_cases hfits : Fits (signed negative (n * 10))
  · obtain ⟨tens, hv⟩ := exists_toInt_eq hfits
    rw [signed_add, ← hv, ← toInt_digit hd, ofInt?_toInt]
    cases negative <;> rfl
  · -- the tens alone are too large, and so is what the digit makes of them
    rw [ofInt?_of_not_fits hfits,
      ofInt?_of_not_fits fun h => hfits (fits_of_le (Nat.le_add_right _ _) h)]
    rfl

/-- **Digits are read as what they stand for**, if it is a word, and not at all otherwise. -/
theorem readDigits?_eq {negative : Bool} {ds : List Char} (hd : ∀ c ∈ ds, c.isDigit = true)
    {w : Word} {n : Nat} (hw : w.toInt = signed negative n) :
    readDigits? negative w ds =
      (ofInt? (signed negative (n * 10 ^ ds.length + placeValue ds))).map fun v => (v, []) := by
  induction ds generalizing w n with
  | nil =>
      rw [readDigits?, List.length_nil, Nat.pow_zero, Nat.mul_one, placeValue, Nat.add_zero, ← hw,
        ofInt?_toInt]
      rfl
  | cons d ds ih =>
      obtain ⟨hdigit, hds⟩ := List.forall_mem_cons.mp hd
      have hvalue : n * 10 ^ (d :: ds).length + placeValue (d :: ds) =
          (n * 10 + (d.toNat - '0'.toNat)) * 10 ^ ds.length + placeValue ds := by
        rw [placeValue, List.length_cons, Nat.pow_succ, Nat.add_mul, Nat.mul_assoc,
          Nat.mul_comm 10, Nat.add_assoc]
      rw [readDigits?, if_pos hdigit, appendDigit?_eq hdigit hw, hvalue]
      by_cases hfits : Fits (signed negative (n * 10 + (d.toNat - '0'.toNat)))
      · obtain ⟨v, hv⟩ := exists_toInt_eq hfits
        rw [ofInt?_eq_some_iff_toInt.mpr hv, Option.bind_some, ih hds hv]
      · have hle : n * 10 + (d.toNat - '0'.toNat) ≤
            (n * 10 + (d.toNat - '0'.toNat)) * 10 ^ ds.length + placeValue ds :=
          Nat.le_add_right_of_le (Nat.le_mul_of_pos_right _ (Nat.pow_pos (by decide)))
        rw [ofInt?_of_not_fits hfits, ofInt?_of_not_fits fun h => hfits (fits_of_le hle h)]
        rfl

/-- Nothing is left only of digits. -/
theorem isDigit_of_readDigits? {negative : Bool} {w v : Word} {cs : List Char}
    (h : readDigits? negative w cs = some (v, [])) : ∀ c ∈ cs, c.isDigit = true := by
  induction cs generalizing w with
  | nil => nofun
  | cons c cs ih =>
      rw [readDigits?] at h
      split at h
      · rename_i hc
        obtain ⟨u, -, hu⟩ := Option.bind_eq_some_iff.mp h
        exact List.forall_mem_cons.mpr ⟨hc, ih hu⟩
      · cases h

/-! ### Whole literals -/

theorem takeSign_of_isDigit {c : Char} {cs : List Char} (h : c.isDigit = true) :
    takeSign (c :: cs) = (false, c :: cs) := by
  unfold takeSign
  split
  · rename_i heq
    obtain ⟨rfl, -⟩ := List.cons.inj heq
    exact absurd h (by decide)
  · rename_i heq
    obtain ⟨rfl, -⟩ := List.cons.inj heq
    exact absurd h (by decide)
  · rfl

/-- A literal is a sign or none, and digits. -/
theorem literal_iff {cs : List Char} {i : Int} :
    Literal cs i ↔ ((takeSign cs).2 ≠ [] ∧ ∀ c ∈ (takeSign cs).2, c.isDigit = true) ∧
      i = signed (takeSign cs).1 (placeValue (takeSign cs).2) := by
  constructor
  · rintro (⟨hne, hd⟩ | ⟨hne, hd⟩ | ⟨hne, hd⟩)
    · obtain ⟨c, ds, rfl⟩ := List.exists_cons_of_ne_nil hne
      rw [takeSign_of_isDigit (hd c List.mem_cons_self)]
      exact ⟨⟨hne, hd⟩, rfl⟩
    · exact ⟨⟨hne, hd⟩, rfl⟩
    · exact ⟨⟨hne, hd⟩, rfl⟩
  · unfold takeSign
    split
    · rintro ⟨⟨hne, hd⟩, rfl⟩
      exact .minus hne hd
    · rintro ⟨⟨hne, hd⟩, rfl⟩
      exact .plus hne hd
    · rintro ⟨⟨hne, hd⟩, rfl⟩
      exact .plain hne hd

theorem readLiteral?_eq_some_iff {cs : List Char} {w : Word} :
    readLiteral? cs = some (w, []) ↔ Literal cs w.toInt := by
  rw [literal_iff, readLiteral?]
  generalize takeSign cs = sign
  obtain ⟨negative, ds⟩ := sign
  have hzero : (0 : Word).toInt = signed negative 0 := by cases negative <;> rfl
  -- digits from zero on are read as their value
  have hread (hd : ∀ c ∈ ds, c.isDigit = true) : readDigits? negative 0 ds = some (w, []) ↔
      w.toInt = signed negative (placeValue ds) := by
    rw [readDigits?_eq hd hzero, Nat.zero_mul, Nat.zero_add, ← ofInt?_eq_some_iff_toInt]
    simp
  dsimp only
  constructor
  · intro h
    split at h
    · rename_i hhead
      have hd := isDigit_of_readDigits? h
      refine ⟨⟨?_, hd⟩, (hread hd).mp h⟩
      rintro rfl
      cases hhead
    · cases h
  · rintro ⟨⟨hne, hd⟩, hw⟩
    obtain ⟨c, cs, rfl⟩ := List.exists_cons_of_ne_nil hne
    exact (if_pos (hd c List.mem_cons_self)).trans ((hread hd).mpr hw)

theorem readAll?_eq_some_iff {s : String} {w : Word} :
    readAll? s = some w ↔ Literal s.toList w.toInt := by
  rw [← readLiteral?_eq_some_iff, readAll?]
  rcases readLiteral? s.toList with _ | ⟨v, _ | ⟨c, cs⟩⟩ <;> simp

/-- The words that texts are read as, by their values. -/
theorem ofLiteral?_eq_some_iff_toInt {s : String} {w : Word} :
    ofLiteral? s = some w ↔ Literal s.toList w.toInt := by
  rw [ofLiteral?, Option.bind_eq_some_iff]
  simp only [integer?_eq_some_iff, ofInt?_eq_some_iff_toInt]
  constructor
  · rintro ⟨i, h, rfl⟩
    exact h
  · exact fun h => ⟨_, h, rfl⟩

/-- **Reading by digits is reading by value.** -/
theorem readAll?_eq (s : String) : readAll? s = ofLiteral? s :=
  Option.ext fun _ => by rw [readAll?_eq_some_iff, ofLiteral?_eq_some_iff_toInt]

/-! ### What is written for a word -/

/-- The text is what `WRITE` appends to the output for the word, what `PRINT` prints of it on a
line, and what stands last in the row of a listing whose argument it is. -/
structure ShownAs (w : Word) (text : String) : Prop where
  written : ∀ (v : Word) (out : Stdout) (s : State) (ws : List Word), s.stack = w :: ws →
    Builtin.write.action v out s = ⟨.ok .next, { s with output := s.output ++ text }, []⟩
  printed : ∀ (v : Word) (s : State) (ws : List Word), s.stack = w :: ws →
    Effect.printed ((Builtin.print.action v .connected s).emitted.map .print) = text ++ "\n"
  listed  : ∀ (set : InstructionSet) (code : Code),
    (∀ i ∈ code, (set.mnemonic? i.opcode).isSome) → ∀ (k : Nat) (o : Opcode),
      code[k]? = some ⟨o, w⟩ →
      ∃ row, (Listing.ofCode set code).table.rows[k]? = some row ∧ row.getLast? = some text

theorem shownAs_text (w : Word) : w.ShownAs w.text where
  written v out s ws h := Builtin.action_of_completes (.write h) out
  printed v s ws h := by
    rw [Builtin.action_of_completes (.print h)]
    simp [Effect.printed, Stdout.take, Effect.stdout]
  listed set code hk k o h := by
    obtain ⟨m, -, hrow⟩ := (Listing.complete_ofCode hk).row k _ h
    refine ⟨[k.repr, m, w.text], ?_, rfl⟩
    rw [Listing.table, List.getElem?_map, hrow]
    rfl

/-- **Literals are read exactly.**  A text is read as a word if and only if it is one sign or none
and then digits, and stands for the value of the word; every other text is read as none, be it a
literal whose value is no word.  Reading digit by digit, with a look at every product and sum, comes
to the same.  So the text that is written, printed or listed for a word is read as that word. -/
theorem literals_read_exactly :
    (∀ (s : String) (w : Word), ofLiteral? s = some w ↔ Literal s.toList w.toInt) ∧
    (∀ s : String, ofLiteral? s = none ↔
      ∀ i, Literal s.toList i → i < -2 ^ 63 ∨ 2 ^ 63 - 1 < i) ∧
    (∀ s : String, readAll? s = ofLiteral? s) ∧
    ∀ w : Word, ∃ text, w.ShownAs text ∧ ofLiteral? text = some w := by
  refine ⟨fun s w => ofLiteral?_eq_some_iff_toInt, fun s => ?_, readAll?_eq,
    fun w => ⟨w.text, w.shownAs_text, ofLiteral?_text w⟩⟩
  rw [Option.eq_none_iff_forall_ne_some]
  constructor
  · intro h i hi
    by_cases hfits : Fits i
    · obtain ⟨w, rfl⟩ := exists_toInt_eq hfits
      exact absurd (ofLiteral?_eq_some_iff_toInt.mpr hi) (h w)
    · rw [Fits] at hfits
      omega
  · intro h w hw
    obtain ⟨hlo, hhi⟩ := fits_toInt w
    have := h _ (ofLiteral?_eq_some_iff_toInt.mp hw)
    omega

/-- The least word, which no word with a plus sign answers to, and a zero below zero. -/
theorem literals_read_exactly_limits :
    ofLiteral? "-9223372036854775808" = some Int64.minValue ∧
    ofLiteral? "+9223372036854775808" = none ∧
    ofLiteral? "-000" = some 0 ∧ readAll? "-000" = some 0 := by
  obtain ⟨value, refused, bydigits, -⟩ := literals_read_exactly
  have zero : ofLiteral? "-000" = some 0 :=
    (value _ _).mpr (integer?_eq_some_iff.mp (by decide))
  refine ⟨(value _ _).mpr (integer?_eq_some_iff.mp (by decide)), (refused _).mpr fun i hi => ?_,
    zero, (bydigits _).trans zero⟩
  have hvalue : integer? "+9223372036854775808".toList = some 9223372036854775808 := by decide
  rw [← integer?_eq_some_iff, hvalue] at hi
  cases hi
  decide

end Word

end StackMachine
