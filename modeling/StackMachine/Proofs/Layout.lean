import StackMachine.Proofs.Concatenation

/-!
# Proofs — Layout

Layout that carries no meaning.  A source may have white space at the end of its lines, the last one
included, and a carriage return before every line break: `Text.Padded` says this of the characters,
and the two sources have the same lines (`Text.Padded.lines_eq`), so that they assemble alike to the
last word of a fault.

A source may also have more blank lines or fewer.  Then its lines have other numbers.  A list of
edits says of every line whether it is kept, and a line that is inserted or deleted is blank
(`Rewrite`); `LineEdit.SameLine` relates the two numbers that a kept line has.  Only kept lines are
read, each alike but for its number, so the code is the same, and a fault is reported of the same
line under its other number (`Rewrite.assemble`).
-/

namespace StackMachine

/-! ### White space at the end of lines -/

namespace Text

/-- White space that does not break the line. -/
def IsPadding (cs : List Char) : Prop := ∀ c ∈ cs, isBlank c = true ∧ c ≠ '\n'

instance : DecidablePred IsPadding :=
  List.decidableBAll fun c => isBlank c = true ∧ c ≠ '\n'

/-- The second text is the first with padding before some of its line breaks and at its end. -/
inductive Padded : List Char → List Char → Prop where
  | last {pad : List Char} (h : IsPadding pad) : Padded [] pad
  | char {cs ds : List Char} (c : Char) (h : Padded cs ds) : Padded (c :: cs) (c :: ds)
  | line {pad cs ds : List Char} (hp : IsPadding pad) (h : Padded cs ds) :
      Padded ('\n' :: cs) (pad ++ '\n' :: ds)

/-- The text with a carriage return before every line break. -/
def withReturns (s : String) : String :=
  String.ofList (s.toList.flatMap fun c => if c = '\n' then ['\r', '\n'] else [c])

variable {pad cs ds : List Char}

theorem IsPadding.break_notMem (h : IsPadding pad) : '\n' ∉ pad := fun hm => (h _ hm).2 rfl

theorem IsPadding.nil : IsPadding [] := nofun

theorem isPadding_return : IsPadding ['\r'] := by decide

theorem rdropWhile_append_of_blank (h : ∀ c ∈ pad, isBlank c = true) (cs : List Char) :
    (cs ++ pad).rdropWhile isBlank = cs.rdropWhile isBlank := by
  have hreverse : ∀ c ∈ pad.reverse, isBlank c = true := by simpa using h
  rw [List.rdropWhile, List.reverse_append, List.dropWhile_append_of_pos hreverse]
  rfl

theorem IsPadding.padded_append (h : IsPadding pad) (cs : List Char) : Padded cs (cs ++ pad) := by
  induction cs with
  | nil => exact .last h
  | cons c cs ih => exact .char c ih

/-- **Each piece is padded at its end.** -/
theorem Padded.splitOn (h : Padded cs ds) :
    List.Forall₂ (fun piece padded => ∃ pad, IsPadding pad ∧ padded = piece ++ pad)
      (cs.splitOn '\n') (ds.splitOn '\n') := by
  induction h with
  | @last pad h =>
      rw [List.splitOn_eq_singleton h.break_notMem]
      exact .cons ⟨pad, h, rfl⟩ .nil
  | @line pad cs ds hp h ih =>
      rw [List.splitOn_append_cons_self, List.splitOn_eq_singleton hp.break_notMem,
        ← List.nil_append ('\n' :: cs), List.splitOn_append_cons_self]
      exact .cons ⟨pad, hp, rfl⟩ ih
  | @char cs ds c h ih =>
      rw [List.splitOn_cons_eq_if_modifyHead, List.splitOn_cons_eq_if_modifyHead]
      by_cases hc : c == '\n'
      · rw [if_pos hc, if_pos hc]
        exact .cons ⟨[], .nil, rfl⟩ ih
      · rw [if_neg hc, if_neg hc]
        generalize cs.splitOn '\n' = pieces, ds.splitOn '\n' = padded at ih
        -- the character belongs to the first piece of both
        cases ih with
        | nil => exact .nil
        | cons hfirst hrest =>
            obtain ⟨pad, hp, rfl⟩ := hfirst
            exact .cons ⟨pad, hp, rfl⟩ hrest

/-- Padding is trimmed with what else is blank at the end of a line. -/
theorem Padded.lines_eq {source padded : String} (h : Padded source.toList padded.toList) :
    lines padded = lines source := by
  rw [lines, lines, eq_comm, ← List.forall₂_eq_eq_eq, List.forall₂_map_left_iff,
    List.forall₂_map_right_iff]
  refine h.splitOn.imp ?_
  rintro piece _ ⟨pad, hp, rfl⟩
  exact (rdropWhile_append_of_blank (fun c hc => (hp c hc).1) piece).symm

theorem padded_withReturns (s : String) : Padded s.toList (withReturns s).toList := by
  rw [withReturns, String.toList_ofList]
  induction s.toList with
  | nil => exact .last .nil
  | cons c cs ih =>
      rw [List.flatMap_cons]
      by_cases hc : c = '\n'
      · subst hc
        exact .line isPadding_return ih
      · rw [if_neg hc]
        exact .char c ih

end Text

/-- The assembler sees the lines alone. -/
theorem InstructionSet.assemble_congr {source other : String} (h : lines source = lines other)
    (set : InstructionSet) : set.assemble source = set.assemble other := by
  rw [assemble, assemble, Line.ofSource_eq_filterMap_lines, Line.ofSource_eq_filterMap_lines, h]

/-! ### Blank lines -/

/-- What becomes of one line of a source, or a line that it has not had. -/
inductive LineEdit
  | keep (line : List Char)
  | insert (line : List Char)
  | delete (line : List Char)

namespace LineEdit

/-- The line as it was. -/
def old? : LineEdit → Option (List Char)
  | keep line | delete line => some line
  | insert _                => none

/-- The line as it is. -/
def new? : LineEdit → Option (List Char)
  | keep line | insert line => some line
  | delete _                => none

/-- Nothing is lost or added but white space. -/
def IsBlank : LineEdit → Prop
  | keep _                    => True
  | insert line | delete line => ∀ c ∈ line, Text.isBlank c = true

instance : DecidablePred IsBlank
  | keep _                    => .isTrue trivial
  | insert line | delete line => List.decidableBAll (fun c => Text.isBlank c = true) line

/-- The lines before the edits. -/
def old (es : List LineEdit) : List (List Char) := es.filterMap old?

/-- The lines after them. -/
def new (es : List LineEdit) : List (List Char) := es.filterMap new?

section

variable (line : List Char) (before after : List LineEdit)

@[simp] theorem old_append : old (before ++ after) = old before ++ old after :=
  List.filterMap_append

@[simp] theorem new_append : new (before ++ after) = new before ++ new after :=
  List.filterMap_append

@[simp] theorem old_nil : old [] = [] := rfl

@[simp] theorem new_nil : new [] = [] := rfl

@[simp] theorem old_keep : old (keep line :: after) = line :: old after := rfl

@[simp] theorem new_keep : new (keep line :: after) = line :: new after := rfl

@[simp] theorem old_insert : old (insert line :: after) = old after := rfl

@[simp] theorem new_insert : new (insert line :: after) = line :: new after := rfl

@[simp] theorem old_delete : old (delete line :: after) = line :: old after := rfl

@[simp] theorem new_delete : new (delete line :: after) = new after := rfl

end

/-- Line `n` before the edits is line `k` after them. -/
inductive SameLine : List LineEdit → Nat → Nat → Prop where
  | intro (before : List LineEdit) (line : List Char) (after : List LineEdit) :
      SameLine (before ++ keep line :: after) ((old before).length + 1) ((new before).length + 1)

/-- **A line keeps what it is**: to the number it had there is one that it has. -/
theorem SameLine.unique {es : List LineEdit} {n k k' : Nat} (h : SameLine es n k)
    (h' : SameLine es n k') : k = k' := by
  obtain ⟨before, line, after⟩ := h
  generalize hes : before ++ keep line :: after = es' at h'
  generalize hn : (old before).length + 1 = n' at h'
  obtain ⟨before', line', after'⟩ := h'
  -- between two different places stands a line of the old source, the first of the two
  rcases List.append_eq_append_iff.mp hes with ⟨_ | ⟨e, between⟩, rfl, hafter⟩ |
    ⟨_ | ⟨e, between⟩, rfl, hafter⟩
  · rw [List.append_nil]
  · cases hafter
    simp at hn
  · rw [List.append_nil]
  · cases hafter
    simp at hn

end LineEdit

/-- The edits make the one source into the other. -/
structure Rewrite (es : List LineEdit) (source edited : String) : Prop where
  blank : ∀ e ∈ es, e.IsBlank
  old   : source.toList.splitOn '\n' = LineEdit.old es
  new   : edited.toList.splitOn '\n' = LineEdit.new es

namespace Line

variable {set : InstructionSet} {l : Line} {f : Fault}

/-- The lines of which something is read, counted from a number on. -/
def ofLines (n : Nat) (raw : List (List Char)) : List Line :=
  ((raw.map (List.rdropWhile Text.isBlank)).zipIdx n).filterMap fun p => ofText? p.2 p.1

/-- A line comes first unless it is blank; either way the others are counted on. -/
theorem ofLines_cons (n : Nat) (line : List Char) (raw : List (List Char)) :
    ofLines n (line :: raw) =
      (ofText? n (line.rdropWhile Text.isBlank)).toList ++ ofLines (n + 1) raw := by
  rw [ofLines, List.map_cons, List.zipIdx_cons, List.filterMap_cons]
  cases ofText? n (line.rdropWhile Text.isBlank) <;> rfl

theorem ofText?_of_blank {line : List Char} (h : ∀ c ∈ line, Text.isBlank c = true) (n : Nat) :
    ofText? n (line.rdropWhile Text.isBlank) = none :=
  if_pos (List.rdropWhile_eq_nil_iff.mpr h)

/-- **The two sources have the same lines to read**, each under its other number. -/
theorem forall₂_ofLines (before after : List LineEdit) (h : ∀ e ∈ after, e.IsBlank) :
    List.Forall₂
      (fun l k : Line => LineEdit.SameLine (before ++ after) l.number k.number ∧ k.text = l.text)
      (ofLines ((LineEdit.old before).length + 1) (LineEdit.old after))
      (ofLines ((LineEdit.new before).length + 1) (LineEdit.new after)) := by
  induction after generalizing before with
  | nil => exact .nil
  | cons e after ih =>
      obtain ⟨he, hafter⟩ := List.forall_mem_cons.mp h
      have hrest := ih (before ++ [e]) hafter
      rw [List.append_assoc, List.singleton_append] at hrest
      cases e with
      | insert line =>
          rw [LineEdit.new_insert, ofLines_cons, ofText?_of_blank he]
          simpa using hrest
      | delete line =>
          rw [LineEdit.old_delete, ofLines_cons, ofText?_of_blank he]
          simpa using hrest
      | keep line =>
          rw [LineEdit.old_keep, LineEdit.new_keep, ofLines_cons, ofLines_cons, ofText?, ofText?]
          by_cases ht : line.rdropWhile Text.isBlank = []
          · rw [if_pos ht, if_pos ht]
            simpa using hrest
          · rw [if_neg ht, if_neg ht]
            exact .cons ⟨.intro before line after, rfl⟩ (by simpa using hrest)

theorem ofSource_eq_ofLines (source : String) :
    ofSource source = ofLines 1 (source.toList.splitOn '\n') :=
  ofSource_eq_filterMap_lines source

end Line

/-- The number of the line that a fault is about. -/
def Fault.line? : Fault → Option Nat
  | .unknownInstruction _ line | .malformedInstruction line _ _ => some line
  | _ => none

/-- The fault, of a line of another number. -/
def Fault.atLine (line : Nat) : Fault → Fault
  | .unknownInstruction mnemonic _ => .unknownInstruction mnemonic line
  | .malformedInstruction _ text reason => .malformedInstruction line text reason
  | f => f

namespace Line

variable {set : InstructionSet} {l k : Line} {f : Fault}

theorem line?_of_instruction (h : l.instruction set = .error f) : f.line? = some l.number := by
  cases instruction_eq_iff.mp h with
  | malformed hw =>
      rw [words] at hw
      split at hw <;> cases hw
      rfl
  | unknown => rfl
  | argument hw =>
      rw [words] at hw
      split at hw <;> simp only [Except.ok.injEq, Prod.mk.injEq, reduceCtorEq, and_false] at hw
      rw [argument] at hw
      split at hw
      · cases hw.2
      · cases hw.2
        rfl

theorem instruction_of_text_eq (set : InstructionSet) (h : k.text = l.text) :
    k.instruction set = (l.instruction set).mapError (.atLine k.number) := by
  rw [← instruction_renumbered (fun _ => rfl) fun _ _ => rfl, ← h]

end Line

/-- Where the elements of two lists succeed alike, the traversals stop at the same place. -/
theorem mapM_alike {α β γ ε : Type} {R : α → β → Prop} {f : α → Except ε γ} {g : β → Except ε γ}
    {m : β → ε → ε} (hR : ∀ x y, R x y → g y = (f x).mapError (m y)) {xs : List α} {ys : List β}
    (h : List.Forall₂ R xs ys) :
    (∀ zs, xs.mapM f = .ok zs ↔ ys.mapM g = .ok zs) ∧
    ∀ e, xs.mapM f = .error e → ∃ x y, R x y ∧ f x = .error e ∧ ys.mapM g = .error (m y e) := by
  induction h with
  | nil => simp [pure, Except.pure]
  | @cons x y xs ys hxy h ih =>
      obtain ⟨hok, herror⟩ := ih
      rw [List.mapM_cons, List.mapM_cons, hR x y hxy]
      cases hx : f x with
      | error e =>
          refine ⟨fun _ => ⟨nofun, nofun⟩, fun _ he => ?_⟩
          cases he
          exact ⟨x, y, hxy, hx, rfl⟩
      | ok z =>
          cases hxs : xs.mapM f with
          | error e =>
              obtain ⟨x', y', hxy', hf, hg⟩ := herror e hxs
              rw [hg]
              refine ⟨fun _ => ⟨nofun, nofun⟩, fun _ he => ?_⟩
              cases he
              exact ⟨x', y', hxy', hf, rfl⟩
          | ok zs =>
              rw [(hok zs).mp hxs]
              exact ⟨fun _ => .rfl, nofun⟩

/-- **Blank lines only number the others.** -/
theorem Rewrite.assemble {es : List LineEdit} {source edited : String}
    (h : Rewrite es source edited) (set : InstructionSet) :
    (∀ code, set.assemble source = .ok code ↔ set.assemble edited = .ok code) ∧
    ∀ f, set.assemble source = .error f → ∃ n k, LineEdit.SameLine es n k ∧ f.line? = some n ∧
      set.assemble edited = .error (f.atLine k) := by
  have hlines := Line.forall₂_ofLines [] es h.blank
  rw [List.nil_append, ← h.old, ← h.new, LineEdit.old_nil, LineEdit.new_nil, List.length_nil,
    Nat.zero_add, ← Line.ofSource_eq_ofLines, ← Line.ofSource_eq_ofLines] at hlines
  obtain ⟨hok, herror⟩ := mapM_alike (f := fun l => l.instruction set)
    (fun l k hlk => Line.instruction_of_text_eq set hlk.2) hlines
  rw [InstructionSet.assemble, InstructionSet.assemble]
  cases hsource : (Line.ofSource source).mapM fun l => l.instruction set with
  | ok is =>
      rw [(hok is).mp hsource]
      refine ⟨fun _ => .rfl, fun _ hf => ?_⟩
      cases hf
  | error f =>
      obtain ⟨l, k, ⟨hsame, -⟩, hl, hedited⟩ := herror f hsource
      rw [hedited]
      refine ⟨fun _ => by simp [bind, Except.bind], fun _ hf => ?_⟩
      cases hf
      exact ⟨l.number, k.number, hsame, Line.line?_of_instruction hl, rfl⟩

/-- **Layout is free.**  A source assembles alike, faults included, with carriage returns before its
line breaks and with any white space at the end of any of its lines.  When blank lines come in or go
out, the code is the same, and a fault is the same one, reported of the same line under the number
that it now has. -/
theorem assemble_layout (set : InstructionSet) (source : String) :
    set.assemble (Text.withReturns source) = set.assemble source ∧
    (∀ padded : String, Text.Padded source.toList padded.toList →
      set.assemble padded = set.assemble source) ∧
    ∀ es edited, Rewrite es source edited →
      (∀ code, set.assemble source = .ok code ↔ set.assemble edited = .ok code) ∧
      ∀ f, set.assemble source = .error f → ∃ n k, LineEdit.SameLine es n k ∧ f.line? = some n ∧
        set.assemble edited = .error (f.atLine k) :=
  have hpadded (padded : String) (h : Text.Padded source.toList padded.toList) :
      set.assemble padded = set.assemble source := set.assemble_congr h.lines_eq
  ⟨hpadded _ (Text.padded_withReturns source), hpadded, fun _ _ h => h.assemble set⟩

/-- White space at the end of the last line, and a blank line above each of the two. -/
theorem assemble_layout_blank_above :
    InstructionSet.standard.assemble "PRINT\nPUSH 1\u00a0\r" =
      .error (.unknownInstruction "PUSH" 2) ∧
    InstructionSet.standard.assemble " \t\nPRINT\n\u00a0\nPUSH 1" =
      .error (.unknownInstruction "PUSH" 4) := by
  have hsource : InstructionSet.standard.assemble "PRINT\nPUSH 1" =
      .error (.unknownInstruction "PUSH" 2) := by decide +kernel
  obtain ⟨-, hpadded, hedited⟩ := assemble_layout .standard "PRINT\nPUSH 1"
  have hend : Text.Padded "PRINT\nPUSH 1".toList ("PRINT\nPUSH 1".toList ++ ['\u00a0', '\r']) :=
    Text.IsPadding.padded_append (by decide) _
  have hedits : Rewrite [.insert [' ', '\t'], .keep "PRINT".toList, .insert ['\u00a0'],
      .keep "PUSH 1".toList] "PRINT\nPUSH 1" " \t\nPRINT\n\u00a0\nPUSH 1" :=
    ⟨by decide, by decide +kernel, by decide +kernel⟩
  refine ⟨(hpadded "PRINT\nPUSH 1\u00a0\r" hend).trans hsource, ?_⟩
  obtain ⟨n, k, hsame, hn, hfault⟩ := (hedited _ _ hedits).2 _ hsource
  obtain rfl : 2 = n := by simpa [Fault.line?] using hn
  obtain rfl := hsame.unique (.intro [.insert [' ', '\t'], .keep "PRINT".toList,
    .insert ['\u00a0']] "PUSH 1".toList [])
  exact hfault

end StackMachine
