import StackMachine.Proofs.Report

/-!
# Proofs — Simulation

Two runs in lockstep.  `q.Follows p A R S`: from states related by `R`, each instruction of `p`
comes to the same in `q`, leaves related states, and lets out what `S` relates, except where it ends
in a fault outside `A`.  Then the same is true of whole runs, with a budget or without one: `q`
completes as many instructions as `p`, and is left as `p` is (`Follows.runs`).  A single run of `p`
asks for less: its instructions have to go alike in the states that it looks from (`Runs.alike`).

`follows_of_actions` reduces this to the actions of the two programs.  There `S` looks at everything
let out but the trace (`Effect.untraced`), which includes all printed text and all events.
-/

namespace StackMachine

/-- Two computations go alike: they come to the same, leave related states, and let out what `S`
relates. -/
structure Outcome.Alike {ε α : Type} (R : State → State → Prop) (S : List ε → List ε → Prop)
    (x y : Outcome ε α) : Prop where
  result  : y.result = x.result
  state   : R x.state y.state
  emitted : S x.emitted y.emitted

theorem Outcome.Alike.exists_eq {ε α : Type} {R : State → State → Prop}
    {S : List ε → List ε → Prop} {r : Except Fault α} {t : State} {es : List ε} {y : Outcome ε α}
    (h : Outcome.Alike R S ⟨r, t, es⟩ y) : ∃ t' fs, y = ⟨r, t', fs⟩ ∧ R t t' ∧ S es fs := by
  obtain ⟨r', t', fs⟩ := y
  obtain ⟨rfl, ht, he⟩ := h
  exact ⟨t', fs, rfl, ht, he⟩

/-- A relation between two lists of effects that is kept while both grow. -/
structure Effect.Additive (S : List Effect → List Effect → Prop) : Prop where
  nil    : S [] []
  append : ∀ {es es' fs fs' : List Effect}, S es es' → S fs fs' → S (es ++ fs) (es' ++ fs')

/-! ### Runs in lockstep -/

namespace Program

/-- The next instruction goes alike from `s` in `p` and from `s'` in `q`, unless `p` ends in a fault
outside `A` there. -/
def StepsAlike (q p : Program) (A : Fault → Prop) (R : State → State → Prop)
    (S : List Effect → List Effect → Prop) (s s' : State) : Prop :=
  (∀ e, (p.step s).result = .error e → A e) → (p.step s).Alike R S (q.step s')

/-- From related states, each instruction goes alike in `p` and in `q`, unless `p` ends in a fault
outside `A` there. -/
def Follows (q p : Program) (A : Fault → Prop) (R : State → State → Prop)
    (S : List Effect → List Effect → Prop) : Prop :=
  ∀ s s', R s s' → (∀ e, (p.step s).result = .error e → A e) → (p.step s).Alike R S (q.step s')

variable {p q : Program} {A : Fault → Prop} {R : State → State → Prop}
  {S : List Effect → List Effect → Prop} {n : Nat} {s s' t : State} {es : List Effect}

theorem StepsAlike.step (h : q.StepsAlike p A R S s s') {r : Except Fault Flow}
    (hs : p.step s = ⟨r, t, es⟩) (hA : ∀ e, r = .error e → A e) :
    ∃ t' fs, q.step s' = ⟨r, t', fs⟩ ∧ R t t' ∧ S es fs := by
  have hq := h (by rw [hs]; exact hA)
  rw [hs] at hq
  exact hq.exists_eq

/-! It is enough that instructions go alike in the states that the run of `p` comes by. -/

theorem Steps.alike (hS : Effect.Additive S) (hs : p.Steps n s es t) (hR : R s s')
    (h : ∀ k u u', p.Looks (some n) s k u → R u u' → q.StepsAlike p A R S u u') :
    ∃ t' fs, q.Steps n s' fs t' ∧ R t t' ∧ S es fs := by
  induction hs generalizing s' with
  | refl => exact ⟨s', [], .refl s', hR, hS.nil⟩
  | @more n _ _ _ _ _ hs _ ih =>
      have hfirst := h 0 _ _ (.zero (by rintro _ ⟨⟩; exact Nat.succ_pos n)) hR
      obtain ⟨t', fs, hq, ht, hfs⟩ := hfirst.step hs nofun
      obtain ⟨u', gs, hqs, hu, hgs⟩ := ih ht fun k u u' hl => h (k + 1) u u' (hl.succ hs)
      exact ⟨u', _, .more hq hqs, hu, hS.append hfs hgs⟩

theorem Ends.alike (hS : Effect.Additive S) {stop : Stop} (hs : p.Ends n s es t stop)
    (hA : ∀ e, stop = .faulted e → A e) (hR : R s s')
    (h : ∀ k u u', p.Looks (some (stop.budget n)) s k u → R u u' → q.StepsAlike p A R S u u') :
    ∃ t' fs, q.Ends n s' fs t' stop ∧ R t t' ∧ S es fs := by
  cases hs with
  | @halted n _ u _ _ _ hs hstep =>
      obtain ⟨t', fs, hq, ht, hfs⟩ := hs.alike hS hR fun k u u' hl =>
        h k u u' (hl.mono (by rintro _ ⟨⟩; exact Nat.le_succ n))
      have hlast := h n u t' ⟨⟨_, hs⟩, by rintro _ ⟨⟩; exact Nat.lt_succ_self n⟩ ht
      obtain ⟨u', gs, hqs, hu, hgs⟩ := hlast.step hstep nofun
      exact ⟨u', _, .halted hq hqs, hu, hS.append hfs hgs⟩
  | @faulted n _ u _ _ _ e hs hstep =>
      obtain ⟨t', fs, hq, ht, hfs⟩ := hs.alike hS hR fun k u u' hl =>
        h k u u' (hl.mono (by rintro _ ⟨⟩; exact Nat.le_succ n))
      have hlast := h n u t' ⟨⟨_, hs⟩, by rintro _ ⟨⟩; exact Nat.lt_succ_self n⟩ ht
      obtain ⟨u', gs, hqs, hu, hgs⟩ := hlast.step hstep (by rintro _ ⟨⟩; exact hA e rfl)
      exact ⟨u', _, .faulted hq hqs, hu, hS.append hfs hgs⟩

/-- **A program that goes alike wherever a run looks goes alike in the whole run.** -/
theorem Runs.alike (hS : Effect.Additive S) {budget : Option Nat} {c : Option Stop}
    (hs : p.Runs budget n s es t c) (hA : ∀ e, c = some (.faulted e) → A e) (hR : R s s')
    (h : ∀ k u u', p.Looks budget s k u → R u u' → q.StepsAlike p A R S u u') :
    ∃ t' fs, q.Runs budget n s' fs t' c ∧ R t t' ∧ S es fs := by
  cases hs with
  | ends hs hb =>
      obtain ⟨t', fs, hq, ht, hfs⟩ := hs.alike hS (fun e he => hA e (congrArg some he)) hR
        fun k u u' hl => h k u u' (hl.mono hb)
      exact ⟨t', fs, .ends hq hb, ht, hfs⟩
  | exhausts hs hb =>
      subst hb
      obtain ⟨t', fs, hq, ht, hfs⟩ := hs.alike hS hR h
      exact ⟨t', fs, .exhausts hq rfl, ht, hfs⟩

/-- **A program that is followed in each instruction is followed in each run.** -/
theorem Follows.runs (h : q.Follows p A R S) (hS : Effect.Additive S) {budget : Option Nat}
    {c : Option Stop} (hs : p.Runs budget n s es t c) (hA : ∀ e, c = some (.faulted e) → A e)
    (hR : R s s') : ∃ t' fs, q.Runs budget n s' fs t' c ∧ R t t' ∧ S es fs :=
  hs.alike hS hA hR fun _ u u' _ => h u u'

/-- Programs with the same steps have the same runs. -/
theorem Runs.of_step_eq (h : ∀ s, q.step s = p.step s) {budget : Option Nat} {c : Option Stop}
    (hs : p.Runs budget n s es t c) : q.Runs budget n s es t c := by
  have hfollows : q.Follows p (fun _ => True) Eq Eq := by
    rintro s _ rfl -
    rw [h]
    exact ⟨rfl, rfl, rfl⟩
  obtain ⟨_, _, hq, rfl, rfl⟩ := hfollows.runs ⟨rfl, fun he hf => he ▸ hf ▸ rfl⟩ hs
    (fun _ _ => trivial) rfl
  exact hq

end Program

/-! ### All but the trace -/

namespace Effect

/-- Whether only those see the effect who read the trace. -/
def isTrace : Effect → Bool
  | .trace _ => true
  | _        => false

/-- The effects that are no part of the trace. -/
def untraced (es : List Effect) : List Effect := es.filter fun e => !e.isTrace

/-- The same has been let out, but for the trace. -/
def SameUntraced (es fs : List Effect) : Prop := untraced fs = untraced es

theorem untraced_append (es fs : List Effect) : untraced (es ++ fs) = untraced es ++ untraced fs :=
  List.filter_append ..

theorem additive_sameUntraced : Additive SameUntraced where
  nil := rfl
  append := by
    intro es es' fs fs' he hf
    rw [SameUntraced, untraced_append, untraced_append, he, hf]

/-- No line is printed in the trace. -/
theorem printed_untraced (es : List Effect) : printed (untraced es) = printed es := by
  induction es with
  | nil => rfl
  | cons e es ih =>
      rw [← List.singleton_append, untraced_append, printed_append, printed_append, ih]
      cases e <;> rfl

/-- No event is reported in the trace. -/
theorem filterMap_event?_untraced (es : List Effect) :
    (untraced es).filterMap event? = es.filterMap event? := by
  rw [untraced, List.filterMap_filter]
  congr 1
  funext e
  cases e <;> rfl

theorem SameUntraced.printed_eq {es fs : List Effect} (h : SameUntraced es fs) :
    printed fs = printed es := by
  rw [← printed_untraced fs, h, printed_untraced]

theorem SameUntraced.events_eq {es fs : List Effect} (h : SameUntraced es fs) :
    fs.filterMap event? = es.filterMap event? := by
  rw [← filterMap_event?_untraced fs, h, filterMap_event?_untraced]

end Effect

namespace Program

open Effect (untraced SameUntraced)

@[simp] theorem untraced_fetched (p : Program) (pc : Nat) (i : Instruction) :
    untraced (p.fetched pc i) = [.event (.exec pc i.opcode i.argument)] := by
  rw [fetched]
  cases p.tracing <;> rfl

@[simp] theorem untraced_completed (p : Program) (s : State) : untraced (p.completed s) = [] := by
  rw [completed]
  cases p.tracing <;> rfl

/-- **An instruction that both programs fetch goes alike if its actions do**, from states with the
counter moved on. -/
theorem stepsAlike_of_fetched {p q : Program} {A : Fault → Prop} {R : State → State → Prop}
    {s s' : State} {i : Instruction} (hi : p.code[s.pc]? = some i) (hi' : q.code[s'.pc]? = some i)
    (hpc : s'.pc = s.pc) (hmove : R { s with pc := s.pc + 1 } { s' with pc := s'.pc + 1 })
    (hnone : A (.unknownOpcode i.opcode s.pc) → p.instructions.action? i.opcode = none →
      q.instructions.action? i.opcode = none)
    (hsome : ∀ {a}, p.instructions.action? i.opcode = some a →
      ∃ b, q.instructions.action? i.opcode = some b ∧ ∀ w s s', R s s' →
        (∀ e, (a w p.out s).result = .error e → A e) →
        (a w p.out s).Alike R Eq (b w q.out s')) :
    q.StepsAlike p A R SameUntraced s s' := by
  intro hA
  cases ha : p.instructions.action? i.opcode with
  | none =>
      rw [step_of_unknown hi ha] at hA ⊢
      rw [step_of_unknown hi' (hnone (hA _ rfl) ha), hpc]
      exact ⟨rfl, hpc ▸ hmove, by simp [SameUntraced]⟩
  | some a =>
      obtain ⟨b, hb, halike⟩ := hsome ha
      have hgo := halike i.argument _ _ hmove
      rcases ho : a i.argument p.out { s with pc := s.pc + 1 } with ⟨e | f, t, ps⟩
      · rw [step_of_error hi ha ho] at hA ⊢
        rw [ho] at hgo
        obtain ⟨t', _, ho', ht, rfl⟩ := (hgo hA).exists_eq
        rw [step_of_error hi' hb ho', hpc]
        exact ⟨rfl, ht, by simp [SameUntraced, Effect.untraced_append]⟩
      · rw [step_of_ok hi ha ho]
        rw [ho] at hgo
        obtain ⟨t', _, ho', ht, rfl⟩ := (hgo nofun).exists_eq
        rw [step_of_ok hi' hb ho', hpc]
        exact ⟨rfl, ht, by simp [SameUntraced, Effect.untraced_append]⟩

/-- **Programs of the same code follow one another if their actions do.**  Related states have the
same counter, and stay related when it moves on. -/
theorem follows_of_actions {p q : Program} {A : Fault → Prop} {R : State → State → Prop}
    (hcode : q.code = p.code) (hpc : ∀ {s s'}, R s s' → s'.pc = s.pc)
    (hmove : ∀ {s s'}, R s s' → R { s with pc := s.pc + 1 } { s' with pc := s'.pc + 1 })
    (hnone : ∀ {o pc}, A (.unknownOpcode o pc) → p.instructions.action? o = none →
      q.instructions.action? o = none)
    (hsome : ∀ {o a}, p.instructions.action? o = some a →
      ∃ b, q.instructions.action? o = some b ∧ ∀ w s s', R s s' →
        (∀ e, (a w p.out s).result = .error e → A e) →
        (a w p.out s).Alike R Eq (b w q.out s')) :
    q.Follows p A R SameUntraced := by
  intro s s' hR
  have hfetch : q.code[s'.pc]? = p.code[s.pc]? := by rw [hcode, hpc hR]
  cases hi : p.code[s.pc]? with
  | none =>
      rw [step_of_none hi, step_of_none (hfetch.trans hi), hcode, hpc hR]
      exact fun _ => ⟨rfl, hR, rfl⟩
  | some i => exact stepsAlike_of_fetched hi (hfetch.trans hi) (hpc hR) (hmove hR) hnone hsome

end Program

end StackMachine
