import Mathlib.Data.List.Basic

/-!
# Runs of a step function

A component is a *step function* `step : σ → ε → Option σ`: the event `e` is possible in the
state `s` exactly when `step s e` is `some` state. A run is a list of events; nothing is fixed
about the order in which they come, so a statement about every run is a statement about every
interleaving.

* `run` executes a list of events, `Along` states a property of every state it visits and
  `StepsMeet` a condition on every step it takes;
* `along_of_invariant` is the induction rule the developments below use: an invariant of the
  steps that meet a condition holds all along a run whose steps meet it;
* `run_length_le` bounds the length of the runs of a step function with a decreasing measure, and
  `exists_stuck_run` continues one until no step is left.
-/

namespace Runs

variable {σ : Type*} {ε : Type*}

/-- The state a list of events leads to, `none` when one of them is not possible. Structural
recursion on the events, so that a run on given events can be evaluated. -/
def run (step : σ → ε → Option σ) : σ → List ε → Option σ
  | s, [] => some s
  | s, e :: es => (step s e).bind fun s' => run step s' es

/-- `P` holds in every state the run visits, its first and its last one included. A run that gets
stuck has only visited the states before that. -/
def Along (step : σ → ε → Option σ) (P : σ → Prop) : σ → List ε → Prop
  | s, [] => P s
  | s, e :: es => P s ∧ ∀ s', step s e = some s' → Along step P s' es

/-- Every step the run takes meets `ok`, a condition on the event and the state before it. Of a run
that gets stuck, the steps before that are meant. Such a condition is how a statement restricts the
behaviour of an environment without restricting its order. -/
def StepsMeet (step : σ → ε → Option σ) (ok : σ → ε → Prop) : σ → List ε → Prop
  | _, [] => True
  | s, e :: es => ∀ s', step s e = some s' → ok s e ∧ StepsMeet step ok s' es

variable {step : σ → ε → Option σ} {ok : σ → ε → Prop} {P Q : σ → Prop}

instance [∀ s e, Decidable (ok s e)] : ∀ (s : σ) (es : List ε),
    Decidable (StepsMeet step ok s es)
  | _, [] => isTrue trivial
  | s, e :: es =>
    match h : step s e with
    | none => isTrue fun s' hs' => by rw [h] at hs'; cases hs'
    | some s' =>
      have : Decidable (StepsMeet step ok s' es) := instDecidableStepsMeet s' es
      decidable_of_iff (ok s e ∧ StepsMeet step ok s' es)
        ⟨fun hok t ht => by rw [h] at ht; cases ht; exact hok, fun hall => hall s' h⟩

@[simp] theorem run_nil (s : σ) : run step s [] = some s := rfl

theorem run_cons (s : σ) (e : ε) (es : List ε) :
    run step s (e :: es) = (step s e).bind fun s' => run step s' es := rfl

theorem run_cons_of_step {s s' : σ} {e : ε} (es : List ε) (h : step s e = some s') :
    run step s (e :: es) = run step s' es := by
  rw [run_cons, h, Option.bind_some]

/-- A run that succeeds, taken apart at its first event. -/
theorem run_cons_eq_some {s t : σ} {e : ε} {es : List ε} :
    run step s (e :: es) = some t ↔ ∃ s', step s e = some s' ∧ run step s' es = some t := by
  rw [run_cons, Option.bind_eq_some_iff]

theorem run_singleton {s : σ} {e : ε} : run step s [e] = step s e := by
  cases h : step s e <;> simp [run_cons, h]

/-- **Runs are composed**: the second part starts where the first one has ended. -/
theorem run_append_of_run {s t : σ} {es : List ε} (es' : List ε) (h : run step s es = some t) :
    run step s (es ++ es') = run step t es' := by
  induction es generalizing s with
  | nil =>
    obtain rfl : s = t := by simpa using h
    rfl
  | cons e es ih =>
    obtain ⟨s', hs', hrun⟩ := run_cons_eq_some.mp h
    rw [List.cons_append, run_cons_of_step _ hs', ih hrun]

/-! ## Invariants -/

/-- **The invariant rule for one run.** What holds at the start and is preserved by every step
holds at the end of a run. Induction on the run. -/
theorem run_invariant (hstep : ∀ s e s', P s → step s e = some s' → P s') :
    ∀ {s t : σ} {es : List ε}, P s → run step s es = some t → P t := by
  intro s t es
  induction es generalizing s with
  | nil =>
    intro h hr
    obtain rfl : s = t := by simpa using hr
    exact h
  | cons e es ih =>
    intro h hr
    obtain ⟨s', hs', hr'⟩ := run_cons_eq_some.mp hr
    exact ih (hstep s e s' h hs') hr'

/-- **The invariant rule.** An invariant of the steps that meet `ok` holds in every state of a
run whose steps meet `ok`. -/
theorem along_of_invariant (hstep : ∀ s e s', P s → ok s e → step s e = some s' → P s') :
    ∀ {s : σ} {es : List ε}, P s → StepsMeet step ok s es → Along step P s es := by
  intro s es
  induction es generalizing s with
  | nil => exact fun h _ => h
  | cons e es ih =>
    intro h hok
    exact ⟨h, fun s' hs' => ih (hstep s e s' h (hok s' hs').1 hs') (hok s' hs').2⟩

/-- **The invariant rule with the history.** What relates the events so far to the state they lead
to is an invariant as well. Induction on the run. -/
theorem run_history {P : List ε → σ → Prop}
    (hstep : ∀ es s e s', P es s → ok s e → step s e = some s' → P (es ++ [e]) s') :
    ∀ {before es : List ε} {s t : σ}, P before s → StepsMeet step ok s es →
      run step s es = some t → P (before ++ es) t := by
  intro before es
  induction es generalizing before with
  | nil =>
    intro s t h _ hr
    obtain rfl : s = t := by simpa using hr
    rw [List.append_nil]
    exact h
  | cons e es ih =>
    intro s t h hok hr
    obtain ⟨s', hs', hr'⟩ := run_cons_eq_some.mp hr
    obtain ⟨hstepok, hrest⟩ := hok s' hs'
    have hall := ih (hstep before s e s' h hstepok hs') hrest hr'
    rwa [List.append_assoc] at hall

theorem StepsMeet.append {s t : σ} {es es' : List ε} (h : StepsMeet step ok s es)
    (hrun : run step s es = some t) (h' : StepsMeet step ok t es') :
    StepsMeet step ok s (es ++ es') := by
  induction es generalizing s with
  | nil =>
    obtain rfl : s = t := by simpa using hrun
    exact h'
  | cons e es ih =>
    obtain ⟨s₁, hs₁, hrun₁⟩ := run_cons_eq_some.mp hrun
    intro s₂ hs₂
    obtain rfl : s₁ = s₂ := Option.some.inj (hs₁.symm.trans hs₂)
    obtain ⟨hok, hrest⟩ := h s₁ hs₁
    exact ⟨hok, ih hrest hrun₁⟩

/-- A condition on the events alone holds of the steps of a run when it holds of its events,
wherever they lead. -/
theorem stepsMeet_of_forall {p : ε → Prop} :
    ∀ {s : σ} {es : List ε}, (∀ e ∈ es, p e) → StepsMeet step (fun _ e => p e) s es := by
  intro s es
  induction es generalizing s with
  | nil => exact fun _ => trivial
  | cons e es ih =>
    intro hall s' _
    obtain ⟨he, hrest⟩ := List.forall_mem_cons.mp hall
    exact ⟨he, ih hrest⟩

/-- An invariant may tell that the steps meet another condition as well. -/
theorem StepsMeet.mono {ok' : σ → ε → Prop}
    (hstep : ∀ s e s', P s → ok s e → step s e = some s' → P s' ∧ ok' s e) :
    ∀ {s : σ} {es : List ε}, P s → StepsMeet step ok s es → StepsMeet step ok' s es := by
  intro s es
  induction es generalizing s with
  | nil => exact fun _ _ => trivial
  | cons e es ih =>
    intro h hok s' hs'
    obtain ⟨hstepok, hrest⟩ := hok s' hs'
    obtain ⟨h', hok'⟩ := hstep s e s' h hstepok hs'
    exact ⟨hok', ih h' hrest⟩

theorem Along.head {s : σ} {es : List ε} (h : Along step P s es) : P s := by
  cases es with
  | nil => exact h
  | cons e es => exact h.1

/-- **The exact condition.** Where a step from an invariant state keeps the invariant exactly when
it meets `ok`, the invariant holds all along a run exactly when all its steps meet `ok`. -/
theorem along_iff_stepsMeet (hstep : ∀ s e s', P s → step s e = some s' → (P s' ↔ ok s e)) :
    ∀ {s : σ} {es : List ε}, P s → (Along step P s es ↔ StepsMeet step ok s es) := by
  intro s es h
  constructor
  · induction es generalizing s with
    | nil => exact fun _ => trivial
    | cons e es ih =>
      intro hall s' hs'
      have hrest := hall.2 s' hs'
      exact ⟨(hstep s e s' h hs').mp hrest.head, ih hrest.head hrest⟩
  · exact along_of_invariant (fun s e s' h hok hs' => (hstep s e s' h hs').mpr hok) h

/-- What follows from a property that holds all along holds all along. -/
theorem Along.mono (h : ∀ s, P s → Q s) : ∀ {s : σ} {es : List ε},
    Along step P s es → Along step Q s es := by
  intro s es
  induction es generalizing s with
  | nil => exact fun hP => h s hP
  | cons e es ih => exact fun hP => ⟨h s hP.1, fun s' hs' => ih (hP.2 s' hs')⟩

theorem Along.and : ∀ {s : σ} {es : List ε}, Along step P s es → Along step Q s es →
    Along step (fun s => P s ∧ Q s) s es := by
  intro s es
  induction es generalizing s with
  | nil => exact fun hP hQ => ⟨hP, hQ⟩
  | cons e es ih =>
    exact fun hP hQ => ⟨⟨hP.1, hQ.1⟩, fun s' hs' => ih (hP.2 s' hs') (hQ.2 s' hs')⟩

theorem Along.last : ∀ {s t : σ} {es : List ε}, Along step P s es → run step s es = some t →
    P t := by
  intro s t es
  induction es generalizing s with
  | nil =>
    intro h hr
    obtain rfl : s = t := by simpa using hr
    exact h
  | cons e es ih =>
    intro h hr
    obtain ⟨s', hs', hr'⟩ := run_cons_eq_some.mp hr
    exact ih (h.2 s' hs') hr'

/-- An invariant of all steps holds all along every run. -/
theorem along_of_step (hstep : ∀ s e s', P s → step s e = some s' → P s') :
    ∀ {s : σ} (es : List ε), P s → Along step P s es := by
  intro s es
  induction es generalizing s with
  | nil => exact fun h => h
  | cons e es ih => exact fun h => ⟨h, fun s' hs' => ih (hstep s e s' h hs')⟩

/-- **The exact condition, with an invariant of all steps.** The invariant `Q` may be used to tell
when a step keeps `P`. -/
theorem along_iff_of_invariant (hinv : ∀ s e s', Q s → step s e = some s' → Q s')
    (hstep : ∀ s e s', Q s → P s → step s e = some s' → (P s' ↔ ok s e)) :
    ∀ {s : σ} {es : List ε}, Q s → P s → (Along step P s es ↔ StepsMeet step ok s es) := by
  intro s es hQ hP
  have hall : Along step Q s es := along_of_step hinv es hQ
  have hboth : ∀ s e s', Q s ∧ P s → step s e = some s' → (Q s' ∧ P s' ↔ ok s e) :=
    fun s e s' h hs => (and_iff_right (hinv s e s' h.1 hs)).trans (hstep s e s' h.1 h.2 hs)
  rw [← along_iff_stepsMeet hboth ⟨hQ, hP⟩]
  exact ⟨fun h => hall.and h, fun h => h.mono fun _ hs => hs.2⟩

/-! ## Simulation -/

/-- **The simulation rule.** When every step of one system has a counterpart in another that keeps
`R`, every run has one. Induction on the run. -/
theorem run_simulated {σ' ε' : Type*} {step' : σ' → ε' → Option σ'} {R : σ → σ' → Prop}
    (f : ε → ε') (hstep : ∀ s t e s', R s t → step s e = some s' →
      ∃ t', step' t (f e) = some t' ∧ R s' t') :
    ∀ {s s' : σ} {t : σ'} {es : List ε}, R s t → run step s es = some s' →
      ∃ t', run step' t (es.map f) = some t' ∧ R s' t' := by
  intro s s' t es
  induction es generalizing s t with
  | nil =>
    intro h hr
    obtain rfl : s = s' := by simpa using hr
    exact ⟨t, rfl, h⟩
  | cons e es ih =>
    intro h hr
    obtain ⟨s₁, hs₁, hr₁⟩ := run_cons_eq_some.mp hr
    obtain ⟨t₁, ht₁, h₁⟩ := hstep s t e s₁ h hs₁
    obtain ⟨t', ht', h'⟩ := ih h₁ hr₁
    exact ⟨t', (run_cons_of_step _ ht₁).trans ht', h'⟩

/-- **The refinement rule.** When every step of one system is matched by a run of another that keeps
`R`, every run is. Induction on the run. -/
theorem run_refined {σ' ε' : Type*} {step' : σ' → ε' → Option σ'} {R : σ → σ' → Prop}
    (hstep : ∀ s t e s', R s t → step s e = some s' →
      ∃ es' t', run step' t es' = some t' ∧ R s' t') :
    ∀ {s s' : σ} {t : σ'} {es : List ε}, R s t → run step s es = some s' →
      ∃ es' t', run step' t es' = some t' ∧ R s' t' := by
  intro s s' t es
  induction es generalizing s t with
  | nil =>
    intro h hr
    obtain rfl : s = s' := by simpa using hr
    exact ⟨[], t, rfl, h⟩
  | cons e es ih =>
    intro h hr
    obtain ⟨s₁, hs₁, hr₁⟩ := run_cons_eq_some.mp hr
    obtain ⟨es₁, t₁, ht₁, h₁⟩ := hstep s t e s₁ h hs₁
    obtain ⟨es₂, t', ht', h'⟩ := ih h₁ hr₁
    exact ⟨es₁ ++ es₂, t', (run_append_of_run es₂ ht₁).trans ht', h'⟩

/-! ## Termination -/

/-- **Runs are finite.** When every step decreases a measure, no run is longer than the measure
of its first state. -/
theorem run_length_le (measure : σ → Nat)
    (hstep : ∀ s e s', P s → step s e = some s' → P s' ∧ measure s' < measure s) :
    ∀ {s t : σ} {es : List ε}, P s → run step s es = some t →
      es.length + measure t ≤ measure s := by
  intro s t es
  induction es generalizing s with
  | nil =>
    intro _ hr
    obtain rfl : s = t := by simpa using hr
    simp
  | cons e es ih =>
    intro h hr
    obtain ⟨s', hs', hr'⟩ := run_cons_eq_some.mp hr
    obtain ⟨h', hlt⟩ := hstep s e s' h hs'
    have hle := ih h' hr'
    rw [List.length_cons]
    omega

/-- No step that meets `ok` is possible: a run whose steps meet it ends here. -/
def Stuck (step : σ → ε → Option σ) (ok : σ → ε → Prop) (s : σ) : Prop :=
  ∀ e s', step s e = some s' → ¬ ok s e

/-- **Runs whose steps meet a condition are finite** when these steps decrease a measure. -/
theorem length_le_of_stepsMeet (measure : σ → Nat)
    (hstep : ∀ s e s', P s → ok s e → step s e = some s' → P s' ∧ measure s' < measure s) :
    ∀ {s t : σ} {es : List ε}, P s → StepsMeet step ok s es → run step s es = some t →
      P t ∧ es.length + measure t ≤ measure s := by
  intro s t es
  induction es generalizing s with
  | nil =>
    intro h _ hr
    obtain rfl : s = t := by simpa using hr
    exact ⟨h, by simp⟩
  | cons e es ih =>
    intro h hok hr
    obtain ⟨s', hs', hr'⟩ := run_cons_eq_some.mp hr
    obtain ⟨hstepok, hrest⟩ := hok s' hs'
    obtain ⟨h', hlt⟩ := hstep s e s' h hstepok hs'
    obtain ⟨ht, hle⟩ := ih h' hrest hr'
    refine ⟨ht, ?_⟩
    rw [List.length_cons]
    omega

/-- **Such a run can be continued to its end.** Strong induction on the measure. -/
theorem exists_stuck_run (measure : σ → Nat)
    (hstep : ∀ s e s', P s → ok s e → step s e = some s' → P s' ∧ measure s' < measure s) :
    ∀ {s : σ}, P s → ∃ es t, run step s es = some t ∧ StepsMeet step ok s es ∧
      Stuck step ok t := by
  intro s h
  induction hn : measure s using Nat.strongRecOn generalizing s with
  | ind n ih =>
    by_cases hstuck : Stuck step ok s
    · exact ⟨[], s, rfl, trivial, hstuck⟩
    · unfold Stuck at hstuck
      push Not at hstuck
      obtain ⟨e, s', hs', hok⟩ := hstuck
      obtain ⟨h', hlt⟩ := hstep s e s' h hok hs'
      obtain ⟨es, t, hrun, hmeet, ht⟩ := ih _ (hn ▸ hlt) h' rfl
      refine ⟨e :: es, t, (run_cons_of_step es hs').trans hrun, ?_, ht⟩
      intro s'' hs''
      obtain rfl : s' = s'' := Option.some.inj (hs'.symm.trans hs'')
      exact ⟨hok, hmeet⟩

/-- **Some run gets there.** When every invariant state has a step to a goal, or to an invariant
state with a smaller measure, a run leads to a goal. Strong induction on the measure. -/
theorem exists_run (measure : σ → Nat)
    (hstep : ∀ s, P s → ∃ e s', step s e = some s' ∧
      (Q s' ∨ P s' ∧ measure s' < measure s)) :
    ∀ {s : σ}, P s → ∃ es t, run step s es = some t ∧ Q t := by
  intro s h
  induction hn : measure s using Nat.strongRecOn generalizing s with
  | ind n ih =>
    obtain ⟨e, s', hs', hgoal | ⟨h', hlt⟩⟩ := hstep s h
    · exact ⟨[e], s', run_cons_of_step [] hs', hgoal⟩
    · obtain ⟨es, t, hrun, hgoal⟩ := ih _ (hn ▸ hlt) h' rfl
      exact ⟨e :: es, t, (run_cons_of_step es hs').trans hrun, hgoal⟩

end Runs
