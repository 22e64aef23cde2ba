import Mathlib.Data.List.Induction

/-!
# Runs of a machine

A machine is a partial step function: what an action does to a state, or `none` where the action
is not enabled. What a run of it did is the list of its actions, so a history-dependent fact is
one about the actions taken and the state they lead to (`run_induction`).

Steps that lower a measure come to an end (`length_le_of_lowers`), and where one is enabled short of
the goal they come to it (`exists_run_to`).

`Throughout` says a property of every state a run visits, `EachStep` one of every step it takes;
`throughout_iff_eachStep` trades the first for the second where a step keeps the property exactly
when it meets the condition.
-/

namespace Machine

variable {σ α : Type*} (step : σ → α → Option σ)

/-- The state a list of actions leads to, if each was enabled. -/
def run : σ → List α → Option σ
  | s, [] => some s
  | s, a :: as => (step s a).bind (run · as)

/-- `P`, of the actions so far and the state they led to, holds at every point of the run. -/
def Throughout (s₀ : σ) (as : List α) (P : List α → σ → Prop) : Prop :=
  ∀ pre suf s, as = pre ++ suf → run step s₀ pre = some s → P pre s

/-- `Q`, of the actions before a step, the state before it and the action, holds at every step. -/
def EachStep (s₀ : σ) (as : List α) (Q : List α → σ → α → Prop) : Prop :=
  ∀ pre a suf s, as = pre ++ a :: suf → run step s₀ pre = some s → Q pre s a

variable {step}

@[simp] theorem run_nil {s s' : σ} : run step s [] = some s' ↔ s = s' := by
  simp [run]

theorem run_cons {s s' : σ} {a : α} {as : List α} :
    run step s (a :: as) = some s' ↔ ∃ m, step s a = some m ∧ run step m as = some s' := by
  simp [run, Option.bind_eq_some_iff]

theorem run_append {s s' : σ} :
    ∀ {as bs : List α},
      run step s (as ++ bs) = some s' ↔ ∃ m, run step s as = some m ∧ run step m bs = some s'
  | [], bs => by simp [run]
  | a :: as, bs => by
    simp only [List.cons_append, run_cons, @run_append _ _ as bs]
    constructor
    · rintro ⟨m, hm, m', hm', h⟩
      exact ⟨m', ⟨m, hm, hm'⟩, h⟩
    · rintro ⟨m', ⟨m, hm, hm'⟩, h⟩
      exact ⟨m, hm, m', hm', h⟩

theorem run_concat {s s' : σ} {as : List α} {a : α} :
    run step s (as ++ [a]) = some s' ↔ ∃ m, run step s as = some m ∧ step m a = some s' := by
  simp [run_append, run_cons]

/-- What holds at the start and is kept by every step holds of the actions a run took and the
state it led to. -/
theorem run_induction {s₀ : σ} {P : List α → σ → Prop} (start : P [] s₀)
    (keep : ∀ as s a s', run step s₀ as = some s → P as s → step s a = some s' → P (as ++ [a]) s') :
    ∀ {as : List α} {s : σ}, run step s₀ as = some s → P as s := by
  intro as
  induction as using List.reverseRecOn with
  | nil => intro s h; obtain rfl := run_nil.1 h; exact start
  | append_singleton as a ih =>
    intro s h
    obtain ⟨m, hm, hs⟩ := run_concat.1 h
    exact keep as m a s hm (ih hm) hs

theorem run_invariant {I : σ → Prop} (keep : ∀ s a s', I s → step s a = some s' → I s') {s₀ s : σ}
    {as : List α} (start : I s₀) (h : run step s₀ as = some s) : I s :=
  run_induction (P := fun _ s => I s) start (fun _ s a s' _ hs hst => keep s a s' hs hst) h

/-- A component that takes part in some steps of a machine and is left alone by the others runs
through the former. -/
theorem run_view {τ β : Type*} {step' : τ → β → Option τ} (view : σ → τ) (part : α → Option β)
    (act : ∀ s a s' b, step s a = some s' → part a = some b → step' (view s) b = some (view s'))
    (idle : ∀ s a s', step s a = some s' → part a = none → view s' = view s) {s s' : σ} :
    ∀ {as : List α}, run step s as = some s' →
      run step' (view s) (as.filterMap part) = some (view s')
  | [], h => by simpa using congrArg view (run_nil.1 h)
  | a :: as, h => by
    obtain ⟨m, hm, h⟩ := run_cons.1 h
    have ih := run_view view part act idle h
    rcases hp : part a with _ | b
    · rw [List.filterMap_cons_none hp, ← idle s a m hm hp]
      exact ih
    · rw [List.filterMap_cons_some hp]
      exact run_cons.2 ⟨view m, act s a m b hm hp, ih⟩

section Measure

variable {μ : σ → ℕ} {K : α → Prop}

theorem length_le_of_lowers (lower : ∀ s a s', K a → step s a = some s' → μ s' < μ s) :
    ∀ {as : List α} {s s' : σ}, run step s as = some s' → (∀ a ∈ as, K a) →
      as.length + μ s' ≤ μ s
  | [], s, s', h, _ => by
    obtain rfl := run_nil.1 h
    simp
  | a :: as, s, s', h, hK => by
    obtain ⟨m, hm, h⟩ := run_cons.1 h
    have hlt := lower s a m (hK a List.mem_cons_self) hm
    have ih := length_le_of_lowers lower h fun b hb => hK b (List.mem_cons_of_mem a hb)
    rw [List.length_cons]
    omega

theorem exists_run_to {goal : σ → Prop}
    (lower : ∀ s a s', K a → step s a = some s' → μ s' < μ s)
    (enabled : ∀ s, ¬ goal s → ∃ a s', K a ∧ step s a = some s') (s : σ) :
    ∃ as s', run step s as = some s' ∧ (∀ a ∈ as, K a) ∧ goal s' := by
  induction hn : μ s using Nat.strongRecOn generalizing s with
  | _ n ih =>
    by_cases hg : goal s
    · exact ⟨[], s, rfl, by simp, hg⟩
    · obtain ⟨a, m, ha, hm⟩ := enabled s hg
      obtain ⟨as, s', h, hK, hs'⟩ := ih (μ m) (hn ▸ lower s a m ha hm) m rfl
      refine ⟨a :: as, s', run_cons.2 ⟨m, hm, h⟩, ?_, hs'⟩
      exact List.forall_mem_cons.2 ⟨ha, hK⟩

end Measure

theorem Throughout.of_append {s₀ : σ} {pre suf : List α} {P : List α → σ → Prop}
    (h : Throughout step s₀ (pre ++ suf) P) : Throughout step s₀ pre P := by
  rintro p q s rfl hr
  exact h p (q ++ suf) s (by simp) hr

theorem EachStep.of_append {s₀ : σ} {pre suf : List α} {Q : List α → σ → α → Prop}
    (h : EachStep step s₀ (pre ++ suf) Q) : EachStep step s₀ pre Q := by
  rintro p a q s rfl hr
  exact h p a (q ++ suf) s (by simp) hr

/-- A condition on a step that does not look back, from where a run has come to. -/
theorem EachStep.after {s₀ m : σ} {pre suf : List α} {Q : σ → α → Prop}
    (h : EachStep step s₀ (pre ++ suf) fun _ => Q) (hm : run step s₀ pre = some m) :
    EachStep step m suf fun _ => Q := by
  rintro p a q s rfl hr
  exact h (pre ++ p) a q s (by simp) (run_append.2 ⟨m, hm, hr⟩)

theorem eachStep_nil {s : σ} {Q : List α → σ → α → Prop} : EachStep step s [] Q := by
  rintro pre a suf m h
  simp at h

/-- A condition on a step that does not look back. -/
theorem eachStep_cons {s : σ} {a : α} {as : List α} {Q : σ → α → Prop} :
    EachStep step s (a :: as) (fun _ => Q) ↔
      Q s a ∧ ∀ m, step s a = some m → EachStep step m as fun _ => Q := by
  constructor
  · refine fun h => ⟨h [] a as s rfl rfl, ?_⟩
    rintro m hm pre b suf s' rfl hr
    exact h (a :: pre) b suf s' rfl (run_cons.2 ⟨m, hm, hr⟩)
  · rintro ⟨ha, h⟩ pre b suf s' heq hr
    rcases pre with _ | ⟨c, pre⟩
    · obtain ⟨rfl, rfl⟩ := List.cons.inj heq
      obtain rfl := run_nil.1 hr
      exact ha
    · obtain ⟨rfl, rfl⟩ := List.cons.inj heq
      obtain ⟨m, hm, hr⟩ := run_cons.1 hr
      exact h m hm pre b suf s' rfl hr

instance EachStep.decidable {Q : σ → α → Prop} [∀ s a, Decidable (Q s a)] :
    ∀ (as : List α) (s : σ), Decidable (EachStep step s as fun _ => Q)
  | [], _ => isTrue eachStep_nil
  | a :: as, s =>
    have (m : σ) : Decidable (EachStep step m as fun _ => Q) := EachStep.decidable as m
    decidable_of_iff (Q s a ∧ ∀ m ∈ step s a, EachStep step m as fun _ => Q) eachStep_cons.symm

/-- A property kept by the steps that meet `Q` holds throughout a run all of whose steps do. -/
theorem throughout_of_eachStep {s₀ : σ} {P : List α → σ → Prop} {Q : List α → σ → α → Prop}
    (start : P [] s₀)
    (keep : ∀ as s a s', run step s₀ as = some s → P as s → step s a = some s' → Q as s a →
      P (as ++ [a]) s') {as : List α} (h : EachStep step s₀ as Q) : Throughout step s₀ as P := by
  rintro pre suf s rfl hr
  replace h := h.of_append
  induction pre using List.reverseRecOn generalizing s suf with
  | nil => obtain rfl := run_nil.1 hr; exact start
  | append_singleton pre a ih =>
    obtain ⟨m, hm, hs⟩ := run_concat.1 hr
    exact keep pre m a s hm (ih [] m hm h.of_append) hs (h pre a [] m rfl hm)

/-- If a step from a state with the property keeps it exactly when the step meets `Q`, then the
property holds throughout a run exactly when every step of the run meets `Q`. -/
theorem throughout_iff_eachStep {s₀ s : σ} {as : List α} {P : List α → σ → Prop}
    {Q : List α → σ → α → Prop} (start : P [] s₀)
    (keep : ∀ as s a s', run step s₀ as = some s → P as s → step s a = some s' →
      (P (as ++ [a]) s' ↔ Q as s a)) (hr : run step s₀ as = some s) :
    Throughout step s₀ as P ↔ EachStep step s₀ as Q := by
  refine ⟨?_, throughout_of_eachStep start fun as s a s' h hP hs => (keep as s a s' h hP hs).2⟩
  rintro h pre a suf m rfl hm
  obtain ⟨m', hm', h'⟩ := run_append.1 hr
  obtain rfl : m = m' := Option.some.inj (hm.symm.trans hm')
  obtain ⟨s', hs', -⟩ := run_cons.1 h'
  refine (keep pre m a s' hm (h pre _ m rfl hm) hs').1 (h (pre ++ [a]) suf s' (by simp) ?_)
  exact run_concat.2 ⟨m, hm, hs'⟩

end Machine
