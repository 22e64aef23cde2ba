import Mathlib.Data.List.Basic

/-!
# Code that may panic

A stretch of code ends in a state, having panicked or not; what it did before a panic stays done.
A loop whose body keeps an invariant and panics exactly off `G` gets to its end exactly if every
item meets `G` (`isOk_forEach`). What holds at the end and what holds at a panic may differ
(`Ends`), and a loop's invariant may speak of the items done (`ends_forEach`).
-/

inductive Exec (σ : Type*) where
  | ok (s : σ)
  | panic (s : σ)

namespace Exec

variable {σ τ α : Type*}

def bind : Exec σ → (σ → Exec σ) → Exec σ
  | .ok s, f => f s
  | .panic s, _ => .panic s

def map (f : σ → τ) : Exec σ → Exec τ
  | .ok s => .ok (f s)
  | .panic s => .panic (f s)

def isOk : Exec σ → Bool
  | .ok _ => true
  | .panic _ => false

/-- The state at the end, or at the panic. -/
def state : Exec σ → σ
  | .ok s => s
  | .panic s => s

def forEach (body : σ → α → Exec σ) : List α → σ → Exec σ
  | [], s => .ok s
  | a :: as, s => (body s a).bind (forEach body as)

@[simp] theorem isOk_ok (s : σ) : (ok s).isOk = true := rfl
@[simp] theorem isOk_panic (s : σ) : (panic s).isOk = false := rfl
@[simp] theorem state_ok (s : σ) : (ok s).state = s := rfl
@[simp] theorem state_panic (s : σ) : (panic s).state = s := rfl
@[simp] theorem ok_bind (s : σ) (f : σ → Exec σ) : (ok s).bind f = f s := rfl
@[simp] theorem panic_bind (s : σ) (f : σ → Exec σ) : (panic s).bind f = panic s := rfl

@[simp] theorem isOk_map (f : σ → τ) (x : Exec σ) : (x.map f).isOk = x.isOk := by cases x <;> rfl

@[simp] theorem state_map (f : σ → τ) (x : Exec σ) : (x.map f).state = f x.state := by
  cases x <;> rfl

/-- What holds after the first stretch, panicked or not, and is kept by the second, holds at the
end. -/
theorem state_bind {x : Exec σ} {f : σ → Exec σ} {I : σ → Prop} (hx : I x.state)
    (hf : ∀ s, I s → I (f s).state) : I (x.bind f).state := by
  cases x with
  | ok s => exact hf s hx
  | panic s => exact hx

/-- What the body keeps, panicking or not, holds where the loop ends. -/
theorem state_forEach {body : σ → α → Exec σ} {I : σ → Prop} :
    ∀ {as : List α}, (∀ s, ∀ a ∈ as, I s → I (body s a).state) → ∀ {s : σ}, I s →
      I (forEach body as s).state
  | [], _, _, h => h
  | a :: _, keep, s, h => state_bind (keep s a List.mem_cons_self h) fun _ hs =>
      state_forEach (fun s b hb => keep s b (List.mem_cons_of_mem a hb)) hs

theorem isOk_iff {x : Exec σ} : x.isOk ↔ ∃ s, x = .ok s := by cases x <;> simp

theorem bind_eq_ok {x : Exec σ} {f : σ → Exec σ} {s' : σ} :
    x.bind f = .ok s' ↔ ∃ s, x = .ok s ∧ f s = .ok s' := by
  cases x <;> simp

theorem map_eq_ok {f : σ → τ} {x : Exec σ} {t : τ} :
    x.map f = .ok t ↔ ∃ s, x = .ok s ∧ f s = t := by
  cases x <;> simp [map]

theorem isOk_bind {x : Exec σ} {f : σ → Exec σ} :
    (x.bind f).isOk ↔ ∃ s, x = .ok s ∧ (f s).isOk := by
  cases x <;> simp

/-- What the body keeps when it does not panic holds at the end of the loop. -/
theorem forEach_eq_ok {body : σ → α → Exec σ} {I : σ → Prop}
    (keep : ∀ s a s', I s → body s a = .ok s' → I s') :
    ∀ {as : List α} {s s' : σ}, I s → forEach body as s = .ok s' → I s'
  | [], s, s', h, hs => by
    obtain rfl : s = s' := by simpa [forEach] using hs
    exact h
  | a :: as, s, s', h, hs => by
    obtain ⟨m, hm, hs⟩ := bind_eq_ok.1 hs
    exact forEach_eq_ok keep (keep s a m h hm) hs

/-- A loop whose body keeps an invariant gets to its end exactly if no item panics it. -/
theorem isOk_forEach {body : σ → α → Exec σ} {I : σ → Prop} {G : α → Prop}
    (keep : ∀ s a s', I s → body s a = .ok s' → I s')
    (good : ∀ s a, I s → ((body s a).isOk ↔ G a)) :
    ∀ {as : List α} {s : σ}, I s → ((forEach body as s).isOk ↔ ∀ a ∈ as, G a)
  | [], s, _ => by simp [forEach]
  | a :: as, s, h => by
    rw [forEach, isOk_bind, List.forall_mem_cons, ← good s a h, isOk_iff]
    constructor
    · rintro ⟨m, hm, hs⟩
      exact ⟨⟨m, hm⟩, (isOk_forEach keep good (keep s a m h hm)).1 hs⟩
    · rintro ⟨⟨m, hm⟩, hs⟩
      exact ⟨m, hm, (isOk_forEach keep good (keep s a m h hm)).2 hs⟩

/-! ## A postcondition for the end and one for a panic -/

/-- `Q` holds where the stretch ends, `J` where it panics. -/
def Ends (Q J : σ → Prop) : Exec σ → Prop
  | .ok s => Q s
  | .panic s => J s

section Ends

variable {Q J : σ → Prop}

@[simp] theorem ends_ok {s : σ} : (ok s).Ends Q J ↔ Q s := Iff.rfl
@[simp] theorem ends_panic {s : σ} : (panic s).Ends Q J ↔ J s := Iff.rfl

theorem Ends.mono {x : Exec σ} {Q' J' : σ → Prop} (hx : x.Ends Q J) (hQ : ∀ s, Q s → Q' s)
    (hJ : ∀ s, J s → J' s) : x.Ends Q' J' := by
  cases x with
  | ok s => exact hQ s hx
  | panic s => exact hJ s hx

theorem Ends.bind {x : Exec σ} {f : σ → Exec σ} {Q' : σ → Prop} (hx : x.Ends Q J)
    (hf : ∀ s, Q s → (f s).Ends Q' J) : (x.bind f).Ends Q' J := by
  cases x with
  | ok s => exact hf s hx
  | panic s => exact hx

theorem Ends.map {f : σ → τ} {x : Exec σ} {Q' J' : τ → Prop}
    (hx : x.Ends (fun s => Q' (f s)) fun s => J' (f s)) : (x.map f).Ends Q' J' := by
  cases x <;> exact hx

theorem Ends.state {x : Exec σ} (hx : x.Ends Q J) (hQ : ∀ s, Q s → J s) : J x.state := by
  cases x with
  | ok s => exact hQ s hx
  | panic s => exact hx

/-- A loop invariant may speak of the items done. -/
theorem ends_forEach {body : σ → α → Exec σ} {I : List α → σ → Prop} {as : List α}
    (keep : ∀ pre a suf s, as = pre ++ a :: suf → I pre s → (body s a).Ends (I (pre ++ [a])) J)
    {s : σ} (h : I [] s) : (forEach body as s).Ends (I as) J := by
  -- the items done, and those to do
  suffices ∀ suf pre s, as = pre ++ suf → I pre s → (forEach body suf s).Ends (I as) J from
    this as [] s rfl h
  intro suf
  induction suf with
  | nil =>
    intro pre s has hs
    rw [List.append_nil] at has
    rw [has]
    exact hs
  | cons a suf ih =>
    intro pre s has hs
    refine (keep pre a suf s has hs).bind fun s' hs' => ?_
    exact ih (pre ++ [a]) s' (by simpa using has) hs'

end Ends

end Exec
