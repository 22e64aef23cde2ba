import XaeroFlux.Lib.Machine

/-!
# Noninterference by unwinding

`view` says what an observer sees of an action. A relation between states that the actions they do
not see keep on either side, and those they do see keep on both, relates the states of any two runs
of which the observer sees the same.
-/

namespace Machine

variable {σ α β : Type*} {step : σ → α → Option σ}

/-- The relation `R` unwinds along the actions that meet `C`. -/
structure Unwinds (step : σ → α → Option σ) (view : α → Option β) (C : α → Prop)
    (R : σ → σ → Prop) : Prop where
  symm : ∀ {s t}, R s t → R t s
  /-- An action that is not seen is not felt. -/
  skip : ∀ {s t s' a}, R s t → C a → view a = none → step s a = some s' → R s' t
  /-- Actions seen as the same do the same. -/
  sync : ∀ {s t s' t' a a' b}, R s t → C a → C a' → view a = some b → view a' = some b →
    step s a = some s' → step t a' = some t' → R s' t'

namespace Unwinds

variable {view : α → Option β} {C : α → Prop} {R : σ → σ → Prop}

theorem skip_run (hU : Unwinds step view C R) {t s' : σ} :
    ∀ {as : List α} {s : σ}, (∀ a ∈ as, C a) → (∀ a ∈ as, view a = none) → R s t →
      run step s as = some s' → R s' t
  | [], s, _, _, hR, h => by rwa [← run_nil.1 h]
  | a :: as, s, hC, hv, hR, h => by
    obtain ⟨m, hm, h⟩ := run_cons.1 h
    obtain ⟨hCa, hC⟩ := List.forall_mem_cons.1 hC
    obtain ⟨hva, hv⟩ := List.forall_mem_cons.1 hv
    exact skip_run hU hC hv (hU.skip hR hCa hva hm) h

/-- Runs of which the same is seen lead to related states. -/
theorem run (hU : Unwinds step view C R) {s' t' : σ} :
    ∀ {as bs : List α} {s t : σ}, (∀ a ∈ as, C a) → (∀ b ∈ bs, C b) →
      as.filterMap view = bs.filterMap view → R s t →
      Machine.run step s as = some s' → Machine.run step t bs = some t' → R s' t'
  | [], bs, s, t, _, hCb, hv, hR, hs, ht => by
    rw [← run_nil.1 hs]
    have hnone : ∀ b ∈ bs, view b = none := List.filterMap_eq_nil_iff.1 hv.symm
    exact hU.symm (hU.skip_run hCb hnone (hU.symm hR) ht)
  | a :: as, bs, s, t, hCa, hCb, hv, hR, hs, ht => by
    obtain ⟨m, hm, hs⟩ := run_cons.1 hs
    obtain ⟨hC, hCa⟩ := List.forall_mem_cons.1 hCa
    rcases hva : view a with _ | b
    · rw [List.filterMap_cons_none hva] at hv
      exact run hU hCa hCb hv (hU.skip hR hC hva hm) hs ht
    · rw [List.filterMap_cons_some hva] at hv
      -- the other run sees `b` too, after what it does not see
      obtain ⟨hidden, a', rest, rfl, hhidden, hva', hrest⟩ := List.filterMap_eq_cons_iff.1 hv.symm
      obtain ⟨t₁, ht₁, ht⟩ := run_append.1 ht
      obtain ⟨t₂, ht₂, ht⟩ := run_cons.1 ht
      have hCh : ∀ b ∈ hidden, C b := fun b hb => hCb b (List.mem_append_left _ hb)
      have hCr : ∀ b ∈ a' :: rest, C b := fun b hb => hCb b (List.mem_append_right _ hb)
      have hR₁ := hU.symm (hU.skip_run hCh hhidden (hU.symm hR) ht₁)
      have hR₂ := hU.sync hR₁ hC (hCr a' List.mem_cons_self) hva hva' hm ht₂
      exact run hU hCa (fun b hb => hCr b (.tail _ hb)) hrest.symm hR₂ hs ht

end Unwinds

end Machine
