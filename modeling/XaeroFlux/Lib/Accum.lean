import Mathlib.Data.Finset.Card
import Mathlib.Data.List.DropRight

/-!
# What an accumulator keeps of a list

Elements come one by one. `List.firsts` is the list of an accumulator that takes only the first of
each key (`firsts_concat`), `List.rtake` that of one that drops its oldest element when it is full
(`rtake_concat`). A register keeps the last of what is written to it (`foldl_last`).
-/

namespace List

variable {α κ : Type*}

section Firsts

variable [DecidableEq κ] {key : α → κ}

/-- The first element of each key. -/
def firsts (key : α → κ) : List α → List α
  | [] => []
  | a :: as => a :: (firsts key as).filter fun b => key b ≠ key a

theorem mem_map_firsts {k : κ} {as : List α} : k ∈ (firsts key as).map key ↔ k ∈ as.map key := by
  induction as with
  | nil => rfl
  | cons a as ih =>
    simp only [mem_map, firsts, mem_cons, mem_filter, decide_eq_true_eq] at ih ⊢
    constructor
    · rintro ⟨b, rfl | ⟨hb, -⟩, hk⟩
      · exact ⟨b, .inl rfl, hk⟩
      · obtain ⟨c, hc, hk⟩ := ih.1 ⟨b, hb, hk⟩
        exact ⟨c, .inr hc, hk⟩
    · rintro ⟨b, hb, rfl⟩
      by_cases hk : key b = key a
      · exact ⟨a, .inl rfl, hk.symm⟩
      · obtain ⟨c, hc, hbc⟩ := ih.2 ⟨b, hb.resolve_left (fun h => hk (h ▸ rfl)), rfl⟩
        exact ⟨c, .inr ⟨hc, hbc ▸ hk⟩, hbc⟩

theorem firsts_sublist {as : List α} : (firsts key as).Sublist as := by
  induction as with
  | nil => exact .slnil
  | cons a as ih => exact (filter_sublist.trans ih).cons_cons a

theorem nodup_firsts (as : List α) : ((firsts key as).map key).Nodup := by
  induction as with
  | nil => exact nodup_nil
  | cons a as ih =>
    rw [firsts, map_cons, nodup_cons]
    refine ⟨?_, ih.sublist (filter_sublist.map key)⟩
    intro h
    obtain ⟨b, hb, hk⟩ := mem_map.1 h
    exact of_decide_eq_true (mem_filter.1 hb).2 hk

theorem any_firsts {k : κ} {as : List α} :
    (firsts key as).any (fun b => key b = k) ↔ k ∈ as.map key := by
  rw [← mem_map_firsts, any_eq_true, mem_map]
  simp only [decide_eq_true_eq]

theorem firsts_concat (as : List α) (a : α) :
    firsts key (as ++ [a]) =
      if (firsts key as).any (fun b => key b = key a) then firsts key as
      else firsts key as ++ [a] := by
  induction as with
  | nil => rfl
  | cons c as ih =>
    simp only [any_firsts, map_cons, mem_cons] at ih ⊢
    rw [cons_append, firsts, ih, firsts]
    by_cases hc : key a = key c
    · -- the new element is one of the first's key
      simp only [hc, true_or, if_true]
      split_ifs with ha
      · rfl
      · rw [filter_append, filter_singleton]
        simp [hc]
    · simp only [hc, false_or]
      split_ifs with ha
      · rfl
      · rw [filter_append, filter_singleton]
        simp [hc]

theorem length_firsts (as : List α) : (firsts key as).length = (as.map key).toFinset.card := by
  have hset : ((firsts key as).map key).toFinset = (as.map key).toFinset := by
    ext k
    rw [mem_toFinset, mem_toFinset, mem_map_firsts]
  rw [← hset, toFinset_card_of_nodup (nodup_firsts as), length_map]

end Firsts

/-- An element of a key that is already there is not taken. -/
theorem firsts_concat_of_mem [DecidableEq κ] {key : α → κ} {as : List α} {a : α}
    (h : key a ∈ as.map key) : firsts key (as ++ [a]) = firsts key as := by
  rw [firsts_concat, if_pos (any_firsts.2 h)]

/-- What is taken stays, whatever comes after. -/
theorem firsts_mono [DecidableEq κ] {key : α → κ} {as bs : List α} (h : as <+: bs) :
    firsts key as <+: firsts key bs := by
  obtain ⟨cs, rfl⟩ := h
  induction cs using List.reverseRecOn with
  | nil => rw [append_nil]
  | append_singleton cs c ih =>
    rw [← append_assoc, firsts_concat]
    split_ifs
    · exact ih
    · exact ih.trans (prefix_append _ _)

/-- A window of `n` loses its oldest element to a new one once it is full. -/
theorem rtake_concat {n : ℕ} (hn : 0 < n) (as : List α) (a : α) :
    (as ++ [a]).rtake n =
      (if (as.rtake n).length ≥ n then (as.rtake n).drop 1 else as.rtake n) ++ [a] := by
  obtain ⟨m, rfl⟩ := Nat.exists_eq_add_one.2 hn
  rw [rtake_concat_succ]
  congr 1
  simp only [rtake, length_drop, drop_drop]
  split_ifs
  · congr 1
    omega
  · congr 1
    omega

@[simp] theorem length_rtake (n : ℕ) (as : List α) : (as.rtake n).length = min n as.length := by
  rw [rtake, length_drop]
  omega

theorem cons_eq_concat_iff {a b : α} : ∀ {as : List α},
    b :: as = as ++ [a] ↔ b :: as = replicate (as.length + 1) a
  | [] => by simp
  | c :: as => by
    have hr : replicate ((c :: as).length + 1) a = a :: replicate (as.length + 1) a := rfl
    rw [cons_append, cons.injEq, cons_eq_concat_iff, hr, cons.injEq]
    refine and_congr_left fun h => ?_
    rw [(cons.inj h).1]

/-- A window stays as it is under a new element only if it is full of it. -/
theorem rtake_concat_eq_self {n : ℕ} (hn : 0 < n) {as : List α} {a : α} :
    (as ++ [a]).rtake n = as.rtake n ↔ as.rtake n = replicate n a := by
  rw [rtake_concat hn]
  have hlen : (as.rtake n).length ≤ n := by
    rw [length_rtake]
    omega
  split_ifs with h
  · -- the window is full
    rcases hw : as.rtake n with _ | ⟨b, w⟩
    · rw [hw] at h
      simp at h
      omega
    · rw [hw, length_cons] at h hlen
      obtain rfl : n = w.length + 1 := by omega
      rw [drop_one, tail_cons, eq_comm]
      exact cons_eq_concat_iff
  · constructor
    · intro heq
      have := congrArg length heq
      simp at this
    · intro heq
      rw [heq, length_replicate] at h
      omega

theorem foldl_last {σ β : Type*} {step : σ → α → σ} {write : α → Option β} (get : σ → Option β)
    (h : ∀ s a, get (step s a) = (write a).or (get s)) :
    ∀ (as : List α) (s : σ),
      get (as.foldl step s) = ((as.filterMap write).getLast?).or (get s)
  | [], _ => rfl
  | a :: as, s => by
    rw [foldl_cons, foldl_last get h as, h, ← Option.or_assoc, filterMap_cons]
    rcases write a with _ | b
    · simp
    · rw [getLast?_cons]
      rcases (as.filterMap write).getLast? <;> rfl

end List
