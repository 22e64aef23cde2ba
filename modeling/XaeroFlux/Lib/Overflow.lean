import Mathlib.Algebra.GroupWithZero.Nat
import Mathlib.Algebra.Ring.Int.Defs

/-!
# Arithmetic that may overflow

Unsigned arithmetic of a fixed width, as a build does it that checks for overflow or does not. A
question answered with such arithmetic is answered right (`AnswersIff`) if it is in both.
-/

/-- What an operation with the exact result `n` leaves in a word of `w` bits: `none` where it
panics. -/
def fit (checks : Bool) (w : ℕ) (n : ℤ) : Option ℕ :=
  if 0 ≤ n ∧ n < 2 ^ w then some n.toNat
  else if checks then none
  else some (n % 2 ^ w).toNat

theorem fit_of_lt {checks : Bool} {w n : ℕ} (h : n < 2 ^ w) : fit checks w n = some n := by
  have : (0 : ℤ) ≤ n ∧ (n : ℤ) < 2 ^ w := ⟨by omega, by exact_mod_cast h⟩
  rw [fit, if_pos this, Int.toNat_natCast]

theorem fit_of_ge {w n : ℕ} (h : 2 ^ w ≤ n) : fit true w n = none := by
  have : ¬ ((0 : ℤ) ≤ n ∧ (n : ℤ) < 2 ^ w) := by
    rintro ⟨-, hn⟩
    have : n < 2 ^ w := by exact_mod_cast hn
    omega
  rw [fit, if_neg this, if_pos rfl]

theorem fit_sub_of_le {checks : Bool} {w a b : ℕ} (h : b ≤ a) (ha : a < 2 ^ w) :
    fit checks w ((a : ℤ) - b) = some (a - b) := by
  rw [← Nat.cast_sub h, fit_of_lt (by omega)]

/-- A sum that fits is the sum of its parts cut to the word. -/
theorem foldlM_fit {checks : Bool} {w : ℕ} :
    ∀ {ns : List ℕ} {k : ℕ}, k + ns.sum < 2 ^ w →
      ns.foldlM (fun count n => fit checks w (count + n % 2 ^ w : ℕ)) k = some (k + ns.sum)
  | [], _, _ => rfl
  | n :: ns, k, h => by
    rw [List.sum_cons, ← Nat.add_assoc] at h
    rw [List.foldlM_cons, Nat.mod_eq_of_lt (by omega), fit_of_lt (by omega), Option.bind_eq_bind,
      Option.bind_some, foldlM_fit h, List.sum_cons, Nat.add_assoc]

/-- A difference below zero is checked, or large. -/
theorem fit_sub_of_lt {checks : Bool} {w a b : ℕ} (h : a < b) (hb : b < 2 ^ w) :
    fit checks w ((a : ℤ) - b) = if checks then none else some (2 ^ w - (b - a)) := by
  have hneg : ¬ (0 ≤ (a : ℤ) - b ∧ (a : ℤ) - b < 2 ^ w) := by omega
  have hw : (2 : ℤ) ^ w = (2 ^ w : ℕ) := by push_cast; rfl
  have hmod : ((a : ℤ) - b) % 2 ^ w = (a : ℤ) - b + 2 ^ w := by
    rw [← Int.add_emod_right, Int.emod_eq_of_lt] <;> omega
  rw [fit, if_neg hneg, hmod]
  split_ifs
  · rfl
  · congr 1
    omega

/-! ## Answers -/

/-- Whether overflow is checked for or not, `f` comes to an answer, and the answer is that `p`. -/
def AnswersIff (f : Bool → Option Bool) (p : Prop) : Prop :=
  ∀ checks, ∃ b, f checks = some b ∧ (b = true ↔ p)

theorem answersIff_some {f : Bool → Option Bool} {b : Bool} {p : Prop}
    (h : ∀ checks, f checks = some b) : AnswersIff f p ↔ (b = true ↔ p) := by
  constructor
  · intro hf
    obtain ⟨b', hb', hp⟩ := hf true
    rwa [Option.some.inj ((h true).symm.trans hb')]
  · intro hp checks
    exact ⟨b, h checks, hp⟩

theorem not_answersIff_of_panic {f : Bool → Option Bool} {p : Prop} (h : f true = none) :
    ¬ AnswersIff f p := by
  intro hf
  obtain ⟨b, hb, -⟩ := hf true
  simp [h] at hb

/-- Whether `b` lies more than `d` below `a` is answered from the difference exactly if `b` does not
lie above `a`. -/
theorem answersIff_sub {w a b d : ℕ} {p : Prop} (ha : a < 2 ^ w) (hb : b < 2 ^ w) :
    AnswersIff (fun checks => (fit checks w ((a : ℤ) - b)).map (d < ·)) p ↔
      b ≤ a ∧ (b + d < a ↔ p) := by
  rcases Nat.lt_or_ge a b with hlt | hle
  · refine iff_of_false (not_answersIff_of_panic ?_) fun h => absurd h.1 (by omega)
    rw [fit_sub_of_lt hlt hb, if_pos rfl, Option.map_none]
  · rw [answersIff_some fun checks => by rw [fit_sub_of_le hle ha, Option.map_some],
      decide_eq_true_iff]
    have hd : d < a - b ↔ b + d < a := by omega
    rw [hd]
    exact ⟨fun h => ⟨hle, h⟩, fun h => h.2⟩
