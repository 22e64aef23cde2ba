import XaeroFlux.Proofs.SnapshotTransfer

/-!
# When a snapshot is wanted

Both decisions compute in machine words what they mean in exact arithmetic. The age of a sync is a
difference of two readings nobody compares first, so it is right up to a timestamp ahead of the
clock (`needsSnapshot_iff`); the share of items is besides a product that may overflow, compared
strictly where its boundary is meant to count (`shouldRequestSnapshot_iff`).
-/

namespace XaeroFlux

/-! ## By the age of the sync -/

section Age

variable {κ : Type} {env : RequesterEnv κ}

/-- After any downloads and syncs `needs_snapshot` is right in every build exactly if the group's
last sync, if it had one, is not ahead of the clock. -/
theorem needsSnapshot_iff (nodeId g : String) (ops : List (SnapshotRequester.Op κ)) (now : UInt64) :
    AnswersIff
        (fun checks =>
          ((SnapshotRequester.new nodeId).applyAll env ops).needsSnapshot checks now g)
        (SnapshotRequester.lastSync env g ops = none
          ∨ ∃ ts, SnapshotRequester.lastSync env g ops = some ts
            ∧ ts.toNat + 6 * 3600 < now.toNat) ↔
      ∀ ts, SnapshotRequester.lastSync env g ops = some ts → ts ≤ now := by
  have hsync : ((SnapshotRequester.new nodeId).applyAll env ops).syncState.get g
      = SnapshotRequester.lastSync env g ops := by
    rw [SnapshotRequester.syncState_applyAll]
    exact Option.or_none
  unfold SnapshotRequester.needsSnapshot
  rw [hsync]
  rcases SnapshotRequester.lastSync env g ops with _ | ts
  · simp [answersIff_some fun _ => rfl]
  · simp only [reduceCtorEq, Option.some.injEq, exists_eq_left', false_or, forall_eq']
    rw [answersIff_sub now.toNat_lt ts.toNat_lt, UInt64.le_iff_toNat_le]
    simp

/-- A clock before the epoch reads 0, and any recorded timestamp is ahead of it. -/
theorem aheadOfClock_wrong : ¬ ∀ (ops : List (SnapshotRequester.Op Unit)) (now : UInt64),
    AnswersIff
      (fun checks => ((SnapshotRequester.new "me").applyAll SnapshotRequester.oneNode
        ops).needsSnapshot checks now "rust")
      (SnapshotRequester.lastSync SnapshotRequester.oneNode "rust" ops = none
        ∨ ∃ ts, SnapshotRequester.lastSync SnapshotRequester.oneNode "rust" ops = some ts
          ∧ ts.toNat + 6 * 3600 < now.toNat) := by
  intro h
  exact not_answersIff_of_panic (by decide) (h [.markSynced "rust" 42] 0)

end Age

/-! ## By the number of items -/

variable {w : ℕ}

/-- Where the product fits, the remote's count is compared with the exact share, strictly. -/
theorem shouldRequestSnapshot_of_lt {checks : Bool} {now : UInt64} {localItemCount : BitVec w}
    {remoteItemCount : UInt32} {lastSyncTs : Option UInt64} (hpos : localItemCount.toNat ≠ 0)
    (hfit : 12 * localItemCount.toNat < 2 ^ w) :
    shouldRequestSnapshot checks now localItemCount remoteItemCount lastSyncTs =
      if 12 * localItemCount.toNat < 10 * (remoteItemCount.toNat % 2 ^ w) then some true
      else match lastSyncTs with
        | some ts => (fit checks 64 ((now.toNat : ℤ) - ts.toNat)).map (6 * 3600 < ·)
        | none => some false := by
  have hshare : remoteItemCount.toNat % 2 ^ w > localItemCount.toNat * 12 / 10 ↔
      12 * localItemCount.toNat < 10 * (remoteItemCount.toNat % 2 ^ w) := by omega
  unfold shouldRequestSnapshot
  rw [if_neg hpos, fit_of_lt (by omega), Option.bind_eq_bind, Option.bind_some]
  refine if_congr hshare rfl ?_
  rcases lastSyncTs with _ | ts <;> rfl

/-- `should_request_snapshot` is right in every build exactly if the local side has no items, or
their twelvefold fits a `usize` and either the remote's share is above the boundary or the age of
the sync decides: the sync is not ahead of the clock, and a remote at the boundary (or past it,
where a `usize` cuts its count) comes with a sync that is old enough. -/
theorem shouldRequestSnapshot_iff (now : UInt64) (localItemCount : BitVec w)
    (remoteItemCount : UInt32) (lastSyncTs : Option UInt64) :
    AnswersIff
        (fun checks =>
          shouldRequestSnapshot checks now localItemCount remoteItemCount lastSyncTs)
        (localItemCount.toNat = 0 ∨ 12 * localItemCount.toNat ≤ 10 * remoteItemCount.toNat
          ∨ ∃ ts, lastSyncTs = some ts ∧ ts.toNat + 6 * 3600 < now.toNat) ↔
      localItemCount.toNat = 0 ∨ 12 * localItemCount.toNat < 2 ^ w
        ∧ (12 * localItemCount.toNat < 10 * (remoteItemCount.toNat % 2 ^ w)
          ∨ (∀ ts, lastSyncTs = some ts → ts ≤ now)
            ∧ (12 * localItemCount.toNat ≤ 10 * remoteItemCount.toNat →
              ∃ ts, lastSyncTs = some ts ∧ ts.toNat + 6 * 3600 < now.toNat)) := by
  by_cases hpos : localItemCount.toNat = 0
  · have hempty (checks : Bool) : shouldRequestSnapshot checks now localItemCount remoteItemCount
        lastSyncTs = some true := if_pos hpos
    rw [answersIff_some hempty]
    simp [hpos]
  rcases Nat.lt_or_ge (12 * localItemCount.toNat) (2 ^ w) with hfit | hover
  · simp only [shouldRequestSnapshot_of_lt hpos hfit, hpos, hfit, false_or, true_and]
    have hcut := Nat.mod_le remoteItemCount.toNat (2 ^ w)
    split_ifs with hshare
    · rw [answersIff_some fun checks => rfl]
      have : 12 * localItemCount.toNat ≤ 10 * remoteItemCount.toNat := by omega
      simp [hshare, this]
    · rcases lastSyncTs with _ | ts
      · rw [answersIff_some fun checks => rfl]
        simp [hshare]
      · simp only [Option.some.injEq, exists_eq_left', forall_eq']
        rw [answersIff_sub now.toNat_lt ts.toNat_lt, UInt64.le_iff_toNat_le]
        -- an old sync is wanted whatever the share
        have hor (p q : Prop) : (q ↔ p ∨ q) ↔ (p → q) := by tauto
        rw [hor]
        simp [hshare]
  · rw [iff_false_left]
    · omega
    · refine not_answersIff_of_panic ?_
      unfold shouldRequestSnapshot
      rw [if_neg hpos, fit_of_ge (by omega)]
      rfl

/-- Six items are 20 percent more than five, and overlooked. -/
theorem boundary_overlooked : ¬ ∀ (now : UInt64) (localItemCount : BitVec 64)
    (remoteItemCount : UInt32) (lastSyncTs : Option UInt64),
    AnswersIff
      (fun checks => shouldRequestSnapshot checks now localItemCount remoteItemCount lastSyncTs)
      (localItemCount.toNat = 0 ∨ 12 * localItemCount.toNat ≤ 10 * remoteItemCount.toNat
        ∨ ∃ ts, lastSyncTs = some ts ∧ ts.toNat + 6 * 3600 < now.toNat) := by
  intro h
  have hsix := (answersIff_some (b := false) fun checks => by cases checks <;> decide).1 (h 0 5 6 none)
  revert hsix
  decide

end XaeroFlux
