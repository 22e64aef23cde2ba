import XaeroFlux.Proofs.Swarm

/-!
# A fetch over several holders

What the store has of a blob when some holders have been dialed is what it had and what each of
them brought (`Obtained`). The loop dials the holders in order until the blob is covered
(`dials_take`), so a fetch is settled by what the holders bring between them, and an error of the
one that completes the blob does not show.
-/

namespace XaeroFlux

/-- The ranges a dial brings. -/
def Attempt.got : Attempt → Finset ℕ
  | .dialFailed _ => ∅
  | .dialTimedOut => ∅
  | .transfer got _ => got

namespace BlobSwarm

variable {κ : Type} (env : SwarmEnv κ) (dial : ℕ → κ → Attempt) (hash : Digest)

/-- A range that is there, or that one of the first `j` holders brings; the first of them is dialed
`n`-th. -/
def Obtained (s : BlobSwarm) (n : ℕ) (ks : List κ) (j : ℕ) (r : ℕ) : Prop :=
  r ∈ s.store hash ∨ ∃ i < j, ∃ k, ks[i]? = some k ∧ r ∈ (dial (n + i) k).got ∩ env.ranges hash

/-- The first `j` holders complete the blob. -/
def Covers (s : BlobSwarm) (n : ℕ) (ks : List κ) (j : ℕ) : Prop :=
  ∀ r ∈ env.ranges hash, Obtained env dial hash s n ks j r

/-- The swarm after a dial. -/
def dialedOnce (s : BlobSwarm) (a : Attempt) : BlobSwarm := s.addRanges env hash a.got

variable {env dial hash} {s : BlobSwarm} {n j : ℕ} {k : κ} {ks : List κ} {r : ℕ}

theorem Obtained.mono {j' : ℕ} (h : Obtained env dial hash s n ks j r) (hj : j ≤ j') :
    Obtained env dial hash s n ks j' r := by
  refine h.imp_right fun h => ?_
  obtain ⟨i, hi, h⟩ := h
  exact ⟨i, by omega, h⟩

theorem Covers.mono {j' : ℕ} (h : Covers env dial hash s n ks j) (hj : j ≤ j') :
    Covers env dial hash s n ks j' :=
  fun r hr => (h r hr).mono hj

theorem obtained_zero : Obtained env dial hash s n ks 0 r ↔ r ∈ s.store hash := by
  simp [Obtained]

theorem covers_zero : Covers env dial hash s n ks 0 ↔ s.has env hash := by
  simp only [Covers, obtained_zero, has_iff, Finset.subset_iff]

theorem obtained_succ : Obtained env dial hash s n (k :: ks) (j + 1) r ↔
    Obtained env dial hash (dialedOnce env hash s (dial n k)) (n + 1) ks j r := by
  simp only [Obtained, dialedOnce, addRanges, Function.update_self, Finset.mem_union, or_assoc]
  refine or_congr_right ?_
  constructor
  · intro h
    obtain ⟨i, hi, k', hk', hr⟩ := h
    rcases i with _ | i
    · rw [List.getElem?_cons_zero, Option.some.injEq] at hk'
      rw [← hk'] at hr
      exact .inl hr
    · rw [List.getElem?_cons_succ] at hk'
      rw [show n + (i + 1) = n + 1 + i by omega] at hr
      exact .inr ⟨i, by omega, k', hk', hr⟩
  · intro h
    rcases h with hr | ⟨i, hi, k', hk', hr⟩
    · exact ⟨0, by omega, k, rfl, hr⟩
    · rw [show n + 1 + i = n + (i + 1) by omega] at hr
      exact ⟨i + 1, by omega, k', hk', hr⟩

theorem covers_succ : Covers env dial hash s n (k :: ks) (j + 1) ↔
    Covers env dial hash (dialedOnce env hash s (dial n k)) (n + 1) ks j := by
  unfold Covers
  simp only [obtained_succ]

/-! ## The loop -/

theorem addRanges_empty : s.addRanges env hash ∅ = s := by
  have hstore : s.store hash ∪ ∅ ∩ env.ranges hash = s.store hash := by
    ext r
    simp
  rw [addRanges, hstore, Function.update_eq_self]

theorem tryProvidersDialing_snd : ∀ (ks : List κ) (s : BlobSwarm) (lastErr : Option String) (n : ℕ),
    (tryProvidersDialing env dial hash s lastErr n ks).2 =
      tryProviders env dial hash s lastErr n ks
  | [], s, lastErr, n => rfl
  | k :: ks, s, lastErr, n => by
    unfold tryProvidersDialing tryProviders
    split_ifs
    · rfl
    · rcases dial n k with e | _ | ⟨got, _ | e⟩ <;> exact tryProvidersDialing_snd ks _ _ _

/-- A provider dialed is put down, and the loop goes on with what it brought. -/
theorem tryProvidersDialing_cons (dial : ℕ → κ → Attempt) (lastErr : Option String) (n : ℕ) (k : κ)
    (ks : List κ) (h : ¬ s.has env hash) :
    ∃ lastErr', tryProvidersDialing env dial hash s lastErr n (k :: ks) =
      let (dialed, out) := tryProvidersDialing env dial hash (dialedOnce env hash s (dial n k))
        lastErr' (n + 1) ks
      (k :: dialed, out) := by
  rw [tryProvidersDialing, if_neg h, dialedOnce]
  rcases dial n k with e | _ | ⟨got, _ | e⟩
  · exact ⟨_, by rw [Attempt.got, addRanges_empty]⟩
  · exact ⟨_, by rw [Attempt.got, addRanges_empty]⟩
  · exact ⟨_, rfl⟩
  · exact ⟨_, rfl⟩

/-- The loop dials the holders in order while they do not cover the blob, and the store has what
they brought. -/
theorem dials_take : ∀ (ks : List κ) (s : BlobSwarm) (lastErr : Option String) (n : ℕ),
    ∃ d ≤ ks.length, (tryProvidersDialing env dial hash s lastErr n ks).1 = ks.take d
      ∧ (∀ j < d, ¬ Covers env dial hash s n ks j)
      ∧ (d = ks.length ∨ Covers env dial hash s n ks d)
      ∧ (∀ r, r ∈ (tryProvidersDialing env dial hash s lastErr n ks).2.1.store hash ↔
        Obtained env dial hash s n ks d r)
      ∧ ∀ other ≠ hash, (tryProvidersDialing env dial hash s lastErr n ks).2.1.store other
        = s.store other
  | [], s, lastErr, n =>
    ⟨0, le_refl 0, rfl, fun j hj => absurd hj (Nat.not_lt_zero j), .inl rfl,
      fun _ => obtained_zero.symm, fun _ _ => rfl⟩
  | k :: ks, s, lastErr, n => by
    by_cases hs : s.has env hash
    · have hloop : tryProvidersDialing env dial hash s lastErr n (k :: ks) = ([], s, lastErr) := by
        rw [tryProvidersDialing, if_pos hs]
      rw [hloop]
      exact ⟨0, Nat.zero_le _, rfl, fun j hj => absurd hj (Nat.not_lt_zero j),
        .inr (covers_zero.2 hs), fun _ => obtained_zero.symm, fun _ _ => rfl⟩
    · obtain ⟨lastErr', hloop⟩ := tryProvidersDialing_cons dial lastErr n k ks hs
      obtain ⟨d, hd, hdialed, hbefore, hend, hstore, hother⟩ :=
        dials_take ks (dialedOnce env hash s (dial n k)) lastErr' (n + 1)
      rw [hloop]
      refine ⟨d + 1, by simpa using hd, ?_, ?_, ?_, ?_, ?_⟩
      · rw [List.take_succ_cons, ← hdialed]
      · intro j hj
        rcases j with _ | j
        · rwa [covers_zero]
        · rw [covers_succ]
          exact hbefore j (by omega)
      · rw [covers_succ]
        refine hend.imp_left fun h => ?_
        rw [h, List.length_cons]
      · intro r
        rw [obtained_succ]
        exact hstore r
      · intro other ho
        rw [hother other ho]
        exact Function.update_of_ne ho _ _

/-! ## The fetch -/

theorem parseHolders_of_map : ∀ {holders : List String} {ks : List κ},
    holders.map env.keys.fromStr = ks.map Except.ok → parseHolders env holders = .ok ks
  | [], [], _ => rfl
  | [], _ :: _, h => by simp at h
  | _ :: _, [], h => by simp at h
  | id :: holders, k :: ks, h => by
    obtain ⟨hk, h⟩ := List.cons.inj h
    rw [parseHolders_cons, hk]
    simp only [parseHolders_of_map h]
    rfl

theorem fetch_of_parsed (s : BlobSwarm) (dial : ℕ → κ → Attempt) {holders : List String}
    (hne : holders ≠ []) (hp : parseHolders env holders = .ok ks)
    (hbytes : env.blake3 (env.bytes hash) = hash) :
    (fetch env s dial hash holders).2 = (tryProvidersDialing env dial hash s none 0 ks).2.1
      ∧ (fetch env s dial hash holders).1 =
        if (tryProvidersDialing env dial hash s none 0 ks).2.1.has env hash then
          .ok (env.bytes hash)
        else .error ((tryProvidersDialing env dial hash s none 0 ks).2.2.getD
          ("no holder in the set could serve " ++ hash.toHex)) := by
  have hempty : holders.isEmpty = false := by simpa using hne
  unfold fetch
  simp only [hempty, hp, Bool.false_eq_true, if_false, hbytes, if_true, tryProvidersDialing_snd]
  split_ifs
  · exact ⟨rfl, rfl⟩
  · exact ⟨rfl, rfl⟩

/-- A fetch from holders whose ids parse succeeds exactly if what was there and what they bring
covers the blob; then no holder after the one that completes it is dialed. If it fails, all were
dialed. Either way the store has all that the holders dialed brought, and of other blobs what it
had. -/
theorem fetch_ok_iff_covers {holders : List String} {ks : List κ} (hne : holders ≠ [])
    (hparse : holders.map env.keys.fromStr = ks.map Except.ok)
    (hbytes : env.blake3 (env.bytes hash) = hash) :
    ((∃ bytes, (fetch env s dial hash holders).1 = .ok bytes) ↔
        Covers env dial hash s 0 ks ks.length)
      ∧ (∀ bytes, (fetch env s dial hash holders).1 = .ok bytes → env.blake3 bytes = hash
        ∧ ∃ d ≤ ks.length, dialed env s dial hash holders = ks.take d
          ∧ Covers env dial hash s 0 ks d ∧ ∀ j < d, ¬ Covers env dial hash s 0 ks j)
      ∧ (∀ e, (fetch env s dial hash holders).1 = .error e →
        dialed env s dial hash holders = ks)
      ∧ (∀ r, r ∈ (fetch env s dial hash holders).2.store hash ↔
        Obtained env dial hash s 0 ks (dialed env s dial hash holders).length r)
      ∧ ∀ other ≠ hash, (fetch env s dial hash holders).2.store other = s.store other := by
  have hp := parseHolders_of_map hparse
  obtain ⟨hstate, hresult⟩ := fetch_of_parsed s dial hne hp hbytes
  obtain ⟨d, hd, hdials, hbefore, hend, hstore, hother⟩ :=
    @dials_take κ env dial hash ks s none 0
  have hdialed : dialed env s dial hash holders = ks.take d := by
    rw [dialed, hp]
    exact hdials
  have hhas : (tryProvidersDialing env dial hash s none 0 ks).2.1.has env hash ↔
      Covers env dial hash s 0 ks d := by
    simp only [has_iff, Finset.subset_iff, hstore, Covers]
  rw [hstate, hresult, hdialed, List.length_take, min_eq_left hd]
  refine ⟨?_, ?_, ?_, hstore, hother⟩
  · -- holders that are not dialed are not needed
    have hcovers : Covers env dial hash s 0 ks d ↔ Covers env dial hash s 0 ks ks.length :=
      ⟨fun h => h.mono hd, fun h => hend.elim (fun hd => hd ▸ h) id⟩
    rw [← hcovers, ← hhas]
    split_ifs with h
    · exact iff_of_true ⟨_, rfl⟩ h
    · simp [h]
  · intro bytes hok
    split_ifs at hok with h
    rw [← Except.ok.inj hok]
    exact ⟨hbytes, d, hd, rfl, hhas.1 h, hbefore⟩
  · intro e herr
    split_ifs at herr with h
    rw [hend.resolve_right (fun hc => h (hhas.2 hc)), List.take_length]

/-- The first holder is gone, and the second brings the blob and then fails. -/
def churn : ℕ → Unit → Attempt
  | 0, _ => .dialTimedOut
  | _, _ => .transfer {0} (some "connection lost")

theorem fetch_ok_churn :
    (∃ bytes, (fetch hiEnv (new (fun _ => ∅) "me") churn Digest.hi [survivor, survivor]).1
        = .ok bytes)
      ∧ dialed hiEnv (new (fun _ => ∅) "me") churn Digest.hi [survivor, survivor] = [(), ()] := by
  obtain ⟨hok, hlast, -⟩ := @fetch_ok_iff_covers Unit hiEnv churn Digest.hi (new (fun _ => ∅) "me")
    [survivor, survivor] [(), ()] (by simp) (by rfl) rfl
  have hcovers : Covers hiEnv churn Digest.hi (new (fun _ => ∅) "me") 0 [(), ()] 2 := by
    intro r hr
    exact .inr ⟨1, by omega, (), rfl, Finset.mem_inter.2 ⟨hr, hr⟩⟩
  obtain ⟨bytes, hbytes⟩ := hok.2 hcovers
  obtain ⟨-, d, hd, hdialed, hd', -⟩ := hlast bytes hbytes
  refine ⟨⟨bytes, hbytes⟩, ?_⟩
  -- neither of the first two states has the only range
  have htwo : ¬ d < 2 := by
    intro hlt
    rcases hd' 0 (by simp [hiEnv]) with h | ⟨i, hi, k, -, hr⟩
    · simp [new] at h
    · obtain rfl : i = 0 := by omega
      simp [churn, Attempt.got] at hr
  have hlen : d ≤ 2 := hd
  rw [hdialed, show d = 2 by omega]
  rfl

end BlobSwarm

end XaeroFlux
