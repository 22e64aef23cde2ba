import XaeroFlux.Proofs.PeerTracker

/-!
# The roster while the database refuses statements

A call that returns no error does what it does without faults, and one that returns an error does
nothing, but for a prune whose update went through and whose reload did not (`call_cases`). Such a
prune leaves over in the cache the peers it took for stale, until a call clears them; nothing else
ever parts the cache from the rows (`listed_iff`).
-/

namespace XaeroFlux

namespace PeerTracker

variable {t : PeerTracker} {c : Call} {cs : List Call} {fails : ℕ → Bool} {now : Int64}
  {maxAge : UInt64} {g p : String}

/-! ## One call -/

/-- The operation without the faults. -/
def Call.op : Call → Op
  | .upsertPeer groupId peerId now _ => .upsertPeer groupId peerId now
  | .markOffline peerId now _ => .markOffline peerId now
  | .pruneStale maxAge now _ => .pruneStale maxAge now
  | .restart => .restart

theorem upsertPeer_of_ok (h : (t.upsertPeer fails now g p).1 ≠ none) :
    t.upsertPeer fails now g p = t.upsertPeer noFault now g p := by
  unfold upsertPeer at h ⊢
  by_cases hh : t.rows.Has (g, p)
  · rcases h0 : fails 0 <;> rcases h1 : fails 1 <;> simp [h0, h1, hh, noFault] at h ⊢
  · rcases h1 : fails 1 <;> simp [h1, hh, noFault] at h ⊢

theorem markOffline_of_ok (h : (t.markOffline fails now p).1 ≠ none) :
    t.markOffline fails now p = t.markOffline noFault now p := by
  unfold markOffline at h ⊢
  split_ifs at h with hf
  · exact absurd rfl h
  · simp [hf, noFault]

theorem pruneStale_of_ok (h : (t.pruneStale fails now maxAge).1 ≠ none) :
    t.pruneStale fails now maxAge = t.pruneStale noFault now maxAge := by
  unfold pruneStale at h ⊢
  rcases h0 : fails 0 <;> rcases h1 : fails 1 <;> simp [h0, h1, loadCache, noFault] at h ⊢

/-- The prune took the peer's row for stale and could not load the cache again. -/
def Call.Tears (t : PeerTracker) (g p : String) : Call → Prop
  | .pruneStale maxAge now fails => fails 0 = false ∧ fails 1 = true
    ∧ ∃ time, t.seen (g, p) = some (time, true) ∧ time < cutoff now maxAge
  | _ => False

/-- The call completes, and makes the cache say of the peer what its row says. -/
def Call.Clears (t : PeerTracker) (g p : String) (c : Call) : Prop :=
  t.Completes c ∧ match c with
    | .upsertPeer groupId peerId _ _ => groupId = g ∧ peerId = p
    | .markOffline peerId _ _ => peerId = p
    | .pruneStale .. => True
    | .restart => True

theorem not_tears_of_completes (hc : t.Completes c) : ¬ c.Tears t g p := by
  cases c with
  | pruneStale maxAge now fails =>
    rintro ⟨h0, h1, -⟩
    refine hc ?_
    simp [pruneStale, loadCache, h0, h1]
  | upsertPeer | markOffline | restart => exact fun h => h

theorem call_cases (t : PeerTracker) (c : Call) :
    (t.Completes c ∧ t.call c = t.apply c.op)
      ∨ (∃ maxAge now fails, c = .pruneStale maxAge now fails ∧ fails 0 = false ∧ fails 1 = true
        ∧ ¬ t.Completes c ∧ t.call c = t.torn now maxAge)
      ∨ ¬ t.Completes c ∧ (∀ g p, ¬ c.Tears t g p) ∧ t.call c = t := by
  by_cases hc : t.Completes c
  · left
    refine ⟨hc, ?_⟩
    cases c with
    | upsertPeer g p now fails => exact congrArg Prod.snd (upsertPeer_of_ok hc)
    | markOffline p now fails => exact congrArg Prod.snd (markOffline_of_ok hc)
    | pruneStale maxAge now fails => exact congrArg Prod.snd (pruneStale_of_ok hc)
    | restart => rfl
  right
  cases c with
  | upsertPeer g p now fails =>
    exact .inr ⟨hc, fun _ _ h => h, upsertPeer_error (not_not.1 hc)⟩
  | markOffline p now fails =>
    exact .inr ⟨hc, fun _ _ h => h, markOffline_error (not_not.1 hc)⟩
  | pruneStale maxAge now fails =>
    have herr := pruneStale_error (not_not.1 hc)
    rcases h0 : fails 0 with _ | _ <;> rw [h0] at herr
    · have h1 : fails 1 = true := by
        by_contra h1
        refine hc ?_
        simp [Completes, pruneStale, loadCache, h0, h1]
      exact .inl ⟨maxAge, now, fails, rfl, h0, h1, hc, herr⟩
    · refine .inr ⟨hc, ?_, herr⟩
      rintro g p ⟨hf, -⟩
      rw [h0] at hf
      cases hf
  | restart => exact absurd trivial hc

/-- The cache lists the online peers and those left over, who are not online, each once. -/
structure Parted (Left : String → String → Prop) (t : PeerTracker) : Prop where
  listed : ∀ g p, p ∈ t.getPeers g ↔ (∃ time, t.seen (g, p) = some (time, true)) ∨ Left g p
  offline : ∀ g p, Left g p → ∀ time, t.seen (g, p) ≠ some (time, true)
  nodup : ∀ g, (t.getPeers g).Nodup

variable {Left Left' : String → String → Prop}

theorem Parted.congr (h : t.Parted Left) (hleft : ∀ g p, Left g p ↔ Left' g p) :
    t.Parted Left' where
  listed g p := (h.listed g p).trans (or_congr_right (hleft g p))
  offline g p hl := h.offline g p ((hleft g p).2 hl)
  nodup := h.nodup

theorem Agrees.parted (h : t.Agrees) : t.Parted fun _ _ => False where
  listed g p := (h.listed g p).trans (or_false _).symm.to_iff
  offline _ _ hl := hl.elim
  nodup := h.nodup

theorem mem_getPeers_upsertPeer {g' p' : String} :
    p' ∈ (t.upsertPeer noFault now g p).2.getPeers g' ↔
      (g', p') = (g, p) ∨ p' ∈ t.getPeers g' := by
  rw [getPeers_upsertPeer, Prod.mk.injEq]
  split_ifs with hg hm
  · subst hg
    constructor
    · exact .inr
    · rintro (⟨-, rfl⟩ | h)
      · exact hm
      · exact h
  · simp [hg, or_comm]
  · simp [hg]

theorem nodup_upsertPeer (h : ∀ g, (t.getPeers g).Nodup) (g' : String) :
    ((t.upsertPeer noFault now g p).2.getPeers g').Nodup := by
  rw [getPeers_upsertPeer]
  split_ifs with hg hm
  · exact h g
  · exact List.nodup_append_comm.1 (List.nodup_cons.2 ⟨hm, h g⟩)
  · exact h g'

theorem Parted.upsertPeer (h : t.Parted Left) (now : Int64) (g p : String) :
    (t.upsertPeer noFault now g p).2.Parted fun g' p' => Left g' p' ∧ (g', p') ≠ (g, p) where
  listed g' p' := by
    rw [mem_getPeers_upsertPeer, seen_upsertPeer, h.listed]
    by_cases hk : (g', p') = (g, p)
    · simp [hk]
    · simp [hk]
  offline g' p' hl := by
    rw [seen_upsertPeer, if_neg hl.2]
    exact h.offline g' p' hl.1
  nodup := nodup_upsertPeer h.nodup

theorem Parted.markOffline (h : t.Parted Left) (now : Int64) (p : String) :
    (t.markOffline noFault now p).2.Parted fun g' p' => Left g' p' ∧ p' ≠ p where
  listed g' p' := by
    rw [getPeers_markOffline, List.mem_filter, h.listed, seen_markOffline]
    by_cases hp : p' = p
    · simp [hp]
    · simp [hp]
  offline g' p' hl := by
    rw [seen_markOffline]
    have hseen := h.offline g' p' hl.1
    simpa [hl.2] using hseen
  nodup g' := by
    rw [getPeers_markOffline]
    exact (h.nodup g').filter _

theorem seen_torn (k : String × String) : (t.torn now maxAge).seen k =
    (t.seen k).map fun s => if s.1 < cutoff now maxAge then (s.1, false) else s := by
  rw [← seen_pruneStale]
  rfl

theorem Parted.torn (h : t.Parted Left) (now : Int64) (maxAge : UInt64) :
    (t.torn now maxAge).Parted fun g p =>
      (∃ time, t.seen (g, p) = some (time, true) ∧ time < cutoff now maxAge) ∨ Left g p where
  listed g p := by
    have hpeers : (t.torn now maxAge).getPeers g = t.getPeers g := rfl
    rw [hpeers, h.listed, seen_torn, ← or_assoc]
    refine or_congr_left ?_
    rcases t.seen (g, p) with _ | ⟨time, online⟩
    · simp
    · by_cases hstale : time < cutoff now maxAge
      · simp [hstale]
      · simp [hstale]
  offline g p hl := by
    intro time hseen
    rw [seen_torn, Option.map_eq_some_iff] at hseen
    obtain ⟨⟨time', online⟩, ht, heq⟩ := hseen
    split_ifs at heq with hstale
    · cases heq
    · obtain ⟨rfl, rfl⟩ := Prod.mk.inj heq
      rcases hl with ⟨time', ht', hstale'⟩ | hl
      · rw [ht] at ht'
        cases ht'
        exact hstale hstale'
      · exact h.offline g p hl _ ht
  nodup := h.nodup

/-- A call leaves over those that it tears off, and those left over that it does not clear. -/
theorem Parted.call (h : t.Parted Left) (c : Call) : (t.call c).Parted fun g p =>
    c.Tears t g p ∨ Left g p ∧ ¬ c.Clears t g p := by
  rcases call_cases t c with ⟨hc, heq⟩ | ⟨maxAge, now, fails, rfl, h0, h1, hc, heq⟩
    | ⟨hc, htears, heq⟩ <;> rw [heq]
  · cases c with
    | upsertPeer g p now fails =>
      refine (h.upsertPeer now g p).congr fun g' p' => ?_
      simp [Call.Tears, Call.Clears, hc, eq_comm]
    | markOffline p now fails =>
      refine (h.markOffline now p).congr fun g' p' => ?_
      simp [Call.Tears, Call.Clears, hc, eq_comm]
    | pruneStale maxAge now fails =>
      have hloaded : (t.apply (.pruneStale maxAge now)).Agrees := agrees_loadCache _
      refine hloaded.parted.congr fun g' p' => ?_
      simp [not_tears_of_completes hc, Call.Clears, hc]
    | restart =>
      have hloaded : (t.apply .restart).Agrees := agrees_loadCache _
      refine hloaded.parted.congr fun g' p' => ?_
      simp [Call.Tears, Call.Clears, hc]
  · refine (h.torn now maxAge).congr fun g p => ?_
    simp [Call.Tears, Call.Clears, hc, h0, h1]
  · refine h.congr fun g p => ?_
    simp [Call.Clears, hc, htears g p]

/-! ## A history -/

/-- Some prune left the peer over, and no call cleared it since. -/
def LeftOver (cs : List Call) (g p : String) : Prop :=
  ∃ pre c post, cs = pre ++ c :: post ∧ c.Tears (calls pre) g p
    ∧ ∀ mid c' rest, post = mid ++ c' :: rest → ¬ c'.Clears (calls (pre ++ c :: mid)) g p

theorem leftOver_concat : LeftOver (cs ++ [c]) g p ↔
    c.Tears (calls cs) g p ∨ LeftOver cs g p ∧ ¬ c.Clears (calls cs) g p := by
  constructor
  · rintro ⟨pre, c', post, heq, htears, hclears⟩
    rcases List.eq_nil_or_concat' post with rfl | ⟨post, x, rfl⟩
    · obtain ⟨rfl, h⟩ := List.append_inj' heq rfl
      obtain rfl := (List.cons.inj h).1
      exact .inl htears
    · rw [← List.cons_append, ← List.append_assoc] at heq
      obtain ⟨rfl, h⟩ := List.append_inj' heq rfl
      obtain rfl := (List.cons.inj h).1
      refine .inr ⟨⟨pre, c', post, rfl, htears, ?_⟩, hclears post c [] rfl⟩
      intro mid c'' rest hpost
      exact hclears mid c'' (rest ++ [c]) (by simp [hpost])
  · rintro (htears | ⟨⟨pre, c', post, rfl, htears, hclears⟩, hlast⟩)
    · exact ⟨cs, c, [], rfl, htears, by simp⟩
    · refine ⟨pre, c', post ++ [c], by simp, htears, ?_⟩
      intro mid c'' rest hpost
      rcases List.eq_nil_or_concat' rest with rfl | ⟨rest, x, rfl⟩
      · obtain ⟨rfl, h⟩ := List.append_inj' hpost rfl
        obtain rfl := (List.cons.inj h).1
        exact hlast
      · rw [← List.cons_append, ← List.append_assoc] at hpost
        exact hclears mid c'' rest (List.append_inj' hpost rfl).1

theorem parted_calls (cs : List Call) : (calls cs).Parted (LeftOver cs) := by
  induction cs using List.reverseRecOn with
  | nil =>
    have hempty : (calls []).Agrees := agrees_after []
    refine hempty.parted.congr fun g p => ?_
    simp [LeftOver]
  | append_singleton cs c ih =>
    have hcall : calls (cs ++ [c]) = (calls cs).call c := by simp [calls]
    rw [hcall]
    exact (ih.call c).congr fun g p => leftOver_concat.symm

/-- Whatever statements the database refuses, a peer is listed in a group, once, exactly if its row
is online or it is left over, and it is not both. So the groups reported are those with such a
peer. -/
theorem listed_iff (cs : List Call) :
    (∀ g p, p ∈ (calls cs).getPeers g ↔
        (∃ r ∈ (calls cs).rows, r.key = (g, p) ∧ r.isOnline = true) ∨ LeftOver cs g p)
      ∧ (∀ g p, LeftOver cs g p →
        ¬ ∃ r ∈ (calls cs).rows, r.key = (g, p) ∧ r.isOnline = true)
      ∧ (∀ g, ((calls cs).getPeers g).Nodup)
      ∧ ∀ g, g ∈ (calls cs).getActiveGroups ↔
        ∃ p, (∃ r ∈ (calls cs).rows, r.key = (g, p) ∧ r.isOnline = true) ∨ LeftOver cs g p := by
  have hparted := parted_calls cs
  have hlisted : ∀ g p, p ∈ (calls cs).getPeers g ↔
      (∃ r ∈ (calls cs).rows, r.key = (g, p) ∧ r.isOnline = true) ∨ LeftOver cs g p := by
    intro g p
    rw [hparted.listed, seen_online]
  refine ⟨hlisted, ?_, hparted.nodup, ?_⟩
  · intro g p hl
    rw [← seen_online]
    rintro ⟨time, hseen⟩
    exact hparted.offline g p hl time hseen
  · intro g
    rw [mem_getActiveGroups]
    exact exists_congr fun p => hlisted g p

/-- Left over until the next prune that goes through. -/
example : "pk" ∈ (calls [.upsertPeer "rust" "pk" 0 noFault,
      .pruneStale 60 1000 updateOnly]).getPeers "rust"
    ∧ (calls [.upsertPeer "rust" "pk" 0 noFault, .pruneStale 60 1000 updateOnly,
      .pruneStale 60 1001 noFault]).getPeers "rust" = [] := by decide

end PeerTracker

end XaeroFlux
