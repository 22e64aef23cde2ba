import Mathlib.Data.List.Induction
import XaeroFlux.PeerTracker

/-!
# The tracker's roster

The rows and the cache are two accounts of one roster. What an operation does to a row is a
function of the row's last time and status (`seen_upsertPeer`, `seen_markOffline`,
`seen_pruneStale`), so the status of a row is read off the history (`seen_after`), and each
operation keeps the cache at the online rows (`Agrees`). Where the database may refuse a statement
the two can part, but no operation lists anyone but the peer it is given (`Only`), and an operation
that says it failed parts them only by an update that no load of the cache follows (`torn`).
-/

namespace XaeroFlux

namespace PeerTracker

def seen (t : PeerTracker) (k : String × String) : Option (Int64 × Bool) :=
  (t.rows.find k).map fun r => (r.lastSeen, r.isOnline)

theorem seen_eq_some {t : PeerTracker} {k : String × String} {time : Int64} {online : Bool} :
    t.seen k = some (time, online) ↔
      ∃ r ∈ t.rows, r.key = k ∧ r.lastSeen = time ∧ r.isOnline = online := by
  simp only [seen, Option.map_eq_some_iff, Keyed.find_eq_some, Prod.mk.injEq, and_assoc]

theorem seen_online {t : PeerTracker} {k : String × String} :
    (∃ time, t.seen k = some (time, true)) ↔ ∃ r ∈ t.rows, r.key = k ∧ r.isOnline = true := by
  simp only [seen_eq_some]
  constructor
  · intro h
    obtain ⟨time, r, hr, hk, -, ho⟩ := h
    exact ⟨r, hr, hk, ho⟩
  · intro h
    obtain ⟨r, hr, hk, ho⟩ := h
    exact ⟨r.lastSeen, r, hr, hk, rfl, ho⟩

theorem seen_onlineRows {t : PeerTracker} {g p : String} :
    (∃ time, t.seen (g, p) = some (time, true)) ↔
      ∃ r ∈ onlineRows t.rows, r.groupId = g ∧ r.peerId = p := by
  rw [seen_online]
  refine exists_congr fun r => ?_
  rw [onlineRows, List.mem_filter, PeerRow.key, Prod.mk.injEq, Keyed.mem_def,
    and_assoc (a := r ∈ t.rows.rows)]
  exact and_congr_right fun _ => and_comm

/-! ## The rows -/

section Rows

variable (t : PeerTracker) (now : Int64) (g p : String)

theorem seen_updateRows {t' : PeerTracker} {cond : PeerRow → Bool} {set : PeerRow → PeerRow}
    {hset : ∀ r, (set r).key = r.key} (h : t'.rows = t.updateRows cond set hset)
    (k : String × String) : t'.seen k =
      (t.rows.find k).map fun r =>
        if cond r then ((set r).lastSeen, (set r).isOnline) else (r.lastSeen, r.isOnline) := by
  simp only [seen, h, updateRows, Keyed.find_update, Option.map_map]
  congr 1
  funext r
  by_cases h : cond r <;> simp [h]

theorem map_find_congr {α : Type} {f f' : PeerRow → α} {k : String × String}
    (h : ∀ r, r.key = k → f r = f' r) : (t.rows.find k).map f = (t.rows.find k).map f' := by
  rcases hr : t.rows.find k with _ | r
  · rfl
  · simp only [Option.map_some, h r (Keyed.find_eq_some.1 hr).2]

theorem seen_upsertPeer (k : String × String) :
    (t.upsertPeer noFault now g p).2.seen k = if k = (g, p) then some (now, true) else t.seen k := by
  by_cases hh : t.rows.Has (g, p)
  · have hrows : (t.upsertPeer noFault now g p).2.rows
        = t.updateRows (fun r => r.groupId = g ∧ r.peerId = p)
          (fun r => { r with lastSeen := now, isOnline := true }) fun _ => rfl := by
      simp [upsertPeer, noFault, hh]
    rw [t.seen_updateRows hrows]
    split_ifs with hk
    · subst hk
      obtain ⟨r, hr⟩ := Option.isSome_iff_exists.1 (Keyed.find_isSome.2 hh)
      obtain ⟨rfl, rfl⟩ := Prod.mk.inj (Keyed.find_eq_some.1 hr).2
      simp [hr]
    · refine t.map_find_congr fun r hr => if_neg fun h => hk ?_
      rw [← hr]
      simpa [PeerRow.key] using h
  · have hkey : ¬ t.rows.Has (PeerRow.key ⟨g, p, now, now, true⟩) := hh
    have hrows : (t.upsertPeer noFault now g p).2.rows = t.rows.insert _ hkey := by
      simp [upsertPeer, noFault, hh]
    rw [seen, hrows, Keyed.find_insert]
    by_cases hk : k = (g, p) <;> simp [hk, PeerRow.key, seen]

theorem seen_markOffline (k : String × String) :
    (t.markOffline noFault now p).2.seen k =
      (t.seen k).map fun s => if k.2 = p then (now, false) else s := by
  have hrows : (t.markOffline noFault now p).2.rows = t.updateRows (·.peerId = p)
      (fun r => { r with isOnline := false, lastSeen := now }) fun _ => rfl := by
    simp [markOffline, noFault]
  rw [t.seen_updateRows hrows, seen, Option.map_map]
  refine t.map_find_congr fun r hr => ?_
  obtain rfl := hr
  by_cases h : r.peerId = p <;> simp [PeerRow.key, h]

theorem seen_pruneStale (maxAge : UInt64) (k : String × String) :
    (t.pruneStale noFault now maxAge).2.seen k =
      (t.seen k).map fun s => if s.1 < cutoff now maxAge then (s.1, false) else s := by
  have hrows : (t.pruneStale noFault now maxAge).2.rows
      = t.updateRows (fun r => r.lastSeen < cutoff now maxAge ∧ r.isOnline)
        (fun r => { r with isOnline := false }) fun _ => rfl := by
    simp [pruneStale, loadCache, noFault]
  rw [t.seen_updateRows hrows, seen, Option.map_map]
  refine t.map_find_congr fun r _ => ?_
  by_cases h : r.lastSeen < cutoff now maxAge <;> cases hr : r.isOnline <;> simp [h, hr]

theorem seen_restart (k : String × String) : (t.apply .restart).seen k = t.seen k := by
  simp [apply, loadCache, noFault, new, seen]

end Rows

/-! ## The history -/

section History

variable {ops : List Op} {op : Op} {g p : String}

theorem lastUpsert_upsertPeer (g' p' : String) (now : Int64) :
    lastUpsert (ops ++ [.upsertPeer g' p' now]) g p =
      if g' = g ∧ p' = p then some now else lastUpsert ops g p := by
  by_cases h : g' = g ∧ p' = p <;> simp [lastUpsert, h]

theorem lastUpsert_of_not_upsertPeer (h : ∀ now, op ≠ .upsertPeer g p now) :
    lastUpsert (ops ++ [op]) g p = lastUpsert ops g p := by
  cases op with
  | upsertPeer g' p' now =>
    rw [lastUpsert_upsertPeer, if_neg]
    rintro ⟨rfl, rfl⟩
    exact h now rfl
  | _ => simp [lastUpsert]

/-- One more operation lists a peer, or leaves it listed. -/
theorem listed_concat : Listed (ops ++ [op]) g p ↔ (∃ now, op = .upsertPeer g p now) ∨
    Listed ops g p ∧ (∀ now, op ≠ .markOffline p now) ∧
      ∀ maxAge now, op = .pruneStale maxAge now →
        ∀ time, lastUpsert ops g p = some time → ¬ time < cutoff now maxAge := by
  constructor
  · rintro ⟨pre, now, post, heq, hoff, hprune⟩
    rcases List.eq_nil_or_concat' post with rfl | ⟨post, x, rfl⟩
    · obtain ⟨-, h⟩ := List.append_inj' heq rfl
      exact .inl ⟨now, (List.cons.inj h).1⟩
    · rw [← List.cons_append, ← List.append_assoc] at heq
      obtain ⟨rfl, h⟩ := List.append_inj' heq rfl
      obtain rfl := (List.cons.inj h).1
      refine .inr ⟨⟨pre, now, post, rfl, fun now' h => hoff now' (List.mem_append_left _ h), ?_⟩,
        ?_, ?_⟩
      · rintro mid maxAge now' rest rfl
        exact hprune mid maxAge now' (rest ++ [op]) (by simp)
      · rintro now' rfl
        exact hoff now' (by simp)
      · rintro maxAge now' rfl
        exact hprune post maxAge now' [] rfl
  · rintro (⟨now, rfl⟩ | ⟨⟨pre, now, post, rfl, hoff, hprune⟩, hne, hop⟩)
    · exact ⟨ops, now, [], rfl, by simp, by simp⟩
    · refine ⟨pre, now, post ++ [op], by simp, ?_, ?_⟩
      · intro now' h
        rcases List.mem_append.1 h with h | h
        · exact hoff now' h
        · exact hne now' (List.mem_singleton.1 h).symm
      · intro mid maxAge now' rest h
        rcases List.eq_nil_or_concat' rest with rfl | ⟨rest, x, rfl⟩
        · obtain ⟨rfl, hx⟩ := List.append_inj' h rfl
          exact hop maxAge now' (List.cons.inj hx).1
        · rw [← List.cons_append, ← List.append_assoc] at h
          obtain ⟨rfl, -⟩ := List.append_inj' h rfl
          exact hprune mid maxAge now' rest rfl

theorem after_concat : after (ops ++ [op]) = (after ops).apply op := by
  simp [after]

/-- A row is online, last seen at a time, exactly if its peer is listed and was last put in the
group at that time. -/
theorem seen_after : ∀ (ops : List Op) {time : Int64},
    (after ops).seen (g, p) = some (time, true) ↔
      Listed ops g p ∧ lastUpsert ops g p = some time := by
  intro ops
  induction ops using List.reverseRecOn with
  | nil =>
    intro time
    simp [after, new, seen, Listed]
  | append_singleton ops op ih =>
    intro time
    rw [after_concat, listed_concat]
    cases op with
    | upsertPeer g' p' now =>
      rw [apply, seen_upsertPeer, lastUpsert_upsertPeer]
      by_cases h : g' = g ∧ p' = p
      · obtain ⟨rfl, rfl⟩ := h
        simp
      · rw [if_neg (by rintro ⟨⟩; exact h ⟨rfl, rfl⟩), if_neg h, ih]
        simp [h]
    | markOffline p' now =>
      rw [apply, seen_markOffline, lastUpsert_of_not_upsertPeer (by simp)]
      by_cases h : p' = p
      · subst h
        simp
      · simp [h, Ne.symm h, ih]
    | pruneStale maxAge now =>
      rw [apply, seen_pruneStale, lastUpsert_of_not_upsertPeer (by simp)]
      have hmap : (((after ops).seen (g, p)).map fun s =>
            if s.1 < cutoff now maxAge then (s.1, false) else s) = some (time, true) ↔
          (after ops).seen (g, p) = some (time, true) ∧ ¬ time < cutoff now maxAge := by
        rcases (after ops).seen (g, p) with _ | ⟨time', online⟩
        · simp
        · by_cases h : time' < cutoff now maxAge
          · simp only [Option.map_some, h, if_true, Option.some.injEq, Prod.mk.injEq,
              Bool.false_eq_true, and_false, false_iff, not_and, not_not]
            rintro ⟨rfl, -⟩
            exact h
          · simp only [Option.map_some, h, if_false, Option.some.injEq, Prod.mk.injEq]
            exact ⟨fun h' => ⟨h', h'.1 ▸ h⟩, And.left⟩
      rw [hmap, ih]
      constructor
      · rintro ⟨⟨hl, ht⟩, hc⟩
        refine ⟨.inr ⟨hl, by simp, ?_⟩, ht⟩
        rintro _ _ ⟨⟩ time' ht'
        exact Option.some.inj (ht.symm.trans ht') ▸ hc
      · rintro ⟨⟨now', h⟩ | ⟨hl, -, hp⟩, ht⟩
        · simp at h
        · exact ⟨⟨hl, ht⟩, hp maxAge now rfl time ht⟩
    | restart =>
      rw [seen_restart, lastUpsert_of_not_upsertPeer (by simp), ih]
      simp

theorem lastUpsert_of_listed (h : Listed ops g p) : ∃ time, lastUpsert ops g p = some time := by
  obtain ⟨pre, now, post, rfl, -⟩ := h
  rw [← Option.isSome_iff_exists, lastUpsert, List.getLast?_isSome]
  simp

theorem online_iff_listed : (∃ r ∈ (after ops).rows, r.key = (g, p) ∧ r.isOnline = true) ↔
    Listed ops g p := by
  rw [← seen_online]
  constructor
  · intro h
    obtain ⟨time, h⟩ := h
    exact ((seen_after ops).1 h).1
  · intro h
    obtain ⟨time, ht⟩ := lastUpsert_of_listed h
    exact ⟨time, (seen_after ops).2 ⟨h, ht⟩⟩

end History

/-! ## The cache -/

section Cache

variable {rows : List PeerRow} {g p : String}

theorem getD_foldl_entry (cache : PeerCache) :
    ∀ rows : List PeerRow,
      ((rows.foldl (fun cache r => cache.entry r.groupId [] (· ++ [r.peerId])) cache).get g).getD []
        = (cache.get g).getD [] ++ (rows.filter (·.groupId = g)).map PeerRow.peerId
  | [] => by simp
  | r :: rows => by
    rw [List.foldl_cons, getD_foldl_entry _ rows, KeyedMap.get_entry]
    by_cases h : g = r.groupId
    · subst h
      simp
    · simp [h, Ne.symm h]

/-- The cache loaded from some rows lists their peers, by group. -/
theorem getD_cacheOf : ((cacheOf rows).get g).getD [] =
    (rows.filter (·.groupId = g)).map PeerRow.peerId := by
  simp [cacheOf, getD_foldl_entry]

variable (t : PeerTracker) (now : Int64)

theorem getPeers_loadCache : (t.loadCache noFault).2.getPeers g =
    ((onlineRows t.rows).filter (·.groupId = g)).map PeerRow.peerId := by
  simp [loadCache, noFault, getPeers, getD_cacheOf]

theorem getPeers_upsertPeer (g' : String) : (t.upsertPeer noFault now g p).2.getPeers g' =
    if g' = g then if p ∈ t.getPeers g then t.getPeers g else t.getPeers g ++ [p]
    else t.getPeers g' := by
  have hc : (t.upsertPeer noFault now g p).2.cache = pushPeer t.cache g p := by
    by_cases hh : t.rows.Has (g, p) <;> simp [upsertPeer, noFault, hh]
  rw [getPeers, hc, pushPeer, KeyedMap.get_entry]
  split_ifs <;> simp_all [getPeers]

theorem upsertPeer_noFault : ∃ isNew, (t.upsertPeer noFault now g p).1 = some isNew := by
  by_cases hh : t.rows.Has (g, p) <;> simp [upsertPeer, noFault, hh]

theorem getPeers_markOffline (g : String) : (t.markOffline noFault now p).2.getPeers g =
    (t.getPeers g).filter (· ≠ p) := by
  simp only [markOffline, noFault, Bool.false_eq_true, or_self, if_false, getPeers,
    KeyedMap.get_mapValues]
  rcases t.cache.get g <;> simp

/-- The cache lists the online rows, each once. -/
structure Agrees (t : PeerTracker) : Prop where
  listed : ∀ g p, p ∈ t.getPeers g ↔ ∃ time, t.seen (g, p) = some (time, true)
  nodup : ∀ g, (t.getPeers g).Nodup

theorem agrees_loadCache : (t.loadCache noFault).2.Agrees := by
  have hseen : ∀ k, (t.loadCache noFault).2.seen k = t.seen k := by simp [loadCache, noFault, seen]
  refine ⟨fun g p => ?_, fun g => ?_⟩
  · simp only [getPeers_loadCache, List.mem_map, List.mem_filter, hseen, seen_onlineRows,
      decide_eq_true_eq, and_assoc]
  · rw [getPeers_loadCache]
    refine List.Nodup.map_on ?_ ((t.rows.rows_nodup.filter _).filter _)
    intro r hr r' hr' hp
    simp only [onlineRows, List.mem_filter, decide_eq_true_eq] at hr hr'
    exact t.rows.eq_of_key hr.1.1 hr'.1.1 (Prod.ext (hr.2.trans hr'.2.symm) hp)

theorem Agrees.apply {t : PeerTracker} (h : t.Agrees) (op : Op) : (t.apply op).Agrees := by
  cases op with
  | upsertPeer g p now =>
    refine ⟨fun g' p' => ?_, fun g' => ?_⟩
    · rw [PeerTracker.apply, getPeers_upsertPeer, seen_upsertPeer]
      have hl := h.listed g' p'
      by_cases hg : g' = g
      · subst hg
        by_cases hp : p' = p
        · subst hp
          by_cases hm : p' ∈ t.getPeers g' <;> simp [hm]
        · simp only [if_true, Prod.mk.injEq, hp, and_false, if_false, ← hl]
          by_cases hm : p ∈ t.getPeers g' <;> simp [hm, hp]
      · simpa [hg] using hl
    · rw [PeerTracker.apply, getPeers_upsertPeer]
      split_ifs with hg hm
      · exact h.nodup g
      · simpa [List.nodup_append, h.nodup g] using fun a ha => by rintro rfl; exact hm ha
      · exact h.nodup g'
  | markOffline p now =>
    refine ⟨fun g p' => ?_, fun g => ?_⟩
    · rw [PeerTracker.apply, getPeers_markOffline, seen_markOffline, List.mem_filter, h.listed]
      by_cases hp : p' = p <;> simp [hp]
    · rw [PeerTracker.apply, getPeers_markOffline]
      exact (h.nodup g).filter _
  | pruneStale maxAge now =>
    rw [PeerTracker.apply,
      show (t.pruneStale noFault now maxAge).2 = (loadCache _ noFault).2 from rfl]
    exact agrees_loadCache _
  | restart => exact agrees_loadCache _

theorem mem_getActiveGroups : g ∈ t.getActiveGroups ↔ ∃ p, p ∈ t.getPeers g := by
  simp only [getActiveGroups, List.mem_map, List.mem_filter, Bool.not_eq_true',
    List.isEmpty_eq_false_iff_exists_mem]
  constructor
  · rintro ⟨⟨g', peers⟩, ⟨hm, p, hp⟩, rfl⟩
    exact ⟨p, by simpa [getPeers, KeyedMap.get_eq_some.2 hm] using hp⟩
  · rintro ⟨p, hp⟩
    rcases hg : t.cache.get g with _ | peers
    · simp [getPeers, hg] at hp
    · exact ⟨(g, peers), ⟨KeyedMap.get_eq_some.1 hg, p, by simpa [getPeers, hg] using hp⟩, rfl⟩

theorem nodup_getActiveGroups : t.getActiveGroups.Nodup :=
  (List.filter_sublist.map Prod.fst).nodup t.cache.nodup

/-- Marking a peer offline returns the groups with an online row of it. -/
theorem mem_markOffline : ∃ groups, (t.markOffline noFault now p).1 = some groups
    ∧ groups.Nodup ∧ ∀ g, g ∈ groups ↔ ∃ time, t.seen (g, p) = some (time, true) := by
  refine ⟨((onlineRows t.rows).filter (·.peerId = p)).map PeerRow.groupId,
    by simp [markOffline, noFault], ?_, ?_⟩
  · refine List.Nodup.map_on ?_ ((t.rows.rows_nodup.filter _).filter _)
    intro r hr r' hr' hg
    simp only [onlineRows, List.mem_filter, decide_eq_true_eq] at hr hr'
    exact t.rows.eq_of_key hr.1.1 hr'.1.1 (Prod.ext hg (hr.2.trans hr'.2.symm))
  · intro g
    simp only [List.mem_map, List.mem_filter, seen_onlineRows, decide_eq_true_eq, and_assoc]
    exact exists_congr fun r => and_congr_right fun _ => and_comm

end Cache

/-! ## Whatever the database refuses -/

/-- Whoever is listed, in the cache or by the rows, is `Ok` in the group. -/
structure Only (Ok : String → String → Prop) (t : PeerTracker) : Prop where
  rows : ∀ r ∈ t.rows, r.isOnline = true → Ok r.groupId r.peerId
  cache : ∀ g, ∀ p ∈ t.getPeers g, Ok g p

section Only

variable {Ok Ok' : String → String → Prop} {t : PeerTracker} {g p : String}

theorem Only.mono (h : t.Only Ok) (hok : ∀ g p, Ok g p → Ok' g p) : t.Only Ok' :=
  ⟨fun r hr ho => hok _ _ (h.rows r hr ho), fun g p hp => hok _ _ (h.cache g p hp)⟩

theorem only_new {rows : PeerTable} (h : ∀ r ∈ rows, r.isOnline = true → Ok r.groupId r.peerId) :
    (new rows).Only Ok :=
  ⟨h, by simp [new, getPeers]⟩

/-- An update lists those that its condition lets it. -/
theorem Only.updateRows {cond : PeerRow → Bool} {set : PeerRow → PeerRow}
    {hset : ∀ r, (set r).key = r.key} {cache : PeerCache} (h : t.Only Ok)
    (hok : ∀ r ∈ t.rows, cond r = true → (set r).isOnline = true → Ok r.groupId r.peerId)
    (hcache : ∀ g, ∀ p ∈ (cache.get g).getD [], Ok g p) :
    Only Ok ⟨t.updateRows cond set hset, cache⟩ := by
  refine ⟨fun r hr ho => ?_, hcache⟩
  simp only [PeerTracker.updateRows, Keyed.mem_update] at hr
  obtain ⟨r', hr', rfl⟩ := hr
  by_cases hc : cond r'
  · rw [if_pos hc] at ho ⊢
    obtain ⟨hg, hp⟩ := Prod.mk.inj (hset r')
    rw [hg, hp]
    exact hok r' hr' hc ho
  · rw [if_neg hc] at ho ⊢
    exact h.rows r' hr' ho

theorem Only.loadCache (h : t.Only Ok) (fails : ℕ → Bool) : (t.loadCache fails).2.Only Ok := by
  unfold PeerTracker.loadCache
  split_ifs
  · exact h
  · refine ⟨h.rows, fun g p hp => ?_⟩
    rw [getPeers, getD_cacheOf] at hp
    obtain ⟨r, hr, rfl⟩ := List.mem_map.1 hp
    obtain ⟨honline, hg⟩ := List.mem_filter.1 hr
    obtain ⟨hrow, ho⟩ := List.mem_filter.1 honline
    obtain rfl := of_decide_eq_true hg
    exact h.rows r hrow ho

theorem Only.upsertPeer (h : t.Only Ok) (hok : Ok g p) (fails : ℕ → Bool) (now : Int64) :
    (t.upsertPeer fails now g p).2.Only Ok := by
  have hcache : ∀ g', ∀ p' ∈ ((pushPeer t.cache g p).get g').getD [], Ok g' p' := by
    intro g' p' hp'
    rw [pushPeer, KeyedMap.get_entry] at hp'
    split_ifs at hp' with hg hm
    · rw [hg]
      exact h.cache g p' hp'
    · rw [hg]
      rcases List.mem_append.1 hp' with hp' | hp'
      · exact h.cache g p' hp'
      · rwa [List.mem_singleton.1 hp']
    · exact h.cache g' p' hp'
  unfold PeerTracker.upsertPeer
  split_ifs
  · exact h
  · refine h.updateRows (fun r _ hc _ => ?_) hcache
    obtain ⟨rfl, rfl⟩ := of_decide_eq_true hc
    exact hok
  · exact h
  · exact h
  · refine ⟨fun r hr ho => ?_, hcache⟩
    rcases List.mem_append.1 hr with hr | hr
    · exact h.rows r hr ho
    · rw [List.mem_singleton.1 hr]
      exact hok

theorem Only.markOffline (h : t.Only Ok) (fails : ℕ → Bool) (now : Int64) (p : String) :
    (t.markOffline fails now p).2.Only Ok := by
  unfold PeerTracker.markOffline
  split_ifs
  · exact h
  · refine h.updateRows (fun r _ _ ho => absurd ho Bool.false_ne_true) fun g p' hp' => ?_
    rw [KeyedMap.get_mapValues] at hp'
    rcases hg : t.cache.get g with _ | peers
    · simp [hg] at hp'
    · rw [hg] at hp'
      refine h.cache g p' ?_
      rw [getPeers, hg]
      exact (List.mem_filter.1 hp').1

/-- A peer marked offline is listed no more. -/
theorem Only.markOffline_ne (h : t.Only Ok) {fails : ℕ → Bool} (h0 : fails 0 = false)
    (h1 : fails 1 = false) (now : Int64) (p : String) :
    (t.markOffline fails now p).2.Only fun g q => Ok g q ∧ q ≠ p := by
  have hall := h.markOffline fails now p
  refine ⟨fun r hr ho => ⟨hall.rows r hr ho, ?_⟩, fun g q hq => ⟨hall.cache g q hq, ?_⟩⟩
  · rintro rfl
    simp only [PeerTracker.markOffline, h0, h1, Bool.false_eq_true, or_self, if_false] at hr
    obtain ⟨r', -, hr'⟩ := Keyed.mem_update.1 hr
    split_ifs at hr' with hc
    · rw [← hr'] at ho
      simp at ho
    · rw [hr'] at hc
      simp at hc
  · rw [getPeers, PeerTracker.markOffline] at hq
    simp only [h0, h1, Bool.false_eq_true, or_self, if_false, KeyedMap.get_mapValues] at hq
    rcases hg : t.cache.get g with _ | peers
    · simp [hg] at hq
    · rw [hg] at hq
      simpa using (List.mem_filter.1 hq).2

theorem Only.pruneStale (h : t.Only Ok) (fails : ℕ → Bool) (now : Int64) (maxAge : UInt64) :
    (t.pruneStale fails now maxAge).2.Only Ok := by
  unfold PeerTracker.pruneStale
  dsimp only
  split_ifs
  · exact h
  · exact (h.updateRows (fun r _ _ ho => absurd ho Bool.false_ne_true) h.cache).loadCache _

end Only

theorem agrees_after (ops : List Op) : (after ops).Agrees := by
  induction ops using List.reverseRecOn with
  | nil => constructor <;> simp [after, new, getPeers, seen]
  | append_singleton ops op ih =>
    rw [after_concat]
    exact ih.apply op

/-- After any history of the tracker over an empty database, the cache, the rows' status and the
history name the same peers of each group, and the groups reported are those of the cache. -/
theorem roster (ops : List Op) :
    (∀ g, ((after ops).getPeers g).Nodup)
      ∧ (∀ g p, p ∈ (after ops).getPeers g ↔
        ∃ r ∈ (after ops).rows, r.key = (g, p) ∧ r.isOnline = true)
      ∧ (∀ g p, (∃ r ∈ (after ops).rows, r.key = (g, p) ∧ r.isOnline = true) ↔ Listed ops g p)
      ∧ ((after ops).getActiveGroups.Nodup
        ∧ ∀ g, g ∈ (after ops).getActiveGroups ↔ ∃ p, p ∈ (after ops).getPeers g)
      ∧ ∀ p now, ∃ groups, ((after ops).markOffline noFault now p).1 = some groups
        ∧ groups.Nodup ∧ ∀ g, g ∈ groups ↔ p ∈ (after ops).getPeers g := by
  have ha := agrees_after ops
  refine ⟨ha.nodup, fun g p => ?_, fun g p => online_iff_listed,
    ⟨nodup_getActiveGroups _, fun g => mem_getActiveGroups _⟩, fun p now => ?_⟩
  · rw [ha.listed, seen_online]
  · obtain ⟨groups, h, hn, hm⟩ := mem_markOffline (after ops) (p := p) now
    exact ⟨groups, h, hn, fun g => (hm g).trans (ha.listed g p).symm⟩

/-! ## What an error leaves behind -/

section Error

variable {t : PeerTracker} {fails : ℕ → Bool} {now : Int64} {g p : String} {maxAge : UInt64}

/-- The cache and the online rows list the same peers of every group. -/
def SameRoster (t : PeerTracker) : Prop :=
  ∀ g p, p ∈ t.getPeers g ↔ ∃ r ∈ t.rows, r.key = (g, p) ∧ r.isOnline = true

theorem Agrees.sameRoster (h : t.Agrees) : t.SameRoster :=
  fun g p => (h.listed g p).trans seen_online

theorem upsertPeer_error (h : (t.upsertPeer fails now g p).1 = none) :
    (t.upsertPeer fails now g p).2 = t := by
  unfold upsertPeer at h ⊢
  dsimp only at h ⊢
  split_ifs at h ⊢ <;> rfl

theorem markOffline_error (h : (t.markOffline fails now p).1 = none) :
    (t.markOffline fails now p).2 = t := by
  unfold markOffline at h ⊢
  split_ifs at h ⊢
  rfl

theorem key_offline (r : PeerRow) : PeerRow.key { r with isOnline := false } = r.key := rfl

/-- The rows after the update of `prune_stale`, the cache as it was. -/
def torn (t : PeerTracker) (now : Int64) (maxAge : UInt64) : PeerTracker :=
  { t with
    rows := t.updateRows (fun r => r.lastSeen < cutoff now maxAge ∧ r.isOnline)
      (fun r => { r with isOnline := false }) key_offline }

theorem pruneStale_error (h : (t.pruneStale fails now maxAge).1 = none) :
    (t.pruneStale fails now maxAge).2 = if fails 0 then t else t.torn now maxAge := by
  unfold pruneStale at h ⊢
  by_cases h0 : fails 0 = true
  · simp only [h0, if_true]
  · by_cases h1 : fails 1 = true
    · simp only [h0, h1, loadCache, zero_add, if_true]
      rfl
    · simp [h0, h1, loadCache] at h

theorem mem_torn_online {r : PeerRow} : r ∈ (t.torn now maxAge).rows ∧ r.isOnline = true ↔
    r ∈ t.rows ∧ r.isOnline = true ∧ ¬ r.lastSeen < cutoff now maxAge := by
  simp only [torn, updateRows, Keyed.mem_update]
  constructor
  · intro h
    obtain ⟨⟨r', hr', rfl⟩, ho⟩ := h
    split_ifs at ho ⊢ with hc
    have hc : ¬ (r'.lastSeen < cutoff now maxAge ∧ r'.isOnline = true) := by simpa using hc
    exact ⟨hr', ho, fun hl => hc ⟨hl, ho⟩⟩
  · intro h
    obtain ⟨hr, ho, hl⟩ := h
    exact ⟨⟨r, hr, by simp [hl]⟩, ho⟩

/-- The update parts the rows from the cache exactly if it takes a row for stale. -/
theorem sameRoster_torn (h : t.SameRoster) : (t.torn now maxAge).SameRoster ↔
    ∀ r ∈ t.rows, r.isOnline = true → ¬ r.lastSeen < cutoff now maxAge := by
  have hpeers : ∀ g, (t.torn now maxAge).getPeers g = t.getPeers g := fun _ => rfl
  constructor
  · intro ht r hr ho
    have hlisted : r.peerId ∈ t.getPeers r.groupId := (h _ _).2 ⟨r, hr, rfl, ho⟩
    obtain ⟨r', hr', hk, ho'⟩ := (ht _ _).1 hlisted
    obtain ⟨hm, -, hl⟩ := mem_torn_online.1 ⟨hr', ho'⟩
    rwa [t.rows.eq_of_key hr hm hk.symm]
  · intro hfresh g p
    rw [hpeers, h]
    constructor
    · intro hp
      obtain ⟨r, hr, hk, ho⟩ := hp
      have ht := mem_torn_online.2 ⟨hr, ho, hfresh r hr ho⟩
      exact ⟨r, ht.1, hk, ho⟩
    · intro hp
      obtain ⟨r, hr, hk, ho⟩ := hp
      exact ⟨r, (mem_torn_online.1 ⟨hr, ho⟩).1, hk, ho⟩

/-- An operation that returns an error leaves the cache and the online rows in agreement, unless
it is a prune that took a row for stale and could not load the cache again. -/
theorem sameRoster_of_error (h : t.SameRoster) :
    (∀ now g p, (t.upsertPeer fails now g p).1 = none → (t.upsertPeer fails now g p).2.SameRoster)
      ∧ (∀ now p, (t.markOffline fails now p).1 = none → (t.markOffline fails now p).2.SameRoster)
      ∧ ∀ now maxAge, (t.pruneStale fails now maxAge).1 = none →
        ((t.pruneStale fails now maxAge).2.SameRoster ↔
          ¬ (fails 0 = false ∧ ∃ r ∈ t.rows, r.isOnline = true ∧ r.lastSeen < cutoff now maxAge)) := by
  refine ⟨fun now g p he => ?_, fun now p he => ?_, fun now maxAge he => ?_⟩
  · rwa [upsertPeer_error he]
  · rwa [markOffline_error he]
  · rw [pruneStale_error he]
    by_cases h0 : fails 0 = true
    · simp [h0, h]
    · rw [if_neg h0, sameRoster_torn h]
      simp [h0]

/-- One online peer, long unseen. -/
def idle : PeerTracker := after [.upsertPeer "rust" "pk" 0]

/-- The database takes the update of `prune_stale` and refuses the query after it. -/
def updateOnly : ℕ → Bool := fun i => i != 0

theorem idle_torn : ¬ (idle.pruneStale updateOnly 1000 60).2.SameRoster := by
  intro h
  obtain ⟨r, hr, -, ho⟩ := (h "rust" "pk").1 (by decide)
  have hrow : (idle.pruneStale updateOnly 1000 60).2.rows.rows
      = [⟨"rust", "pk", 0, 0, false⟩] := by decide
  rw [Keyed.mem_def, hrow, List.mem_singleton] at hr
  rw [hr] at ho
  exact Bool.false_ne_true ho

theorem error_not_always_sameRoster : ¬ ∀ (t : PeerTracker) (fails : ℕ → Bool), t.SameRoster →
    (∀ now g p, (t.upsertPeer fails now g p).1 = none → (t.upsertPeer fails now g p).2.SameRoster)
      ∧ (∀ now p, (t.markOffline fails now p).1 = none → (t.markOffline fails now p).2.SameRoster)
      ∧ ∀ now maxAge, (t.pruneStale fails now maxAge).1 = none →
        (t.pruneStale fails now maxAge).2.SameRoster :=
  fun h => idle_torn ((h idle updateOnly (agrees_after _).sameRoster).2.2 1000 60 (by decide))

theorem sameRoster_of_error_idle : idle.SameRoster
    ∧ (idle.pruneStale updateOnly 1000 60).1 = none
    ∧ ((idle.pruneStale updateOnly 1000 60).2.SameRoster ↔ ¬ (updateOnly 0 = false ∧
      ∃ r ∈ idle.rows, r.isOnline = true ∧ r.lastSeen < cutoff 1000 60)) :=
  ⟨(agrees_after _).sameRoster, by decide,
    (sameRoster_of_error (agrees_after _).sameRoster).2.2 1000 60 (by decide)⟩

end Error

end PeerTracker

end XaeroFlux
