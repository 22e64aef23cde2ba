import Mathlib.Data.List.Dedup
import XaeroFlux.Lib.Machine
import XaeroFlux.Proofs.PeerTracker

/-!
# The tracker's statistics

The cache lists each online row once, so the peers counted are right after any history
(`stats_snd`). The groups counted are the cache's keys, and a key may be left with no peer: the
counts match the rows exactly while no group is kept so (`statsMatch_iff`). Only marking the last
peer of a group offline leaves one, and a load of the cache drops it.
-/

namespace XaeroFlux

namespace PeerTracker

/-- The number of groups with an online row, and of online rows. -/
def onlineStats (t : PeerTracker) : ℕ × ℕ :=
  (((onlineRows t.rows).map PeerRow.groupId).dedup.length, (onlineRows t.rows).length)

/-- The statistics are those of the rows, the groups counted are the active ones, and a load of the
cache changes nothing of it. -/
structure StatsMatch (t : PeerTracker) : Prop where
  rows : t.stats = t.onlineStats
  active : t.stats.1 = t.getActiveGroups.length
  reload : (t.loadCache noFault).2.stats = t.stats

instance (t : PeerTracker) : Decidable t.StatsMatch :=
  decidable_of_iff (t.stats = t.onlineStats ∧ t.stats.1 = t.getActiveGroups.length
    ∧ (t.loadCache noFault).2.stats = t.stats)
    ⟨fun h => ⟨h.1, h.2.1, h.2.2⟩, fun h => ⟨h.rows, h.active, h.reload⟩⟩

/-- No group is in the cache without a peer. -/
def Filled (t : PeerTracker) : Prop := ∀ g, t.cache.get g ≠ some []

variable {t : PeerTracker}

/-! ## The counts -/

/-- The cache's entries, a peer at a time. -/
def listedPairs (t : PeerTracker) : List (String × String) :=
  t.cache.rows.flatMap fun e => e.2.map (e.1, ·)

theorem mem_listedPairs {g p : String} : (g, p) ∈ t.listedPairs ↔ p ∈ t.getPeers g := by
  simp only [listedPairs, List.mem_flatMap, List.mem_map, Prod.mk.injEq]
  constructor
  · intro h
    obtain ⟨⟨g', peers⟩, he, p', hp, rfl, rfl⟩ := h
    rwa [getPeers, KeyedMap.get_eq_some.2 he]
  · intro h
    rcases hg : t.cache.get g with _ | peers
    · simp [getPeers, hg] at h
    · rw [getPeers, hg, Option.getD_some] at h
      exact ⟨(g, peers), KeyedMap.get_eq_some.1 hg, p, h, rfl, rfl⟩

theorem nodup_listedPairs (h : t.Agrees) : t.listedPairs.Nodup := by
  refine List.nodup_flatMap.2 ⟨fun e he => ?_, ?_⟩
  · have hpeers : t.getPeers e.1 = e.2 := by
      rw [getPeers, KeyedMap.get_eq_some.2 he, Option.getD_some]
    have hnodup := h.nodup e.1
    rw [hpeers] at hnodup
    exact hnodup.map fun _ _ he => (Prod.mk.inj he).2
  · refine (List.pairwise_map.1 t.cache.nodup).imp fun hne => ?_
    intro k hk hk'
    obtain ⟨p, -, rfl⟩ := List.mem_map.1 hk
    obtain ⟨p', -, hp'⟩ := List.mem_map.1 hk'
    exact hne (Prod.mk.inj hp').1.symm

theorem perm_listedPairs (h : t.Agrees) :
    t.listedPairs.Perm ((onlineRows t.rows).map PeerRow.key) := by
  have hkeys : ((onlineRows t.rows).map PeerRow.key).Nodup :=
    (List.filter_sublist.map PeerRow.key).nodup t.rows.nodup
  refine (List.perm_ext_iff_of_nodup (nodup_listedPairs h) hkeys).2 fun k => ?_
  obtain ⟨g, p⟩ := k
  rw [mem_listedPairs, h.listed, seen_online]
  simp only [List.mem_map, onlineRows, List.mem_filter, Keyed.mem_def, and_assoc]
  exact exists_congr fun r => and_congr_right fun _ => and_comm

/-- The peers counted are the online rows. -/
theorem stats_snd (h : t.Agrees) : t.stats.2 = (onlineRows t.rows).length := by
  have hlen := (perm_listedPairs h).length_eq
  rw [listedPairs, List.length_flatMap, List.length_map] at hlen
  simpa only [stats, List.length_map] using hlen

theorem length_getActiveGroups (h : t.Agrees) :
    t.getActiveGroups.length = t.onlineStats.1 := by
  have hperm : t.getActiveGroups.Perm ((onlineRows t.rows).map PeerRow.groupId).dedup := by
    refine (List.perm_ext_iff_of_nodup (nodup_getActiveGroups t) (List.nodup_dedup _)).2
      fun g => ?_
    rw [mem_getActiveGroups, List.mem_dedup]
    simp only [h.listed, seen_onlineRows, List.mem_map]
    constructor
    · intro hp
      obtain ⟨p, r, hr, hg, -⟩ := hp
      exact ⟨r, hr, hg⟩
    · intro hr
      obtain ⟨r, hr, hg⟩ := hr
      exact ⟨r.peerId, r, hr, hg, rfl⟩
  exact hperm.length_eq

theorem stats_fst : t.stats.1 = t.getActiveGroups.length ↔ t.Filled := by
  rw [stats, getActiveGroups, List.length_map, eq_comm, List.length_filter_eq_length_iff]
  constructor
  · intro h g hg
    have hne := h (g, []) (KeyedMap.get_eq_some.1 hg)
    simp at hne
  · intro h e he
    have hne : e.2 ≠ [] := fun hnil => h e.1 (KeyedMap.get_eq_some.2 (hnil ▸ he))
    simpa using hne

/-! ## Empty groups -/

theorem filled_loadCache : (t.loadCache noFault).2.Filled := by
  have hfold : ∀ (rows : List PeerRow) (cache : PeerCache), (∀ g, cache.get g ≠ some []) →
      ∀ g, (rows.foldl (fun cache r => cache.entry r.groupId [] (· ++ [r.peerId])) cache).get g
        ≠ some [] := by
    intro rows
    induction rows with
    | nil => exact fun _ h => h
    | cons r rows ih =>
      intro cache h
      refine ih _ fun g => ?_
      rw [KeyedMap.get_entry]
      split_ifs
      · simp
      · exact h g
  intro g
  simp only [loadCache, noFault, Bool.false_eq_true, if_false]
  exact hfold (onlineRows t.rows) .empty (by simp) g

/-- The counts match the rows exactly while no group is kept without a peer. -/
theorem statsMatch_iff (h : t.Agrees) : t.StatsMatch ↔ t.Filled := by
  refine ⟨fun hs => stats_fst.1 hs.active, fun hf => ?_⟩
  have hactive : t.stats.1 = t.getActiveGroups.length := stats_fst.2 hf
  have hrows : t.stats = t.onlineStats :=
    Prod.ext (hactive.trans (length_getActiveGroups h)) (stats_snd h)
  refine ⟨hrows, hactive, ?_⟩
  have hloaded := agrees_loadCache t
  have hfst := (stats_fst.2 filled_loadCache).trans (length_getActiveGroups hloaded)
  rw [hrows]
  -- a load leaves the rows
  exact Prod.ext hfst (stats_snd hloaded)

theorem filled_upsertPeer (h : t.Filled) (now : Int64) (g p : String) :
    (t.upsertPeer noFault now g p).2.Filled := by
  have hcache : (t.upsertPeer noFault now g p).2.cache = pushPeer t.cache g p := by
    by_cases hh : t.rows.Has (g, p) <;> simp [upsertPeer, noFault, hh]
  intro g'
  rw [hcache, pushPeer, KeyedMap.get_entry]
  split_ifs with hg hp
  · intro hnil
    rw [Option.some.inj hnil] at hp
    simp at hp
  · simp
  · exact h g'

/-- Marking a peer offline empties the groups that list no other. -/
theorem filled_markOffline (h : t.Filled) (now : Int64) (p : String) :
    (t.markOffline noFault now p).2.Filled ↔
      ∀ g, p ∈ t.getPeers g → ∃ q, q ≠ p ∧ q ∈ t.getPeers g := by
  have hcache : (t.markOffline noFault now p).2.cache
      = t.cache.mapValues fun peers => peers.filter (· ≠ p) := by
    simp [markOffline, noFault]
  refine forall_congr' fun g => ?_
  rw [hcache, KeyedMap.get_mapValues, getPeers]
  rcases hg : t.cache.get g with _ | peers
  · simp
  · have hne : peers ≠ [] := fun hnil => h g (by rw [hg, hnil])
    rw [Option.map_some, Option.getD_some, Ne, Option.some.injEq, List.filter_eq_nil_iff]
    constructor
    · intro hsome _
      by_contra hall
      refine hsome fun q hq => ?_
      by_contra hqp
      exact hall ⟨q, by simpa using hqp, hq⟩
    · intro hother hall
      obtain ⟨q, hq⟩ := List.exists_mem_of_ne_nil peers hne
      obtain rfl : q = p := by simpa using hall q hq
      obtain ⟨q', hne', hq'⟩ := hother hq
      exact hne' (by simpa using hall q' hq')

/-! ## A run -/

def step (t : PeerTracker) (op : Op) : Option PeerTracker := some (t.apply op)

theorem run_step (ops : List Op) (t : PeerTracker) :
    Machine.run step t ops = some (ops.foldl apply t) := by
  induction ops generalizing t with
  | nil => rfl
  | cons op ops ih => exact ih _

/-- In a run from an empty database the statistics match the rows all along exactly if no operation
marks a peer offline that is the only one online in a group. -/
theorem stats_iff (ops : List Op) :
    Machine.Throughout step (new .empty) ops (fun _ t => t.StatsMatch) ↔
      Machine.EachStep step (new .empty) ops fun as _ op => ∀ p now, op = .markOffline p now →
        ∀ g, Listed as g p → ∃ q, q ≠ p ∧ Listed as g q := by
  refine Machine.throughout_iff_eachStep ?_ ?_ (run_step ops _)
  · exact ⟨rfl, rfl, rfl⟩
  · intro as t op t' hr hmatch hstep
    obtain rfl : after as = t := Option.some.inj ((run_step as _).symm.trans hr)
    obtain rfl := Option.some.inj hstep
    have hagrees := agrees_after as
    have hfilled := (statsMatch_iff hagrees).1 hmatch
    rw [statsMatch_iff (hagrees.apply op)]
    cases op with
    | upsertPeer g p now => exact iff_of_true (filled_upsertPeer hfilled now g p) (by simp)
    | markOffline p now =>
      rw [apply, filled_markOffline hfilled]
      simp only [hagrees.listed, seen_online, online_iff_listed]
      constructor
      · rintro h _ _ ⟨⟩
        exact h
      · intro h
        exact h p now rfl
    | pruneStale maxAge now =>
      have hload : ((after as).pruneStale noFault now maxAge).2 = (loadCache _ noFault).2 := rfl
      refine iff_of_true ?_ (by simp)
      rw [apply, hload]
      exact filled_loadCache
    | restart => exact iff_of_true filled_loadCache (by simp)

/-- A group whose only peer goes away is still counted. -/
theorem emptied_counted : ¬ ∀ ops : List Op, (after ops).StatsMatch := by
  intro h
  have hmatch := h [.upsertPeer "rust" "pk" 0, .markOffline "pk" 1]
  revert hmatch
  decide

end PeerTracker

end XaeroFlux
