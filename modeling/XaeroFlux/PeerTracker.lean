import Mathlib.Algebra.GroupWithZero.Nat
import Mathlib.Algebra.Ring.Int.Defs
import XaeroFlux.Lib.Keyed

/-!
# The peer tracker

Which peers are online in which group (`PeerTracker` of `src/lib.rs`): the rows of `group_peers`
and a cache of the online ones by group. Every operation asks the database first and changes the
cache after; `fails` says which of its statements, counted from 0, the database refuses.
-/

namespace XaeroFlux

/-- A row of `group_peers`. Timestamps are SQLite integers, as are the clock's readings. -/
structure PeerRow where
  groupId : String
  peerId : String
  firstSeen : Int64
  lastSeen : Int64
  isOnline : Bool
deriving DecidableEq

def PeerRow.key (r : PeerRow) : String × String := (r.groupId, r.peerId)

abbrev PeerTable := Keyed PeerRow.key

abbrev PeerCache := KeyedMap String (List String)

structure PeerTracker where
  rows : PeerTable
  cache : PeerCache

namespace PeerTracker

def new (rows : PeerTable) : PeerTracker where
  rows := rows
  cache := .empty

/-- `UPDATE group_peers SET .. WHERE ..`: `set` leaves the key alone. -/
def updateRows (t : PeerTracker) (cond : PeerRow → Bool) (set : PeerRow → PeerRow)
    (hset : ∀ r, (set r).key = r.key) : PeerTable :=
  t.rows.update (fun r => if cond r then set r else r) fun r => by split_ifs <;> simp [hset]

/-- `SELECT .. WHERE is_online = 1`. -/
def onlineRows (rows : PeerTable) : List PeerRow := rows.rows.filter PeerRow.isOnline

/-- `cache.entry(group_id).or_insert_with(Vec::new).push(peer_id)` for each row. -/
def cacheOf (rows : List PeerRow) : PeerCache :=
  rows.foldl (fun cache r => cache.entry r.groupId [] (· ++ [r.peerId])) .empty

def loadCache (t : PeerTracker) (fails : ℕ → Bool) : Option Unit × PeerTracker :=
  if fails 0 then (none, t) else (some (), { t with cache := cacheOf (onlineRows t.rows) })

/-- The cache part of `upsert_peer`. -/
def pushPeer (cache : PeerCache) (groupId peerId : String) : PeerCache :=
  cache.entry groupId [] fun peers => if peerId ∈ peers then peers else peers ++ [peerId]

def upsertPeer (t : PeerTracker) (fails : ℕ → Bool) (now : Int64) (groupId peerId : String) :
    Option Bool × PeerTracker :=
  let cache := pushPeer t.cache groupId peerId
  -- a failed query reads as no row
  if !fails 0 ∧ t.rows.Has (groupId, peerId) then
    if fails 1 then (none, t)
    else
      let rows := t.updateRows (fun r => r.groupId = groupId ∧ r.peerId = peerId)
        (fun r => { r with lastSeen := now, isOnline := true }) fun _ => rfl
      (some false, { rows, cache })
  else if fails 1 then (none, t)
  -- the insert fails on the primary key
  else if h : t.rows.Has (groupId, peerId) then (none, t)
  else (some true, { rows := t.rows.insert ⟨groupId, peerId, now, now, true⟩ h, cache })

def markOffline (t : PeerTracker) (fails : ℕ → Bool) (now : Int64) (peerId : String) :
    Option (List String) × PeerTracker :=
  if fails 0 ∨ fails 1 then (none, t)
  else
    let affected := (onlineRows t.rows).filter (·.peerId = peerId) |>.map PeerRow.groupId
    let rows := t.updateRows (·.peerId = peerId)
      (fun r => { r with isOnline := false, lastSeen := now }) fun _ => rfl
    let cache := t.cache.mapValues fun peers => peers.filter (· ≠ peerId)
    (some affected, { rows, cache })

def getPeers (t : PeerTracker) (groupId : String) : List String := (t.cache.get groupId).getD []

def getActiveGroups (t : PeerTracker) : List String :=
  t.cache.rows.filter (fun e => !e.2.isEmpty) |>.map Prod.fst

/-- `now - max_age.as_secs() as i64`. -/
def cutoff (now : Int64) (maxAge : UInt64) : Int64 := now - maxAge.toInt64

def pruneStale (t : PeerTracker) (fails : ℕ → Bool) (now : Int64) (maxAge : UInt64) :
    Option ℕ × PeerTracker :=
  let stale (r : PeerRow) : Bool := r.lastSeen < cutoff now maxAge ∧ r.isOnline
  if fails 0 then (none, t)
  else
    let rows := t.updateRows stale (fun r => { r with isOnline := false }) fun _ => rfl
    let (loaded, t') := loadCache { t with rows } fun i => fails (i + 1)
    (loaded.map fun _ => t.rows.rows.countP stale, t')

def stats (t : PeerTracker) : ℕ × ℕ :=
  (t.cache.rows.length, (t.cache.rows.map (·.2.length)).sum)

/-! ## Histories -/

inductive Op where
  | upsertPeer (groupId peerId : String) (now : Int64)
  | markOffline (peerId : String) (now : Int64)
  | pruneStale (maxAge : UInt64) (now : Int64)
  | restart

/-- No statement is refused. -/
def noFault : ℕ → Bool := fun _ => false

def apply (t : PeerTracker) : Op → PeerTracker
  | .upsertPeer groupId peerId now => (t.upsertPeer noFault now groupId peerId).2
  | .markOffline peerId now => (t.markOffline noFault now peerId).2
  | .pruneStale maxAge now => (t.pruneStale noFault now maxAge).2
  | .restart => ((new t.rows).loadCache noFault).2

/-- The tracker after a history that starts on an empty database. -/
def after (ops : List Op) : PeerTracker := ops.foldl apply (new .empty)

/-- The clock at the last upsert of a peer in a group. -/
def lastUpsert (ops : List Op) (groupId peerId : String) : Option Int64 :=
  (ops.filterMap fun
    | .upsertPeer g p now => if g = groupId ∧ p = peerId then some now else none
    | _ => none).getLast?

/-- Some upsert put the peer in the group, and since then it was neither marked offline nor taken
for stale by the time of its last upsert. -/
def Listed (ops : List Op) (groupId peerId : String) : Prop :=
  ∃ pre now post, ops = pre ++ .upsertPeer groupId peerId now :: post
    ∧ (∀ now', .markOffline peerId now' ∉ post)
    ∧ ∀ mid maxAge now' rest, post = mid ++ .pruneStale maxAge now' :: rest →
      ∀ time, lastUpsert (pre ++ .upsertPeer groupId peerId now :: mid) groupId peerId = some time →
        ¬ time < cutoff now' maxAge

/-! ## Histories in which statements are refused -/

/-- A start whose `load_cache` fails is no start. -/
inductive Call where
  | upsertPeer (groupId peerId : String) (now : Int64) (fails : ℕ → Bool)
  | markOffline (peerId : String) (now : Int64) (fails : ℕ → Bool)
  | pruneStale (maxAge : UInt64) (now : Int64) (fails : ℕ → Bool)
  | restart

def call (t : PeerTracker) : Call → PeerTracker
  | .upsertPeer groupId peerId now fails => (t.upsertPeer fails now groupId peerId).2
  | .markOffline peerId now fails => (t.markOffline fails now peerId).2
  | .pruneStale maxAge now fails => (t.pruneStale fails now maxAge).2
  | .restart => ((new t.rows).loadCache noFault).2

/-- The call returns no error. -/
def Completes (t : PeerTracker) : Call → Prop
  | .upsertPeer groupId peerId now fails => (t.upsertPeer fails now groupId peerId).1 ≠ none
  | .markOffline peerId now fails => (t.markOffline fails now peerId).1 ≠ none
  | .pruneStale maxAge now fails => (t.pruneStale fails now maxAge).1 ≠ none
  | .restart => True

/-- The tracker after these calls, from an empty database on. -/
def calls (cs : List Call) : PeerTracker := cs.foldl call (new .empty)

end PeerTracker

end XaeroFlux
