import XaeroFlux.Discovery

/-!
# The discovery task over restarts

A restart starts the task anew over the database's rows: the cache is loaded from them, and the map
of group topics is empty. A turn of the task is cut in two: what it does up to the introductions it
broadcasts (`gather`), and the broadcasts.
-/

namespace XaeroFlux

namespace Discovery

variable {κ : Type} (env : DiscoveryEnv κ)

/-- The task as it is spawned over a database. -/
def boot (rows : PeerTable) : Discovery κ :=
  start ((PeerTracker.new rows).loadCache PeerTracker.noFault).2

inductive LifeAct (κ : Type) where
  | turn (t : Turn κ)
  | restart

def lifeStep (s : Discovery κ) : LifeAct κ → Option (Discovery κ)
  | .turn t => s.step env t
  | .restart => some (boot s.tracker.rows)

abbrev lifeRun (s : Discovery κ) (as : List (LifeAct κ)) : Option (Discovery κ) :=
  Machine.run (lifeStep env) s as

/-! ## Up to the broadcasts -/

def introduction (i : String × List String) : Effect κ :=
  .introduce (peerIntroductionJson i.1 i.2)

/-- The introductions broadcast so far. -/
def introduced (effects : List (Effect κ)) : List Json :=
  effects.filterMap fun
    | .introduce message => some message
    | _ => none

/-- The introduction is of the roster: two peers or more, no one twice, those online. -/
structure OfRoster (t : PeerTracker) (i : String × List String) : Prop where
  two : 2 ≤ i.2.length
  nodup : i.2.Nodup
  eq : i.2 = t.getPeers i.1
  online : ∀ p, p ∈ i.2 ↔ ∃ r ∈ t.rows, r.key = (i.1, p) ∧ r.isOnline = true

/-- `groups_exchange` up to its broadcasts: the task then, and the introductions to broadcast. -/
def gatherExchange (a : Answers) (s : Discovery κ) (json : Json) :
    Exec (Discovery κ × Introductions) :=
  match (json.get "node_id").bind Json.asStr with
  | none => .ok (s, [])
  | some fromNode =>
    ((s.log env [short fromNode]).map fun s => (s, [])).bind fun p =>
      match (json.get "local_groups").bind Json.asArray with
      | none => .ok p
      | some groups =>
        ((p.1.log env [short fromNode]).map fun s => (s, [])).bind
          (Exec.forEach (handleGroup env a fromNode) groups.zipIdx)

/-- A turn up to its broadcasts. -/
def gather (s : Discovery κ) : Turn κ → Exec (Discovery κ × Introductions)
  | .announceTick =>
    .ok (s.emit (.announce env.nodeId), introductionsOf s.tracker s.tracker.getActiveGroups)
  | .pruneTick fails now => .ok (s.pruneTick fails now, [])
  | .received content a =>
    match env.json content with
    | some json =>
      if (json.get "msg_type").bind Json.asStr = some "groups_exchange" then
        s.gatherExchange env a json
      else .ok (s, [])
    | none => .ok (s, [])
  | .neighborUp peer => (s.neighborUp env peer).map fun s => (s, [])
  | .neighborDown peer fails now =>
    let peerStr := env.keys.toStr peer
    ((s.log env [Utf8.sliceTo peerStr 16]).map fun s => (s, [])).bind fun p =>
      match p.1.tracker.markOffline fails now peerStr with
      | (some affected, tracker) =>
        .ok ({ p.1 with tracker }, introductionsOf tracker affected)
      | (none, tracker) => .ok ({ p.1 with tracker }, [])
  | .other | .recvGroup _ _ _ => .ok (s, [])

/-! ## What a message announces -/

/-- The node that a `groups_exchange` names, and its array of groups. -/
def listing (content : ByteArray) : Option (String × List Json) :=
  match env.json content with
  | some json =>
    if (json.get "msg_type").bind Json.asStr = some "groups_exchange" then
      ((json.get "node_id").bind Json.asStr).bind fun fromNode =>
        ((json.get "local_groups").bind Json.asArray).map fun groups => (fromNode, groups)
    else none
  | none => none

/-- The message announces the peer in the group. -/
def Announces (content : ByteArray) (fromNode gid : String) : Prop :=
  ∃ groups, listing env content = some (fromNode, groups) ∧ Json.str gid ∈ groups

def AnnouncedBy (act : LifeAct κ) (fromNode gid : String) : Prop :=
  ∃ content a, act = .turn (.received content a) ∧ Announces env content fromNode gid

/-! ## Departures -/

/-- The string parses to the key. -/
def Spells (k : κ) (peerId : String) : Prop := env.keys.fromStr peerId = .ok k

/-- A `NeighborDown` of the key was handled, its log statement passed, and nothing that parses to
the key was announced since. -/
def Departed (acts : List (LifeAct κ)) (k : κ) : Prop :=
  ∃ pre fails now post, acts = pre ++ .turn (.neighborDown k fails now) :: post
    ∧ logs env.info [Utf8.sliceTo (env.keys.toStr k) 16] = true
    ∧ ∀ act ∈ post, ∀ p g, AnnouncedBy env act p g → ¬ Spells env k p

structure RostersClear (acts : List (LifeAct κ)) (s : Discovery κ) : Prop where
  departed : ∀ k, Departed env acts k → ∀ g, ∀ p ∈ s.tracker.getPeers g, ¬ Spells env k p
  single : ∀ g, ∀ p ∈ s.tracker.getPeers g, ∀ q ∈ s.tracker.getPeers g, ∀ k,
    Spells env k p → Spells env k q → p = q

/-- What parses to a key is spelled as `to_string` spells it. -/
def SpelledOut (peerId : String) : Prop := ∀ k, Spells env k peerId → peerId = env.keys.toStr k

/-- A key announced is spelled out, and the database takes the statements of `mark_offline`. -/
structure KeysSpelledOut (act : LifeAct κ) : Prop where
  announced : ∀ p g, AnnouncedBy env act p g → SpelledOut env p
  taken : ∀ k fails now, act = .turn (.neighborDown k fails now) →
    fails 0 = false ∧ fails 1 = false

/-! ## Relaying -/

/-- Each group advertised is subscribed to, with a forwarder. -/
def Relays (s : Discovery κ) : Prop :=
  ∀ g ∈ s.tracker.getActiveGroups, g ∈ s.senders ∧ g ∈ s.forwarders

/-- No `subscribe` called for a group that a message lists fails, and no row is online at a
restart. -/
structure KeepsRelaying (s : Discovery κ) (act : LifeAct κ) : Prop where
  subscribed : ∀ content a fromNode pre gid post, act = .turn (.received content a) →
    listing env content = some (fromNode, pre ++ .str gid :: post) →
      -- not subscribed to before the message, nor for an earlier group of it
      gid ∉ s.senders → Json.str gid ∉ pre → a.subscribed pre.length = true
  restarted : act = .restart → ∀ r ∈ s.tracker.rows, r.isOnline = false

/-! ## The database does as it is asked -/

def Turn.NoFault : Turn κ → Prop
  | .pruneTick fails _ => fails = PeerTracker.noFault
  | .received _ a => a.fails = fun _ => PeerTracker.noFault
  | .neighborDown _ fails _ => fails = PeerTracker.noFault
  | .announceTick | .neighborUp _ | .other | .recvGroup _ _ _ => True

def LifeAct.NoFault : LifeAct κ → Prop
  | .turn t => t.NoFault
  | .restart => True

end Discovery

end XaeroFlux
