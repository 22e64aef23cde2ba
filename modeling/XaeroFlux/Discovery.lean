import XaeroFlux.Keys
import XaeroFlux.Lib.Exec
import XaeroFlux.Lib.Machine
import XaeroFlux.PeerTracker
import XaeroFlux.Topic

/-!
# The discovery task

The task `NetworkActor::new` spawns to listen on the discovery topic. It takes the groups a peer
announces, subscribes to their topics, tracks the peer in each and introduces a group's peers to
each other. The forwarder of a group topic is a task of its own and outlives a panic of this one.

Its log statements at `info` and `warn` cut node ids and group ids; those at `debug` do not when
`info` is the level logged.
-/

namespace XaeroFlux

/-- What the code outside the repository gives the discovery task, past what it gives a node:
`serde_json`'s reading of a value, and the keys. -/
structure DiscoveryEnv (κ : Type) extends Env where
  json : ByteArray → Option Json
  keys : PublicKeys κ

/-- What gossip, the clock and the database answer while the task handles one thing, by the
position of the group they are asked about. -/
structure Answers where
  subscribed : ℕ → Bool
  joined : ℕ → Bool
  clock : ℕ → Int64
  fails : ℕ → ℕ → Bool

/-- What the task asked of gossip and of the tracker. -/
inductive Effect (κ : Type) where
  | announce (endpointId : String)
  | introduce (message : Json)
  | subscribe (topic : Digest) (peers : List κ) (ok : Bool)
  | joinPeers (groupId : String) (peer : κ) (ok : Bool)
  | track (groupId peerId : String)

structure Discovery (κ : Type) where
  tracker : PeerTracker
  /-- The groups of `group_topic_senders`. -/
  senders : List String
  /-- The groups with a forwarder running. -/
  forwarders : List String
  effects : List (Effect κ)
  alive : Bool

def peerIntroductionJson (groupId : String) (peers : List String) : Json :=
  .obj [("msg_type", .str "peer_introduction"), ("group_id", .str groupId),
    ("peers", .arr (peers.map .str))]

namespace Discovery

variable {κ : Type} (env : DiscoveryEnv κ)

def start (tracker : PeerTracker) : Discovery κ where
  tracker := tracker
  senders := []
  forwarders := []
  effects := []
  alive := true

def emit (s : Discovery κ) (e : Effect κ) : Discovery κ := { s with effects := s.effects ++ [e] }

/-- A log statement at `info` or above that cuts these strings. -/
def log (cuts : List (Option String)) (s : Discovery κ) : Exec (Discovery κ) :=
  if logs env.info cuts then .ok s else .panic s

/-! ## Handling `groups_exchange` -/

/-- A group's topic joined, or the announcing peer added to it. -/
def joinGroup (a : Answers) (fromNode gid : String) (i : ℕ) (s : Discovery κ) :
    Exec (Discovery κ) :=
  let peerPk := (env.keys.fromStr fromNode).toOption
  if gid ∈ s.senders then
    match peerPk with
    | some pk =>
      let s := s.emit (.joinPeers gid pk (a.joined i))
      -- a failure is logged at `debug`
      if a.joined i then s.log env [short fromNode, short gid] else .ok s
    | none => .ok s
  else
    let topic := Topic.id env.blake3 (.group gid)
    let s := s.emit (.subscribe topic peerPk.toList (a.subscribed i))
    if a.subscribed i then
      let s := { s with senders := s.senders ++ [gid], forwarders := s.forwarders ++ [gid] }
      s.log env [short gid, short fromNode]
    else s.log env [short gid]

/-- The introductions to broadcast once the message's groups are done. -/
abbrev Introductions := List (String × List String)

/-- The peer tracked in the group, and the group's introduction noted. -/
def trackPeer (a : Answers) (fromNode gid : String) (i : ℕ) (p : Discovery κ × Introductions) :
    Exec (Discovery κ × Introductions) :=
  match p.1.tracker.upsertPeer (a.fails i) (a.clock i) gid fromNode with
  | (some isNew, tracker) =>
    let s := { p.1 with tracker }.emit (.track gid fromNode)
    let peers := tracker.getPeers gid
    let cuts := if isNew then [short fromNode, short gid] else []
    let note := if peers.length > 1 then [(gid, peers)] else []
    (s.log env cuts).map fun s => (s, p.2 ++ note)
  | (none, tracker) => .ok ({ p.1 with tracker }, p.2)

def handleGroup (a : Answers) (fromNode : String) (p : Discovery κ × Introductions)
    (group : Json × ℕ) : Exec (Discovery κ × Introductions) :=
  match group.1.asStr with
  | some gid =>
    ((p.1.joinGroup env a fromNode gid group.2).map fun s => (s, p.2)).bind
      (trackPeer env a fromNode gid group.2)
  | none => .ok p

def broadcastIntroduction (s : Discovery κ) (intro : String × List String) :
    Exec (Discovery κ) :=
  (s.log env [short intro.1]).bind fun s =>
    .ok (s.emit (.introduce (peerIntroductionJson intro.1 intro.2)))

def groupsExchange (a : Answers) (s : Discovery κ) (json : Json) : Exec (Discovery κ) :=
  match (json.get "node_id").bind Json.asStr with
  | none => .ok s
  | some fromNode =>
    (s.log env [short fromNode]).bind fun s =>
      match (json.get "local_groups").bind Json.asArray with
      | none => .ok s
      | some groups =>
        (s.log env [short fromNode]).bind fun s =>
          match Exec.forEach (handleGroup env a fromNode) groups.zipIdx (s, []) with
          | .ok (s, introductions) => Exec.forEach (broadcastIntroduction env) introductions s
          | .panic (s, _) => .panic s

def handleReceived (a : Answers) (s : Discovery κ) (content : ByteArray) : Exec (Discovery κ) :=
  match env.json content with
  | some json =>
    if (json.get "msg_type").bind Json.asStr = some "groups_exchange" then
      s.groupsExchange env a json
    else .ok s
  | none => .ok s

/-! ## The other branches -/

/-- The introductions of the groups with peers to introduce. -/
def introductionsOf (tracker : PeerTracker) (groups : List String) : Introductions :=
  groups.filterMap fun g =>
    let peers := tracker.getPeers g
    if peers.length > 1 then some (g, peers) else none

def announceTick (s : Discovery κ) : Discovery κ :=
  (introductionsOf s.tracker s.tracker.getActiveGroups).foldl
    -- what it logs is logged at `debug`
    (fun s intro => s.emit (.introduce (peerIntroductionJson intro.1 intro.2)))
    (s.emit (.announce env.nodeId))

def pruneTick (fails : ℕ → Bool) (now : Int64) (s : Discovery κ) : Discovery κ :=
  { s with tracker := (s.tracker.pruneStale fails now 300).2 }

def neighborUp (s : Discovery κ) (peer : κ) : Exec (Discovery κ) :=
  s.log env [Utf8.sliceTo (env.keys.toStr peer) 16]

def neighborDown (fails : ℕ → Bool) (now : Int64) (s : Discovery κ) (peer : κ) :
    Exec (Discovery κ) :=
  let peerStr := env.keys.toStr peer
  (s.log env [Utf8.sliceTo peerStr 16]).bind fun s =>
    match s.tracker.markOffline fails now peerStr with
    | (some affected, tracker) =>
      Exec.forEach (broadcastIntroduction env) (introductionsOf tracker affected) { s with tracker }
    | (none, tracker) => .ok { s with tracker }

/-! ## The task and the forwarders -/

inductive Turn (κ : Type) where
  | announceTick
  | pruneTick (fails : ℕ → Bool) (now : Int64)
  | received (content : ByteArray) (a : Answers)
  | neighborUp (peer : κ)
  | neighborDown (peer : κ) (fails : ℕ → Bool) (now : Int64)
  | other
  | recvGroup (gid : String) (content : ByteArray) (now : UInt64)

def settle (x : Exec (Discovery κ)) : Discovery κ :=
  match x with
  | .ok s => s
  | .panic s => { s with alive := false }

def step (s : Discovery κ) (turn : Turn κ) : Option (Discovery κ) :=
  match turn with
  | .recvGroup gid content now =>
    if gid ∈ s.forwarders then
      match forwardGroup env.toEnv gid content now with
      | some _ => some s
      | none => some { s with forwarders := s.forwarders.erase gid }
    else none
  | .announceTick => if s.alive then some (s.announceTick env) else none
  | .pruneTick fails now => if s.alive then some (s.pruneTick fails now) else none
  | .received content a => if s.alive then some (settle (s.handleReceived env a content)) else none
  | .neighborUp peer => if s.alive then some (settle (s.neighborUp env peer)) else none
  | .neighborDown peer fails now =>
    if s.alive then some (settle (s.neighborDown env fails now peer)) else none
  | .other => if s.alive then some s else none

abbrev run (s : Discovery κ) (turns : List (Turn κ)) : Option (Discovery κ) :=
  Machine.run (step env) s turns

end Discovery

end XaeroFlux
