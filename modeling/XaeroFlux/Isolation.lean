import Mathlib.Data.Fintype.Basic
import Mathlib.Logic.Function.Basic
import XaeroFlux.Lifetime
import XaeroFlux.Node

/-!
# Nodes of several discovery keys

Nodes with their discovery tasks over one gossip network, each with a discovery key. Gossip hands
a message to those subscribed to its topic id, and to no others. Who may publish in a node's mesh,
the node or a peer, does so on the topics the node is subscribed to; the message counts as the
node's. Each node keeps account of whose messages it took (`Peer.taken`).
-/

namespace XaeroFlux

/-- The groups a message on the discovery topic makes a node subscribe to. -/
def announcedGroups {κ : Type} (env : DiscoveryEnv κ) (content : ByteArray) : List String :=
  match Discovery.listing env content with
  | some (_, groups) => groups.filterMap Json.asStr
  | none => []

/-- What a node does with a message it takes. -/
inductive Take where
  | handed (event : Event)
  | stored (event : Event)
  | tracked (groupId peerId : String)

def Effect.tracks {κ : Type} : Effect κ → Option Take
  | .track groupId peerId => some (.tracked groupId peerId)
  | _ => none

/-- Steps of the actors that read no message of gossip. -/
def Act.isLocal : Act → Bool
  | .recvGossip _ | .subscribeGroup _ | .recvGroup _ _ _ | .restart => false
  | _ => true

/-- Turns of the discovery task that read no message. -/
def Discovery.Turn.isLocal {κ : Type} : Discovery.Turn κ → Bool
  | .received _ _ | .recvGroup _ _ _ => false
  | _ => true

/-! ## A node and its discovery task -/

structure Peer (ι κ : Type) where
  node : Node
  discovery : Discovery κ
  reading : ι
  /-- Every group the node subscribed to, also before a restart. -/
  joined : List String
  /-- What it took so far, and of whose messages. -/
  taken : List (ι × Take)

namespace Peer

variable {ι κ : Type} (key : String)

def topics (p : Peer ι κ) : List Topic :=
  .discovery key :: .events key :: p.discovery.senders.map .group

def everTopics (p : Peer ι κ) : List Topic :=
  .discovery key :: .events key :: p.joined.map .group

def take (p : Peer ι κ) (origin : ι) (takes : List Take) : Peer ι κ :=
  { p with taken := p.taken ++ takes.map (origin, ·) }

def setDiscovery (p : Peer ι κ) (discovery : Discovery κ) : Peer ι κ :=
  { p with discovery, joined := p.joined ++ discovery.senders }

def receive (env : DiscoveryEnv κ) (p : Peer ι κ) (origin : ι) (content : ByteArray) (a : Answers)
    (now : UInt64) : Topic → Option (Peer ι κ)
  | .events _ => (Node.step env.toEnv p.node (.recvGossip content)).map fun node =>
    { p with node, reading := origin }
  | .discovery _ => (Discovery.step env p.discovery (.received content a)).map fun d =>
    let effects := d.effects.drop p.discovery.effects.length
    (p.setDiscovery d).take origin (effects.filterMap Effect.tracks)
  | .group gid => (Discovery.step env p.discovery (.recvGroup gid content now)).map fun d =>
    let handed := (forwardGroup env.toEnv gid content now).toList
    (p.setDiscovery d).take origin (handed.map .handed)

/-- One of the node's actors acts: what it stores and hands over is of the message read last. -/
def act (env : DiscoveryEnv κ) (p : Peer ι κ) (a : Act) : Option (Peer ι κ) :=
  if a.isLocal then
    (Node.step env.toEnv p.node a).map fun node =>
      let takes := a.syncs.toList.map .stored ++ a.forwards.toList.map .handed
      { p with node }.take p.reading takes
  else none

def turn (env : DiscoveryEnv κ) (p : Peer ι κ) (t : Discovery.Turn κ) : Option (Peer ι κ) :=
  if t.isLocal then (Discovery.step env p.discovery t).map p.setDiscovery else none

def restart (p : Peer ι κ) : Peer ι κ :=
  let tracker := PeerTracker.new p.discovery.tracker.rows
  { p with
    node := Node.start p.node.events
    discovery := .start (tracker.loadCache PeerTracker.noFault).2 }

end Peer

/-! ## The network -/

/-- A message on a topic of the mesh of the node `origin`. -/
structure Published (ι : Type) where
  origin : ι
  topic : Topic
  content : ByteArray
deriving DecidableEq

structure World (ι κ : Type) where
  peers : ι → Peer ι κ
  published : List (Published ι)

inductive WorldAct (ι κ : Type) where
  | publish (m : Published ι)
  /-- Gossip hands a message to the node `i`, which is subscribed to its topic id as `topic`. -/
  | deliver (i : ι) (m : Published ι) (topic : Topic) (a : Answers) (now : UInt64)
  | act (i : ι) (a : Act)
  | turn (i : ι) (t : Discovery.Turn κ)
  | restart (i : ι)

namespace World

variable {ι κ : Type} [DecidableEq ι] (env : DiscoveryEnv κ) (nodeId key : ι → String)

def start (events : ι → EventTable) (rows : ι → PeerTable) : World ι κ where
  peers i :=
    { node := Node.start (events i)
      discovery := .start ((PeerTracker.new (rows i)).loadCache PeerTracker.noFault).2
      reading := i
      joined := []
      taken := [] }
  published := []

def envOf (i : ι) : DiscoveryEnv κ := { env with nodeId := nodeId i }

def set (w : World ι κ) (i : ι) (p : Peer ι κ) : World ι κ :=
  { w with peers := Function.update w.peers i p }

def step (w : World ι κ) : WorldAct ι κ → Option (World ι κ)
  | .publish m =>
    if m.topic ∈ (w.peers m.origin).topics (key m.origin) then
      some { w with published := w.published ++ [m] }
    else none
  | .deliver i m topic a now =>
    if m ∈ w.published ∧ topic ∈ (w.peers i).topics (key i)
        ∧ m.topic.id env.blake3 = topic.id env.blake3 then
      ((w.peers i).receive (envOf env nodeId i) m.origin m.content a now topic).map (w.set i)
    else none
  | .act i a => ((w.peers i).act (envOf env nodeId i) a).map (w.set i)
  | .turn i t => ((w.peers i).turn (envOf env nodeId i) t).map (w.set i)
  | .restart i => some (w.set i (w.peers i).restart)

abbrev run (w : World ι κ) (as : List (WorldAct ι κ)) : Option (World ι κ) :=
  Machine.run (step env nodeId key) w as

/-- No node took a message of a mesh with another key. -/
def Isolated (w : World ι κ) : Prop := ∀ i, ∀ x ∈ (w.peers i).taken, key x.1 = key i

/-- Blake3 does not collide on the labels of the topics ever subscribed to. -/
def NoCollision (w : World ι κ) : Prop :=
  ∀ i j, ∀ t ∈ (w.peers i).everTopics (key i), ∀ t' ∈ (w.peers j).everTopics (key j),
    env.blake3 t.label.toUTF8 = env.blake3 t'.label.toUTF8 → t.label.toUTF8 = t'.label.toUTF8

/-- A message that announces groups names none a node of another key subscribed to. -/
def Apart (w : World ι κ) : WorldAct ι κ → Prop
  | .deliver i m (.discovery _) _ _ =>
    ∀ gid ∈ announcedGroups env m.content, ∀ j, key j ≠ key i → gid ∉ (w.peers j).joined
  | _ => True

section Decide

variable {ι κ : Type} [Fintype ι] (env : DiscoveryEnv κ) (key : ι → String)

instance (w : World ι κ) : Decidable (Isolated key w) :=
  inferInstanceAs (Decidable (∀ i, ∀ x ∈ (w.peers i).taken, key x.1 = key i))

instance (w : World ι κ) : Decidable (NoCollision env key w) :=
  inferInstanceAs (Decidable (∀ i j, ∀ t ∈ (w.peers i).everTopics (key i),
    ∀ t' ∈ (w.peers j).everTopics (key j),
      env.blake3 t.label.toUTF8 = env.blake3 t'.label.toUTF8 → t.label.toUTF8 = t'.label.toUTF8))

instance (w : World ι κ) : (a : WorldAct ι κ) → Decidable (Apart env key w a)
  | .deliver i m (.discovery _) _ _ => inferInstanceAs (Decidable
      (∀ gid ∈ announcedGroups env m.content, ∀ j, key j ≠ key i → gid ∉ (w.peers j).joined))
  | .deliver _ _ (.events _) _ _ | .deliver _ _ (.group _) _ _ | .publish _ | .act _ _ | .turn _ _
  | .restart _ => inferInstanceAs (Decidable True)

end Decide

end World

end XaeroFlux
