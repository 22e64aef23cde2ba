import XaeroFlux.Lib.Machine
import XaeroFlux.Swarm

/-!
# The who-has negotiation

Nodes that tell each other which blobs they hold. A message is broadcast once and comes to any node,
its sender too, at any time, any number of times or never, so what has been sent is all that a step
needs to know of the gossip.
-/

namespace XaeroFlux

structure Negotiation (ι : Type) where
  nodes : ι → BlobSwarm
  /-- Every message broadcast so far. -/
  sent : List SwarmMessage

namespace Negotiation

inductive Act (ι : Type) where
  | query (i : ι) (hash : Digest)
  /-- Only a blob that the node holds is announced. -/
  | announce (i : ι) (hash : Digest)
  /-- The message comes, and the node's reply to it is broadcast. -/
  | deliver (i : ι) (m : SwarmMessage)
  /-- The ranges that the store has of a blob change. A blob it has is not dropped. -/
  | store (i : ι) (hash : Digest) (ranges : Finset ℕ)
deriving DecidableEq

variable {ι κ : Type} [DecidableEq ι] (env : SwarmEnv κ)

def start (stores : ι → Digest → Finset ℕ) (nodeIds : ι → String) : Negotiation ι where
  nodes i := .new (stores i) (nodeIds i)
  sent := []

def send (s : Negotiation ι) (m : SwarmMessage) : Negotiation ι := { s with sent := s.sent ++ [m] }

def setNode (s : Negotiation ι) (i : ι) (node : BlobSwarm) : Negotiation ι :=
  { s with nodes := Function.update s.nodes i node }

def step (s : Negotiation ι) : Act ι → Option (Negotiation ι)
  | .query i hash => some (s.send ((s.nodes i).query hash))
  | .announce i hash =>
    if (s.nodes i).has env hash then some (s.send ((s.nodes i).announce hash)) else none
  | .deliver i m =>
    if m ∈ s.sent then
      match (s.nodes i).onMessage env m.toVec with
      | (.ok (some reply), node) => some ((s.setNode i node).send reply)
      | (_, node) => some (s.setNode i node)
    else none
  | .store i hash ranges =>
    let node := s.nodes i
    if node.has env hash → env.ranges hash ⊆ ranges then
      some (s.setNode i { node with store := Function.update node.store hash ranges })
    else none

abbrev run (s : Negotiation ι) (as : List (Act ι)) : Option (Negotiation ι) :=
  Machine.run (step env) s as

end Negotiation

end XaeroFlux
