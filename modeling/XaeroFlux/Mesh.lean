import Mathlib.Logic.Function.Basic
import XaeroFlux.Node

/-!
# Nodes on one events topic

Any number of nodes and the messages gossip has for each of them. A broadcast that succeeds puts
its message before every other node; gossip then delivers a node's messages in any order, as late
as it likes, and may deliver once more what was ever broadcast.
-/

namespace XaeroFlux

variable {ι : Type*} [DecidableEq ι]

structure Mesh (ι : Type*) where
  nodes : ι → Node
  inFlight : ι → List ByteArray
  sent : List ByteArray

/-- Every node just started, over an empty database. -/
def Mesh.start : Mesh ι where
  nodes _ := Node.start .empty
  inFlight _ := []
  sent := []

inductive MeshAct (ι : Type*) where
  | node (i : ι) (act : Act)
  /-- Gossip is to deliver a message to a node once more. -/
  | duplicate (i : ι) (content : ByteArray)

def Mesh.deliver (m : Mesh ι) (i : ι) (content : ByteArray) : Mesh ι :=
  let rest := (m.inFlight i).eraseP fun c => decide (c = content)
  { m with inFlight := Function.update m.inFlight i rest }

/-- A node's message is taken by gossip. -/
def Mesh.spread (m : Mesh ι) (i : ι) (content : ByteArray) : Mesh ι where
  nodes := m.nodes
  inFlight j := if j = i then m.inFlight j else m.inFlight j ++ [content]
  sent := m.sent ++ [content]

def Mesh.again (m : Mesh ι) (i : ι) (content : ByteArray) : Mesh ι :=
  { m with inFlight := Function.update m.inFlight i (m.inFlight i ++ [content]) }

def Mesh.gossip (m : Mesh ι) (i : ι) : Act → Option (Mesh ι)
  | .recvGossip content =>
    if ∃ c ∈ m.inFlight i, c = content then some (m.deliver i content) else none
  | .broadcast event true => some (m.spread i event.toVec)
  | _ => some m

def Mesh.step (env : ι → Env) (m : Mesh ι) : MeshAct ι → Option (Mesh ι)
  | .node i act =>
    match Node.step (env i) (m.nodes i) act with
    | some s =>
      (m.gossip i act).map fun m => { m with nodes := Function.update m.nodes i s }
    | none => none
  | .duplicate i content =>
    if ∃ c ∈ m.sent, c = content then some (m.again i content) else none

abbrev Mesh.run (env : ι → Env) (m : Mesh ι) (as : List (MeshAct ι)) : Option (Mesh ι) :=
  Machine.run (Mesh.step env) m as

/-- Nothing is left for any node to do: no event in its queues or its actors' hands, no message on
the way to it. -/
def Mesh.Quiescent (m : Mesh ι) : Prop :=
  ∀ i, (m.nodes i).appRx = [] ∧ (m.nodes i).outboundRx = [] ∧ (m.nodes i).storage = .waiting
    ∧ (m.nodes i).network = .waiting ∧ m.inFlight i = []

instance {n : ℕ} (m : Mesh (Fin n)) : Decidable m.Quiescent :=
  inferInstanceAs (Decidable (∀ i, (m.nodes i).appRx = [] ∧ (m.nodes i).outboundRx = []
    ∧ (m.nodes i).storage = .waiting ∧ (m.nodes i).network = .waiting ∧ m.inFlight i = []))

def MeshAct.at (i : ι) : MeshAct ι → Option Act
  | .node j act => if j = i then some act else none
  | .duplicate _ _ => none

def actsOf (i : ι) (as : List (MeshAct ι)) : List Act := as.filterMap (MeshAct.at i)

/-- The contents a step reads from the events topic. -/
def Act.receives : Act → Option ByteArray
  | .recvGossip content => some content
  | _ => none

def received (as : List Act) : List ByteArray := as.filterMap Act.receives

end XaeroFlux
