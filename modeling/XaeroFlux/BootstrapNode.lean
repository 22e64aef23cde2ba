import XaeroFlux.Forwarder
import XaeroFlux.Node

/-!
# The bootstrap's process

A node, the queue `event_rx` that its network actor and its group forwarders hand events over, and
the loop of `main` that takes them from there to Iggy. A panic of the loop ends the process, and
whatever ends it, the next one starts over the same database.
-/

namespace XaeroFlux

structure BootstrapNode where
  node : Node
  eventRx : List Event
  forwarder : Forwarder
  /-- What the processes before this one put to Iggy. -/
  earlier : List (ByteArray × Except String Unit)

namespace BootstrapNode

inductive Act where
  | node (act : XaeroFlux.Act)
  /-- The loop takes the next event off the queue. -/
  | receive (stamp : Stamp) (answer : Except String Unit)
  | retry (a : IggyConnection.ConnectAnswer)
  | print
  | restart (enabled : Bool) (a : IggyConnection.ConnectAnswer)

def start (events : EventTable) (enabled : Bool) (a : IggyConnection.ConnectAnswer) :
    BootstrapNode where
  node := .start events
  eventRx := []
  forwarder := .start enabled a
  earlier := []

/-- All that was put to Iggy. -/
def sent (s : BootstrapNode) : List (ByteArray × Except String Unit) :=
  s.earlier ++ s.forwarder.sent

variable (env : Env) (fromStr : String → Option NetworkEvent)

def loop (s : BootstrapNode) (eventRx : List Event) (act : Forwarder.Act) : Option BootstrapNode :=
  (s.forwarder.step fromStr act).map fun forwarder => { s with eventRx, forwarder }

def step (s : BootstrapNode) : Act → Option BootstrapNode
  | .node act =>
    if s.forwarder.alive ∧ act ≠ .restart then
      (s.node.step env act).map fun node =>
        { s with node, eventRx := s.eventRx ++ (act.hands env).toList }
    else none
  | .receive stamp answer =>
    match s.eventRx with
    | event :: rest => s.loop fromStr rest (.receive event stamp answer)
    | [] => none
  | .retry a => s.loop fromStr s.eventRx (.retry a)
  | .print => s.loop fromStr s.eventRx .print
  | .restart enabled a =>
    some {
      node := .start s.node.events
      eventRx := []
      forwarder := .start enabled a
      earlier := s.sent }

abbrev run (s : BootstrapNode) (as : List Act) : Option BootstrapNode :=
  Machine.run (step env fromStr) s as

/-- What an act is for the node. -/
def Act.toNode : Act → Option XaeroFlux.Act
  | .node act => some act
  | .restart _ _ => some .restart
  | _ => none

def nodeActs (as : List Act) : List XaeroFlux.Act := as.filterMap Act.toNode

end BootstrapNode

/-- The event that a group's forwarder makes of a message and hands over. -/
def Act.groupHands (env : Env) : Act → Option Event
  | .recvGroup gid content now => forwardGroup env gid content now
  | _ => none

def groupHanded (env : Env) (as : List Act) : List Event := as.filterMap (Act.groupHands env)

end XaeroFlux
