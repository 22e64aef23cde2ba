import XaeroFlux.Lib.Machine
import XaeroFlux.Topic

/-!
# One node: the two actors over their table

`StorageActor::run` and `NetworkActor::run` as a machine. Each actor is where its loop is, and
an action is what one of them does between two points where the other may run: take the next
event off a queue, execute the insert under the database's lock, send the event on. A group
topic's forwarder hands over its message in one action.

An action names the event it is about and what the database or gossip answered, so the list of
actions a run took says what it accepted, queued, broadcast and handed over (`accepted`,
`queued`, `broadcasted`, `forwarded`).
-/

namespace XaeroFlux

/-- Where `StorageActor::run` is: at `app_rx.recv()`, before the insert of an event it received, or
before it sends the event inserted to the network actor. -/
inductive StorageActor where
  | waiting
  | storing (event : Event)
  | sending (event : Event)
deriving DecidableEq

/-- Where `NetworkActor::run` is: at `tokio::select!`, before the insert of another node's event,
before it sends that event on to `event_rx`, or before the broadcast of an event of its queue. -/
inductive NetworkActor where
  | waiting
  | storing (event : Event)
  | forwarding (event : Event)
  | broadcasting (event : Event)
deriving DecidableEq

structure Node where
  events : EventTable
  appRx : List Event
  storage : StorageActor
  outboundRx : List Event
  network : NetworkActor
  /-- The group topics with a forwarder. -/
  groups : List String
deriving DecidableEq

/-- A process just started over a database. -/
def Node.start (events : EventTable) : Node where
  events := events
  appRx := []
  storage := .waiting
  outboundRx := []
  network := .waiting
  groups := []

/-- What one of the actors, a group's forwarder or the app does next, or that the process ends and
starts again over the same database. -/
inductive Act where
  | submit (event : Event)
  | recvApp
  /-- `db.execute` returns to the storage actor: `Ok` of the rows changed, or `Err`. -/
  | insertApp (event : Event) (rows : Option ℕ)
  | sendNetwork (event : Event)
  | recvGossip (content : ByteArray)
  /-- Gossip returns what is no message: a neighbor's change, a lag or an error. -/
  | otherGossip
  | insertNetwork (event : Event) (rows : Option ℕ)
  | sendInbound (event : Event)
  | recvOutbound
  | broadcast (event : Event) (ok : Bool)
  | subscribeGroup (gid : String)
  | recvGroup (gid : String) (content : ByteArray) (now : UInt64)
  | restart
deriving DecidableEq

namespace Node

variable (env : Env)

/-- What an action does, where it is enabled. -/
def step (s : Node) : Act → Option Node
  | .submit event => some { s with appRx := s.appRx ++ [event] }
  | .recvApp =>
    match s.storage, s.appRx with
    | .waiting, event :: rest => some { s with appRx := rest, storage := .storing event }
    | _, _ => none
  | .insertApp event rows =>
    if s.storage = .storing event then
      match rows with
      | none => some { s with storage := .waiting }
      | some n =>
        match s.events.execInsert event with
        | some (events, rows) =>
          if rows = n then
            some { s with events, storage := if rows > 0 then .sending event else .waiting }
          else none
        | none => none
    else none
  | .sendNetwork event =>
    if s.storage = .sending event then
      some { s with storage := .waiting, outboundRx := s.outboundRx ++ [event] }
    else none
  | .recvGossip content =>
    if s.network = .waiting then
      match env.reader.fromSlice content with
      | some event =>
        if event.source ≠ env.nodeId then some { s with network := .storing event } else some s
      | none => some s
    else none
  | .otherGossip => if s.network = .waiting then some s else none
  | .insertNetwork event rows =>
    if s.network = .storing event then
      match rows with
      | none => some { s with network := .waiting }
      | some n =>
        match s.events.execInsert event with
        | some (events, rows) =>
          if rows = n then
            some { s with events, network := if rows > 0 then .forwarding event else .waiting }
          else none
        | none => none
    else none
  | .sendInbound event =>
    if s.network = .forwarding event then some { s with network := .waiting } else none
  | .recvOutbound =>
    match s.network, s.outboundRx with
    | .waiting, event :: rest => some { s with outboundRx := rest, network := .broadcasting event }
    | _, _ => none
  | .broadcast event _ =>
    if s.network = .broadcasting event then some { s with network := .waiting } else none
  | .subscribeGroup gid => some { s with groups := gid :: s.groups }
  | .recvGroup gid content now =>
    if gid ∈ s.groups then
      match forwardGroup env gid content now with
      | some _ => some s
      -- the forwarder's log statement panics, and its task ends
      | none => some { s with groups := s.groups.erase gid }
    else none
  | .restart => some (start s.events)

abbrev run (s : Node) (as : List Act) : Option Node := Machine.run (step env) s as

end Node

/-! ## What a run did -/

namespace Act

/-- The event whose row the storage actor inserted. -/
def accepts : Act → Option Event
  | .insertApp event (some (_ + 1)) => some event
  | _ => none

/-- The event whose row the network actor inserted. -/
def syncs : Act → Option Event
  | .insertNetwork event (some (_ + 1)) => some event
  | _ => none

/-- The event whose row either actor inserted. -/
def inserts : Act → Option Event
  | .insertApp event (some (_ + 1)) => some event
  | .insertNetwork event (some (_ + 1)) => some event
  | _ => none

def queues : Act → Option Event
  | .sendNetwork event => some event
  | _ => none

def broadcasts : Act → Option Event
  | .broadcast event true => some event
  | _ => none

/-- The event the network actor handed to `event_rx`. -/
def forwards : Act → Option Event
  | .sendInbound event => some event
  | _ => none

/-- The event handed to `event_rx`, by the network actor or a group's forwarder. -/
def hands (env : Env) : Act → Option Event
  | .sendInbound event => some event
  | .recvGroup gid content now => forwardGroup env gid content now
  | _ => none

def submits : Act → Option Event
  | .submit event => some event
  | _ => none

/-- Neither the database nor gossip fails, and the process goes on. -/
def Succeeds : Act → Prop
  | .insertApp _ rows => rows ≠ none
  | .insertNetwork _ rows => rows ≠ none
  | .broadcast _ ok => ok = true
  | .restart => False
  | _ => True

instance : DecidablePred Succeeds
  | .insertApp _ rows => inferInstanceAs (Decidable (rows ≠ none))
  | .insertNetwork _ rows => inferInstanceAs (Decidable (rows ≠ none))
  | .broadcast _ ok => inferInstanceAs (Decidable (ok = true))
  | .restart => inferInstanceAs (Decidable False)
  | .submit _ | .recvApp | .sendNetwork _ | .recvGossip _ | .otherGossip | .sendInbound _
  | .recvOutbound | .subscribeGroup _ | .recvGroup _ _ _ => inferInstanceAs (Decidable True)

end Act

def accepted (as : List Act) : List Event := as.filterMap Act.accepts
def synced (as : List Act) : List Event := as.filterMap Act.syncs
def inserted (as : List Act) : List Event := as.filterMap Act.inserts
def queued (as : List Act) : List Event := as.filterMap Act.queues
def broadcasted (as : List Act) : List Event := as.filterMap Act.broadcasts
def forwarded (as : List Act) : List Event := as.filterMap Act.forwards
def handed (env : Env) (as : List Act) : List Event := as.filterMap (Act.hands env)
def submitted (as : List Act) : List Event := as.filterMap Act.submits

/-! ## What an actor holds -/

def StorageActor.hand : StorageActor → List Event
  | .sending event => [event]
  | _ => []

def NetworkActor.inHand : NetworkActor → List Event
  | .forwarding event => [event]
  | _ => []

def NetworkActor.outHand : NetworkActor → List Event
  | .broadcasting event => [event]
  | _ => []

end XaeroFlux
