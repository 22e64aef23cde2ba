import XaeroFlux.Bootstrap
import XaeroFlux.Lib.JsonFields

/-!
# The bootstrap's loop and Iggy

All branches of the `select!` of `src/bin/xaeroflux_bootstrap.rs`: events received, the retry of the
connection, the heartbeat and the statistics. An event converted is put to Iggy at its turn or
never: nothing is kept for later.
-/

namespace XaeroFlux

namespace RawEvent

def toJson (r : RawEvent) : Json :=
  .obj [("id", .str r.id), ("group_id", .str r.groupId), ("workspace_id", .str r.workspaceId),
    ("source", .str r.source), ("content_kind", .str r.contentKind),
    ("external_id", .str r.externalId), ("content", .str r.content),
    ("author_id", .str r.authorId), ("author_name", .str r.authorName), ("url", .str r.url),
    ("title", .ofOption r.title), ("thread_id", .ofOption r.threadId),
    ("parent_id", .ofOption r.parentId), ("ts", .int r.ts.toNat),
    ("captured_at", .int r.capturedAt.toNat)]

/-- `serde_json::to_vec`. -/
def toVec (r : RawEvent) : ByteArray := r.toJson.toVec

def ofJson : Json → Option RawEvent :=
  Json.record ["id", "group_id", "workspace_id", "source", "content_kind", "external_id", "content",
      "author_id", "author_name", "url", "title", "thread_id", "parent_id", "ts", "captured_at"]
    fun j => do
      let id ← j.field "id" Json.asStr
      let groupId ← j.field "group_id" Json.asStr
      let workspaceId ← j.field "workspace_id" Json.asStr
      let source ← j.field "source" Json.asStr
      let contentKind ← j.field "content_kind" Json.asStr
      let externalId ← j.field "external_id" Json.asStr
      let content ← j.field "content" Json.asStr
      let authorId ← j.field "author_id" Json.asStr
      let authorName ← j.field "author_name" Json.asStr
      let url ← j.field "url" Json.asStr
      let title ← j.optField "title" Json.asStr
      let threadId ← j.optField "thread_id" Json.asStr
      let parentId ← j.optField "parent_id" Json.asStr
      let ts ← j.field "ts" Json.asUInt64
      let capturedAt ← j.field "captured_at" Json.asUInt64
      return { id, groupId, workspaceId, source, contentKind, externalId, content, authorId,
               authorName, url, title, threadId, parentId, ts, capturedAt }

@[simp] theorem ofJson_toJson (r : RawEvent) : ofJson r.toJson = some r := by
  rw [ofJson, Json.record_of_once (by simp [Json.Once, toJson])]
  simp [toJson]

end RawEvent

namespace IggyConnection

/-- What comes of the calls that `connect` makes. Creating the stream, the topic and the consumer
group may fail: a failure is taken to mean that they exist. -/
structure ConnectAnswer where
  build : Except String Unit
  connect : Except String Unit
  streamId : Except String Unit
  topicId : Except String Unit

def connect (c : IggyConnection) (a : ConnectAnswer) : Except String Unit × IggyConnection :=
  if !c.enabled then (.ok (), c)
  else
    match a.build with
    | .error e => (.error ("Iggy build error: " ++ e), c)
    | .ok () =>
      match a.connect with
      | .error e => (.error ("Iggy connect error: " ++ e), c)
      | .ok () =>
        match a.streamId with
        | .error e => (.error ("Invalid stream identifier: " ++ e), c)
        | .ok () =>
          match a.topicId with
          | .error e => (.error ("Invalid topic identifier: " ++ e), c)
          | .ok () => (.ok (), { c with client := true, lastError := none })

/-- The messages that `send_raw_event` puts to the client. -/
def messages (c : IggyConnection) (rawEvent : RawEvent) : List ByteArray :=
  if c.enabled ∧ c.client then [rawEvent.toVec] else []

/-- What the heartbeat prints of Iggy. -/
def status (c : IggyConnection) : String :=
  if !c.enabled then "disabled"
  else if c.client then "connected (" ++ toString c.messagesSent ++ " sent)"
  else "disconnected: " ++ c.lastError.getD "unknown"

end IggyConnection

namespace EventLoop

/-- The state before the loop, Iggy connected to if it is enabled and answers. -/
def start (enabled : Bool) (a : IggyConnection.ConnectAnswer) : EventLoop where
  tracker := .new
  iggy :=
    if enabled then ((IggyConnection.new enabled).connect a).2 else IggyConnection.new enabled
  eventsReceived := 0
  eventsConverted := 0
  eventsForwarded := 0

/-- What the branch that receives makes of an event. -/
def convert (fromStr : String → Option NetworkEvent) (s : EventLoop) (event : Event)
    (stamp : Stamp) : Option RawEvent :=
  (Bootstrap.netEvent fromStr event).bind fun e =>
    (convertNetworkEvent stamp e (Bootstrap.groupIdFromTopic event) s.tracker).1

/-- A tick of `iggy_retry`. -/
def retry (s : EventLoop) (a : IggyConnection.ConnectAnswer) : EventLoop :=
  if s.iggy.enabled ∧ !s.iggy.client then { s with iggy := (s.iggy.connect a).2 } else s

/-- What a tick of `heartbeat` prints. -/
def heartbeat (s : EventLoop) : String :=
  "💓 Heartbeat | recv=" ++ toString s.eventsReceived ++ " conv=" ++ toString s.eventsConverted
    ++ " fwd=" ++ toString s.eventsForwarded ++ " | Iggy: " ++ s.iggy.status

end EventLoop

/-- The loop, with what it did. -/
structure Forwarder where
  loop : EventLoop
  /-- What was converted so far, and the source of the event it was made of. -/
  converted : List (String × RawEvent)
  /-- The messages put to Iggy, and its answers. -/
  sent : List (ByteArray × Except String Unit)
  alive : Bool

namespace Forwarder

inductive Act where
  | receive (event : Event) (stamp : Stamp) (answer : Except String Unit)
  | retry (a : IggyConnection.ConnectAnswer)
  /-- `heartbeat` or `stats_interval`, which print only. -/
  | print

def start (enabled : Bool) (a : IggyConnection.ConnectAnswer) : Forwarder where
  loop := .start enabled a
  converted := []
  sent := []
  alive := true

def step (fromStr : String → Option NetworkEvent) (s : Forwarder) (act : Act) : Option Forwarder :=
  if s.alive then
    match act with
    | .receive event stamp answer =>
      let made := (s.loop.convert fromStr event stamp).toList
      let turn := s.loop.receive fromStr false event stamp answer
      some {
        loop := turn.state
        converted := s.converted ++ made.map fun r => (event.source, r)
        sent := s.sent ++ (made.flatMap s.loop.iggy.messages).map fun m => (m, answer)
        alive := turn.isOk }
    | .retry a => some { s with loop := s.loop.retry a }
    | .print => some s
  else none

abbrev run (fromStr : String → Option NetworkEvent) (s : Forwarder) (acts : List Act) :
    Option Forwarder :=
  Machine.run (step fromStr) s acts

end Forwarder

end XaeroFlux
