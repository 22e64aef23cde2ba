import Mathlib.Data.List.Sort
import XaeroFlux.Lib.Exec
import XaeroFlux.Lib.Machine
import XaeroFlux.Event
import XaeroFlux.Topic

/-!
# The bootstrap's event loop

`src/bin/xaeroflux_bootstrap.rs` takes the events its node hands over, reads a `NetworkEvent` from
the payload and makes a `RawEvent` of it for Iggy. The group it attributes the event to is the
topic's, or what the one `ScopeTracker` of the process has for the event's workspace or board.
-/

namespace XaeroFlux

/-! ## `NetworkEvent` and `RawEvent` -/

structure Group where
  id : String
  name : String
  icon : String
  color : String
  createdAt : Int64

structure Workspace where
  id : String
  groupId : String
  name : String
  createdAt : Int64

/-- The kinds of `NetworkEvent`, with the fields that the conversion reads. -/
inductive NetworkEvent where
  | groupCreated (g : Group)
  | groupRenamed (id name : String)
  | workspaceCreated (ws : Workspace)
  | boardCreated (id workspaceId name : String) (createdAt : Int64)
  | chatSent (id workspaceId message author : String) (parentId : Option String) (timestamp : Int64)
  | fileAvailable (id : String) (groupId workspaceId boardId : Option String) (name hash : String)
      (size : UInt64) (sourcePeer : String) (createdAt : Int64)
  | whiteboardElementAdded (id boardId elementType : String) (contentJson : Option String)
      (createdAt : Int64)
  | notebookCellAdded (id boardId : String) (content : Option String)
  | notebookCellUpdated (id boardId : String) (content : Option String)
  | groupSnapshotAvailable | groupDeleted | groupDissolved
  | workspaceRenamed | workspaceDeleted | workspaceDissolved
  | boardRenamed | boardDeleted | boardDissolved
  | chatDeleted | whiteboardElementUpdated | whiteboardElementDeleted | whiteboardCleared
  | notebookCellDeleted | notebookCellsReordered
  | boardModeChanged | boardMetadataUpdated | boardLabelsUpdated | boardRated
  | profileUpdated

structure RawEvent where
  id : String
  groupId : String
  workspaceId : String
  source : String
  contentKind : String
  externalId : String
  content : String
  authorId : String := ""
  authorName : String := ""
  url : String := ""
  title : Option String := none
  threadId : Option String := none
  parentId : Option String := none
  ts : UInt64
  capturedAt : UInt64

/-! ## `ScopeTracker` -/

structure ScopeTracker where
  workspaceToGroup : KeyedMap String String
  boardToWorkspace : KeyedMap String String

namespace ScopeTracker

def new : ScopeTracker := ⟨.empty, .empty⟩

def trackWorkspace (t : ScopeTracker) (workspaceId groupId : String) : ScopeTracker :=
  { t with workspaceToGroup := t.workspaceToGroup.put workspaceId groupId }

def trackBoard (t : ScopeTracker) (boardId workspaceId : String) : ScopeTracker :=
  { t with boardToWorkspace := t.boardToWorkspace.put boardId workspaceId }

def getGroupForWorkspace (t : ScopeTracker) (workspaceId : String) : Option String :=
  t.workspaceToGroup.get workspaceId

def getScopeForBoard (t : ScopeTracker) (boardId : String) : String × String :=
  let workspaceId := (t.boardToWorkspace.get boardId).getD "unknown"
  ((t.workspaceToGroup.get workspaceId).getD "unknown", workspaceId)

end ScopeTracker

/-! ## `convert_network_event` -/

structure Stamp where
  id : String
  now : UInt64

/-- `serde_json` keeps an object's fields by their names. -/
def contentJson (pairs : List (String × Json)) : String :=
  String.ofList (Json.obj (pairs.insertionSort fun p q => p.1 ≤ q.1)).write

def jsonOrNull : Option String → Json
  | some s => .str s
  | none => .null

/-- `char::is_whitespace`. -/
def isWhitespace (c : Char) : Bool :=
  9 ≤ c.toNat ∧ c.toNat ≤ 13 ∨ 0x2000 ≤ c.toNat ∧ c.toNat ≤ 0x200a
    ∨ c.toNat ∈ [0x20, 0x85, 0xa0, 0x1680, 0x2028, 0x2029, 0x202f, 0x205f, 0x3000]

/-- `s.trim().is_empty()`. -/
def isBlank (s : String) : Bool := s.toList.all isWhitespace

def convertNetworkEvent (stamp : Stamp) (event : NetworkEvent) (groupIdFromTopic : String)
    (tracker : ScopeTracker) : Option RawEvent × ScopeTracker :=
  match event with
  | .groupCreated g =>
    (some {
      id := stamp.id
      groupId := g.id
      workspaceId := ""
      source := "cyan"
      contentKind := "cyan_group"
      externalId := g.id
      content := contentJson [("action", .str "created"), ("name", .str g.name),
        ("icon", .str g.icon), ("color", .str g.color)]
      title := some ("Group created: " ++ g.name)
      ts := g.createdAt.toUInt64
      capturedAt := stamp.now }, tracker)
  | .groupRenamed id name =>
    (some {
      id := stamp.id
      groupId := id
      workspaceId := ""
      source := "cyan"
      contentKind := "cyan_group"
      externalId := id
      content := contentJson [("action", .str "renamed"), ("name", .str name)]
      title := some ("Group renamed: " ++ name)
      ts := stamp.now
      capturedAt := stamp.now }, tracker)
  | .workspaceCreated ws =>
    (some {
      id := stamp.id
      groupId := ws.groupId
      workspaceId := ws.id
      source := "cyan"
      contentKind := "cyan_workspace"
      externalId := ws.id
      content := contentJson [("action", .str "created"), ("name", .str ws.name)]
      title := some ("Workspace created: " ++ ws.name)
      ts := ws.createdAt.toUInt64
      capturedAt := stamp.now }, tracker.trackWorkspace ws.id ws.groupId)
  | .boardCreated id workspaceId name createdAt =>
    let tracker := tracker.trackBoard id workspaceId
    (some {
      id := stamp.id
      groupId := (tracker.getGroupForWorkspace workspaceId).getD groupIdFromTopic
      workspaceId := workspaceId
      source := "cyan_board"
      contentKind := "cyan_board"
      externalId := id
      content := contentJson [("action", .str "created"), ("name", .str name), ("board_id", .str id)]
      title := some ("Board created: " ++ name)
      ts := createdAt.toUInt64
      capturedAt := stamp.now }, tracker)
  | .chatSent id workspaceId message author parentId timestamp =>
    (some {
      id := stamp.id
      groupId := (tracker.getGroupForWorkspace workspaceId).getD groupIdFromTopic
      workspaceId := workspaceId
      source := "cyan_chat"
      contentKind := "cyan_chat"
      externalId := id
      content := message
      authorId := author
      authorName := author
      parentId := parentId
      ts := timestamp.toUInt64
      capturedAt := stamp.now }, tracker)
  | .fileAvailable id groupId workspaceId boardId name hash size sourcePeer createdAt =>
    (some {
      id := stamp.id
      groupId := groupId.getD groupIdFromTopic
      workspaceId := workspaceId.getD ""
      source := "cyan_file"
      contentKind := "cyan_file"
      externalId := id
      content := contentJson [("filename", .str name), ("hash", .str hash),
        ("size", .int size.toNat), ("board_id", jsonOrNull boardId),
        ("source_peer", .str sourcePeer)]
      authorId := sourcePeer
      authorName := sourcePeer
      title := some name
      ts := createdAt.toUInt64
      capturedAt := stamp.now }, tracker)
  | .whiteboardElementAdded id boardId elementType contentJsonField createdAt =>
    let scope := tracker.getScopeForBoard boardId
    (some {
      id := stamp.id
      groupId := scope.1
      workspaceId := scope.2
      source := "cyan_whiteboard"
      contentKind := "cyan_whiteboard_element"
      externalId := id
      content := contentJson [("action", .str "added"), ("board_id", .str boardId),
        ("element_type", .str elementType), ("content", jsonOrNull contentJsonField)]
      threadId := some boardId
      ts := createdAt.toUInt64
      capturedAt := stamp.now }, tracker)
  | .notebookCellAdded id boardId content | .notebookCellUpdated id boardId content =>
    let scope := tracker.getScopeForBoard boardId
    let textContent := content.getD ""
    if isBlank textContent then (none, tracker)
    else
      (some {
        id := stamp.id
        groupId := scope.1
        workspaceId := scope.2
        source := "cyan_notebook"
        contentKind := "cyan_notebook_cell"
        externalId := id
        content := textContent
        threadId := some boardId
        ts := stamp.now
        capturedAt := stamp.now }, tracker)
  | _ => (none, tracker)

/-! ## The loop -/

/-- Answers of the clock, the generator of ids, and Iggy, to one event. -/
structure Answer extends Stamp where
  sent : Bool

structure Bootstrap where
  tracker : ScopeTracker
  /-- What was converted so far, and the source of the event it was made of. -/
  converted : List (String × RawEvent)
  alive : Bool

namespace Bootstrap

def start : Bootstrap := ⟨.new, [], true⟩

/-- What is in the source of a group's event after `group/`, or else the source. -/
def groupIdFromTopic (event : Event) : String :=
  if "group/".toList <+: event.source.toList then String.ofList (event.source.toList.drop 6)
  else event.source

/-- An event received; `fromStr` is `serde_json::from_str::<NetworkEvent>`. -/
def received (fromStr : String → Option NetworkEvent) (s : Bootstrap) (event : Event) (a : Answer) :
    Exec Bootstrap :=
  let gid := groupIdFromTopic event
  match fromStr event.payload with
  | some netEvent =>
    -- the line printed cuts the group's id
    if (short gid).isSome then
      match convertNetworkEvent a.toStamp netEvent gid s.tracker with
      | (some rawEvent, tracker) =>
        let s := { s with tracker, converted := s.converted ++ [(event.source, rawEvent)] }
        if a.sent ∧ (short rawEvent.externalId).isNone then .panic s else .ok s
      | (none, tracker) => .ok { s with tracker }
    else .panic s
  -- what is logged is logged at `debug`, and the level is `info`
  | none => .ok s

def step (fromStr : String → Option NetworkEvent) (s : Bootstrap) (x : Event × Answer) :
    Option Bootstrap :=
  if s.alive then
    match s.received fromStr x.1 x.2 with
    | .ok s => some s
    | .panic s => some { s with alive := false }
  else none

abbrev run (fromStr : String → Option NetworkEvent) (s : Bootstrap) (as : List (Event × Answer)) :
    Option Bootstrap :=
  Machine.run (step fromStr) s as

def eventsOf (g : String) (as : List (Event × Answer)) : List Event :=
  (as.map Prod.fst).filter fun event => event.source = "group/" ++ g

/-- What the events of a group were converted to. -/
def convertedOf (g : String) (s : Bootstrap) : List RawEvent :=
  (s.converted.filter fun x => x.1 = "group/" ++ g).map Prod.snd

end Bootstrap

/-! ## Iggy -/

/-- The connection to Iggy, `client` if there is one. -/
structure IggyConnection where
  client : Bool
  enabled : Bool
  lastError : Option String
  messagesSent : UInt64

namespace IggyConnection

def new (enabled : Bool) : IggyConnection where
  client := false
  enabled := enabled
  lastError := none
  messagesSent := 0

/-- `send_raw_event`, where the client would answer so. -/
def sendRawEvent (c : IggyConnection) (answer : Except String Unit) :
    Except String Unit × IggyConnection :=
  if !c.enabled then (.ok (), c)
  else if !c.client then
    (.error "Not connected to Iggy", { c with lastError := some "Not connected" })
  else
    match answer with
    | .ok () => (.ok (), { c with messagesSent := c.messagesSent + 1, lastError := none })
    | .error e =>
      let err := "Iggy send error: " ++ e
      (.error err, { c with lastError := some err, client := false })

end IggyConnection

/-- What the branch that receives events changes. -/
structure EventLoop where
  tracker : ScopeTracker
  iggy : IggyConnection
  eventsReceived : UInt64
  eventsConverted : UInt64
  eventsForwarded : UInt64

namespace EventLoop

/-- One turn of the branch; `fromStr` is `serde_json::from_str::<NetworkEvent>`, and `debug` whether
the log is at that level. -/
def receive (fromStr : String → Option NetworkEvent) (debug : Bool) (s : EventLoop) (event : Event)
    (stamp : Stamp) (answer : Except String Unit) : Exec EventLoop :=
  let s := { s with eventsReceived := s.eventsReceived + 1 }
  let gid := Bootstrap.groupIdFromTopic event
  match fromStr event.payload with
  | some netEvent =>
    if (short gid).isSome then
      match convertNetworkEvent stamp netEvent gid s.tracker with
      | (some rawEvent, tracker) =>
        let s := { s with tracker, eventsConverted := s.eventsConverted + 1 }
        match s.iggy.sendRawEvent answer with
        | (.ok (), iggy) =>
          let s := { s with iggy, eventsForwarded := s.eventsForwarded + 1 }
          -- the line printed cuts the id, which is the sender's
          if (short rawEvent.externalId).isSome then .ok s else .panic s
        | (.error _, iggy) => .ok { s with iggy }
      | (none, tracker) => .ok { s with tracker }
    else .panic s
  | none =>
    if debug ∧ (Utf8.sliceTo event.payload (min 50 (Utf8.len event.payload))).isNone then .panic s
    else .ok s

end EventLoop

/-! ## What concerns a group -/

/-- The same event, but for its random id, what the clock gave, and the scope that the tracker
gives the kinds of events that ask it. -/
structure RawEvent.SameButScope (r r' : RawEvent) : Prop where
  source : r.source = r'.source
  contentKind : r.contentKind = r'.contentKind
  externalId : r.externalId = r'.externalId
  content : r.content = r'.content
  authorId : r.authorId = r'.authorId
  authorName : r.authorName = r'.authorName
  url : r.url = r'.url
  title : r.title = r'.title
  threadId : r.threadId = r'.threadId
  parentId : r.parentId = r'.parentId
  ts : r.ts = r'.ts ∨ r.ts = r.capturedAt ∧ r'.ts = r'.capturedAt
  groupId : r.contentKind ∈ ["cyan_group", "cyan_workspace", "cyan_file"] → r.groupId = r'.groupId
  workspaceId : r.contentKind ∉ ["cyan_whiteboard_element", "cyan_notebook_cell"] →
    r.workspaceId = r'.workspaceId

/-- The same event, but for its random id and what the clock gave. -/
structure RawEvent.Same (r r' : RawEvent) : Prop where
  rest : r.SameButScope r'
  groupId : r.groupId = r'.groupId
  workspaceId : r.workspaceId = r'.workspaceId

/-- An entry made in the tracker. -/
inductive ScopeTracker.Entry where
  | workspace (workspaceId groupId : String)
  | board (boardId workspaceId : String)
deriving DecidableEq

def ScopeTracker.Entry.Among (workspaces boards : List String) : ScopeTracker.Entry → Prop
  | .workspace workspaceId _ => workspaceId ∈ workspaces
  | .board boardId _ => boardId ∈ boards

instance (workspaces boards : List String) :
    DecidablePred (ScopeTracker.Entry.Among workspaces boards)
  | .workspace workspaceId _ => inferInstanceAs (Decidable (workspaceId ∈ workspaces))
  | .board boardId _ => inferInstanceAs (Decidable (boardId ∈ boards))

namespace NetworkEvent

/-- The entry the conversion makes. -/
def entry : NetworkEvent → Option ScopeTracker.Entry
  | .workspaceCreated ws => some (.workspace ws.id ws.groupId)
  | .boardCreated id workspaceId _ _ => some (.board id workspaceId)
  | _ => none

/-- The workspaces whose group the conversion may ask for, past that of a board asked for. -/
def asksWorkspaces : NetworkEvent → List String
  | .boardCreated _ workspaceId _ _ => [workspaceId]
  | .chatSent _ workspaceId _ _ _ _ => [workspaceId]
  | .whiteboardElementAdded _ _ _ _ _ | .notebookCellAdded _ _ _ | .notebookCellUpdated _ _ _ =>
    ["unknown"]
  | _ => []

def asksBoards : NetworkEvent → List String
  | .whiteboardElementAdded _ boardId _ _ _ => [boardId]
  | .notebookCellAdded _ boardId _ | .notebookCellUpdated _ boardId _ => [boardId]
  | _ => []

end NetworkEvent

namespace Bootstrap

variable (fromStr : String → Option NetworkEvent) (g : String) (workspaces boards : List String)

/-- The `NetworkEvent` of an event that gets converted. -/
def netEvent (event : Event) : Option NetworkEvent :=
  if (short (groupIdFromTopic event)).isSome then fromStr event.payload else none

/-- What of an event received may concern the group: its own events, and entries among these. -/
def concerns (x : Event × Answer) : Option (Event ⊕ ScopeTracker.Entry) :=
  if x.1.source = "group/" ++ g then some (.inl x.1)
  else (((netEvent fromStr x.1).bind NetworkEvent.entry).filter
    fun entry => entry.Among workspaces boards).map .inr

/-- All that the group's events ask the tracker for is among these, and so is the workspace any
event puts one of these boards in. -/
structure Covers (x : Event × Answer) : Prop where
  asksWorkspaces : x.1.source = "group/" ++ g → ∀ e, netEvent fromStr x.1 = some e →
    ∀ w ∈ e.asksWorkspaces, w ∈ workspaces
  asksBoards : x.1.source = "group/" ++ g → ∀ e, netEvent fromStr x.1 = some e →
    ∀ b ∈ e.asksBoards, b ∈ boards
  placed : ∀ e, netEvent fromStr x.1 = some e →
    ∀ b ∈ boards, ∀ w, e.entry = some (.board b w) → w ∈ workspaces

end Bootstrap

end XaeroFlux
