import XaeroFlux.Event
import XaeroFlux.Keys
import XaeroFlux.Lib.Exec
import XaeroFlux.Lib.JsonFields
import XaeroFlux.Lib.JsonText
import XaeroFlux.Lib.Overflow
import XaeroFlux.Topic

/-!
# Group snapshots

The state of a group that a new peer starts from (`src/snapshot.rs`). A provider keeps one snapshot
a group, fed with the events of the group's topic, and serves it on the stream a requester opened;
the requester remembers when it last synced a group.

The transfer ends with a log statement on either side, after the bytes are sent and after what was
read is stored (`logging`). `serveSnapshot` and `downloadSnapshot` are the functions up to it.
-/

namespace XaeroFlux

structure GroupData where
  id : String
  name : String
  icon : String
  color : String
  createdAt : Int64
deriving DecidableEq

structure WorkspaceData where
  id : String
  groupId : String
  name : String
  createdAt : Int64
deriving DecidableEq

structure BoardData where
  id : String
  workspaceId : String
  name : String
  boardMode : String
  createdAt : Int64
deriving DecidableEq

structure FileData where
  id : String
  groupId : String
  workspaceId : Option String
  boardId : Option String
  name : String
  hash : String
  size : UInt64
  createdAt : Int64
deriving DecidableEq

structure ChatData where
  id : String
  workspaceId : String
  message : String
  author : String
  parentId : Option String
  timestamp : Int64
deriving DecidableEq

structure GroupSnapshot where
  group : GroupData
  workspaces : List WorkspaceData
  boards : List BoardData
  files : List FileData
  recentChats : List ChatData
  snapshotTs : UInt64
deriving DecidableEq

/-! ## `Serialize` and `Deserialize` -/

namespace GroupData

def toJson (g : GroupData) : Json :=
  .obj [("id", .str g.id), ("name", .str g.name), ("icon", .str g.icon), ("color", .str g.color),
    ("created_at", .int g.createdAt.toInt)]

def ofJson : Json → Option GroupData :=
  Json.record ["id", "name", "icon", "color", "created_at"] fun j => do
    let id ← j.field "id" Json.asStr
    let name ← j.field "name" Json.asStr
    let icon ← j.field "icon" Json.asStr
    let color ← j.field "color" Json.asStr
    let createdAt ← j.field "created_at" Json.asInt64
    return { id, name, icon, color, createdAt }

@[simp] theorem ofJson_toJson (g : GroupData) : ofJson g.toJson = some g := by
  rw [ofJson, Json.record_of_once (by simp [Json.Once, toJson])]
  simp [toJson]

end GroupData

namespace WorkspaceData

def toJson (w : WorkspaceData) : Json :=
  .obj [("id", .str w.id), ("group_id", .str w.groupId), ("name", .str w.name),
    ("created_at", .int w.createdAt.toInt)]

def ofJson : Json → Option WorkspaceData :=
  Json.record ["id", "group_id", "name", "created_at"] fun j => do
    let id ← j.field "id" Json.asStr
    let groupId ← j.field "group_id" Json.asStr
    let name ← j.field "name" Json.asStr
    let createdAt ← j.field "created_at" Json.asInt64
    return { id, groupId, name, createdAt }

@[simp] theorem ofJson_toJson (w : WorkspaceData) : ofJson w.toJson = some w := by
  rw [ofJson, Json.record_of_once (by simp [Json.Once, toJson])]
  simp [toJson]

end WorkspaceData

namespace BoardData

def toJson (b : BoardData) : Json :=
  .obj [("id", .str b.id), ("workspace_id", .str b.workspaceId), ("name", .str b.name),
    ("board_mode", .str b.boardMode), ("created_at", .int b.createdAt.toInt)]

def ofJson : Json → Option BoardData :=
  Json.record ["id", "workspace_id", "name", "board_mode", "created_at"] fun j => do
    let id ← j.field "id" Json.asStr
    let workspaceId ← j.field "workspace_id" Json.asStr
    let name ← j.field "name" Json.asStr
    let boardMode ← j.field "board_mode" Json.asStr
    let createdAt ← j.field "created_at" Json.asInt64
    return { id, workspaceId, name, boardMode, createdAt }

@[simp] theorem ofJson_toJson (b : BoardData) : ofJson b.toJson = some b := by
  rw [ofJson, Json.record_of_once (by simp [Json.Once, toJson])]
  simp [toJson]

end BoardData

namespace FileData

def toJson (f : FileData) : Json :=
  .obj [("id", .str f.id), ("group_id", .str f.groupId), ("workspace_id", .ofOption f.workspaceId),
    ("board_id", .ofOption f.boardId), ("name", .str f.name), ("hash", .str f.hash),
    ("size", .int f.size.toNat), ("created_at", .int f.createdAt.toInt)]

def ofJson : Json → Option FileData :=
  Json.record ["id", "group_id", "workspace_id", "board_id", "name", "hash", "size", "created_at"]
    fun j => do
      let id ← j.field "id" Json.asStr
      let groupId ← j.field "group_id" Json.asStr
      let workspaceId ← j.optField "workspace_id" Json.asStr
      let boardId ← j.optField "board_id" Json.asStr
      let name ← j.field "name" Json.asStr
      let hash ← j.field "hash" Json.asStr
      let size ← j.field "size" Json.asUInt64
      let createdAt ← j.field "created_at" Json.asInt64
      return { id, groupId, workspaceId, boardId, name, hash, size, createdAt }

@[simp] theorem ofJson_toJson (f : FileData) : ofJson f.toJson = some f := by
  rw [ofJson, Json.record_of_once (by simp [Json.Once, toJson])]
  simp [toJson]

end FileData

namespace ChatData

def toJson (c : ChatData) : Json :=
  .obj [("id", .str c.id), ("workspace_id", .str c.workspaceId), ("message", .str c.message),
    ("author", .str c.author), ("parent_id", .ofOption c.parentId),
    ("timestamp", .int c.timestamp.toInt)]

def ofJson : Json → Option ChatData :=
  Json.record ["id", "workspace_id", "message", "author", "parent_id", "timestamp"] fun j => do
    let id ← j.field "id" Json.asStr
    let workspaceId ← j.field "workspace_id" Json.asStr
    let message ← j.field "message" Json.asStr
    let author ← j.field "author" Json.asStr
    let parentId ← j.optField "parent_id" Json.asStr
    let timestamp ← j.field "timestamp" Json.asInt64
    return { id, workspaceId, message, author, parentId, timestamp }

@[simp] theorem ofJson_toJson (c : ChatData) : ofJson c.toJson = some c := by
  rw [ofJson, Json.record_of_once (by simp [Json.Once, toJson])]
  simp [toJson]

end ChatData

namespace GroupSnapshot

def toJson (s : GroupSnapshot) : Json :=
  .obj [("group", s.group.toJson), ("workspaces", .arr (s.workspaces.map WorkspaceData.toJson)),
    ("boards", .arr (s.boards.map BoardData.toJson)),
    ("files", .arr (s.files.map FileData.toJson)),
    ("recent_chats", .arr (s.recentChats.map ChatData.toJson)),
    ("snapshot_ts", .int s.snapshotTs.toNat)]

def toVec (s : GroupSnapshot) : ByteArray := s.toJson.toVec

def ofJson : Json → Option GroupSnapshot :=
  Json.record ["group", "workspaces", "boards", "files", "recent_chats", "snapshot_ts"] fun j => do
    let group ← j.field "group" GroupData.ofJson
    let workspaces ← j.field "workspaces" (Json.asVec WorkspaceData.ofJson)
    let boards ← j.field "boards" (Json.asVec BoardData.ofJson)
    let files ← j.field "files" (Json.asVec FileData.ofJson)
    let recentChats ← j.field "recent_chats" (Json.asVec ChatData.ofJson)
    let snapshotTs ← j.field "snapshot_ts" Json.asUInt64
    return { group, workspaces, boards, files, recentChats, snapshotTs }

theorem ofJson_toJson (s : GroupSnapshot) : ofJson s.toJson = some s := by
  rw [ofJson, Json.record_of_once (by simp [Json.Once, toJson])]
  simp [toJson, Json.asVec_map WorkspaceData.ofJson_toJson,
    Json.asVec_map BoardData.ofJson_toJson, Json.asVec_map FileData.ofJson_toJson,
    Json.asVec_map ChatData.ofJson_toJson]

end GroupSnapshot

/-- `serde_json::from_slice::<GroupSnapshot>`. -/
structure SnapshotReader where
  fromSlice : ByteArray → Except String GroupSnapshot
  /-- The text of a value reads as what the derived `Deserialize` takes the value for. -/
  reads : ∀ {j : Json} {s : GroupSnapshot}, GroupSnapshot.ofJson j = some s →
    fromSlice j.toVec = .ok s
  /-- Nothing is accepted but JSON texts. -/
  isText : ∀ {bytes : ByteArray} {s : GroupSnapshot}, fromSlice bytes = .ok s →
    Json.IsText bytes.data.toList

/-- Reads compact texts and no others. -/
def SnapshotReader.compact : SnapshotReader where
  fromSlice bytes :=
    match (Json.fromSlice bytes).filter fun j => j.toVec.data = bytes.data with
    | some j => (GroupSnapshot.ofJson j).elim (.error "not a snapshot") .ok
    | none => .error "not a text"
  reads {j s} h := by
    rw [Json.fromSlice_toVec, Option.filter_some, if_pos (by simp)]
    simp [h]
  isText {bytes s} h := by
    split at h
    · rename_i j hj
      obtain ⟨-, hb⟩ := Option.filter_eq_some_iff.1 hj
      rw [← show j.toVec.data = bytes.data by simpa using hb]
      exact Json.isText_toVec j
    · simp at h

/-! ## The provider -/

inductive SnapshotMessage where
  | requestSnapshot (groupId requesterNodeId : String) (sinceTs : UInt64)
  | snapshotAvailable (groupId providerNodeId : String) (itemCount : ℕ) (latestTs : UInt64)
deriving DecidableEq

namespace GroupSnapshot

/-- What a group starts from. -/
def placeholder (groupId : String) : GroupSnapshot where
  group := { id := groupId, name := "", icon := "", color := "", createdAt := 0 }
  workspaces := []
  boards := []
  files := []
  recentChats := []
  snapshotTs := 0

/-- An event's payload of this type taken in. -/
def apply (s : GroupSnapshot) (eventType : String) (parsed : Json) : GroupSnapshot :=
  match eventType with
  | "GroupCreated" =>
    match GroupData.ofJson parsed with
    | some group => { s with group }
    | none => s
  | "WorkspaceCreated" =>
    match WorkspaceData.ofJson parsed with
    | some ws =>
      if s.workspaces.any (·.id = ws.id) then s else { s with workspaces := s.workspaces ++ [ws] }
    | none => s
  | "BoardCreated" =>
    match (parsed.get "id").bind Json.asStr, (parsed.get "workspace_id").bind Json.asStr,
      (parsed.get "name").bind Json.asStr with
    | some id, some wsId, some name =>
      if s.boards.any (·.id = id) then s
      else
        let createdAt := ((parsed.get "created_at").bind Json.asInt64).getD 0
        { s with boards := s.boards ++ [⟨id, wsId, name, "freeform", createdAt⟩] }
    | _, _, _ => s
  | "FileAvailable" =>
    match FileData.ofJson parsed with
    | some file =>
      if s.files.any (·.id = file.id) then s else { s with files := s.files ++ [file] }
    | none => s
  | "ChatSent" =>
    match ChatData.ofJson parsed with
    | some chat =>
      -- the oldest goes where a hundred are kept
      let chats := if s.recentChats.length ≥ 100 then s.recentChats.drop 1 else s.recentChats
      { s with recentChats := chats ++ [chat] }
    | none => s
  | _ => s

/-- The items of the snapshot, as a `u32` counts them. -/
def itemCount (checks : Bool) (s : GroupSnapshot) : Option ℕ :=
  [s.workspaces.length, s.boards.length, s.files.length, s.recentChats.length].foldlM
    (fun count n => fit checks 32 (count + n % 2 ^ 32 : ℕ)) 1

end GroupSnapshot

structure SnapshotProvider where
  snapshots : KeyedMap String GroupSnapshot
  nodeId : String

namespace SnapshotProvider

def new (nodeId : String) : SnapshotProvider := ⟨.empty, nodeId⟩

variable (fromStr : String → Option Json)

/-- The group's snapshot with the event taken in; `fromStr` is `serde_json::from_str::<Value>`. -/
def updateSnapshot (event : Event) (s : GroupSnapshot) : GroupSnapshot :=
  let s := match fromStr event.payload with
    | some parsed =>
      match (parsed.get "type").bind Json.asStr with
      | some eventType => s.apply eventType parsed
      | none => s
    | none => s
  { s with snapshotTs := event.ts }

def updateFromEvent (p : SnapshotProvider) (groupId : String) (event : Event) : SnapshotProvider :=
  let update := updateSnapshot fromStr event
  { p with snapshots := p.snapshots.entry groupId (.placeholder groupId) update }

/-- The provider after these events, each with the group it was given for. -/
def updates (p : SnapshotProvider) (us : List (String × Event)) : SnapshotProvider :=
  us.foldl (fun p u => p.updateFromEvent fromStr u.1 u.2) p

def getSnapshot (p : SnapshotProvider) (groupId : String) : Option GroupSnapshot :=
  p.snapshots.get groupId

/-- The answer to a request, or `none` where counting the items panics. -/
def handleRequest (checks : Bool) (p : SnapshotProvider) (groupId : String) :
    Option (Option SnapshotMessage) :=
  match p.getSnapshot groupId with
  | some s => (s.itemCount checks).map fun itemCount =>
    some (.snapshotAvailable groupId p.nodeId itemCount s.snapshotTs)
  | none => some none

end SnapshotProvider

/-! ## The transfer -/

/-- `(n as u32).to_be_bytes()`. -/
def toBeBytes (n : ℕ) : List UInt8 :=
  [UInt8.ofNat (n / 2 ^ 24), UInt8.ofNat (n / 2 ^ 16), UInt8.ofNat (n / 2 ^ 8), UInt8.ofNat n]

/-- `u32::from_be_bytes`. -/
def fromBeBytes (bytes : List UInt8) : ℕ := bytes.foldl (fun n b => 256 * n + b.toNat) 0

/-- `recv.read_exact`: so many bytes and what comes after them, if so many come. -/
def readExact (n : ℕ) (bytes : List UInt8) : Option (List UInt8 × List UInt8) :=
  if n ≤ bytes.length then some (bytes.take n, bytes.drop n) else none

def frame (data : List UInt8) : List UInt8 := toBeBytes data.length ++ data

/-- A function that went well logs at last, and panics where the group's id cannot be cut; `info`
says whether the log is at that level. -/
def logging {α : Type} (info : Bool) (groupId : String) (result : Except String α) :
    Exec (Except String α) :=
  if result.isOk ∧ logs info [short groupId] = false then .panic result else .ok result

namespace SnapshotProvider

/-- The bytes written on the stream. -/
def serveSnapshot (p : SnapshotProvider) (groupId : String) : Except String (List UInt8) :=
  match p.getSnapshot groupId with
  | some s => .ok (frame s.toVec.data.toList)
  | none => .error ("No snapshot for group " ++ groupId)

/-- `serve_snapshot` to its end: the bytes written, and what it returns where the stream answers the
writes so. -/
def serveSnapshotLogging (info : Bool) (written : Except String Unit) (p : SnapshotProvider)
    (groupId : String) : List UInt8 × Exec (Except String Unit) :=
  match p.serveSnapshot groupId with
  | .ok bytes => (bytes, logging info groupId written)
  | .error e => ([], .ok (.error e))

end SnapshotProvider

structure SnapshotRequester where
  nodeId : String
  /-- Group to the timestamp of the last sync. -/
  syncState : KeyedMap String UInt64

/-- What the code outside the repository gives a requester: the keys, `serde_json`'s reading of a
snapshot, and the error of a stream that ends early. -/
structure RequesterEnv (κ : Type) where
  keys : PublicKeys κ
  reader : SnapshotReader
  finishedEarly : String

namespace SnapshotRequester

variable {κ : Type} (env : RequesterEnv κ)

def new (nodeId : String) : SnapshotRequester := ⟨nodeId, .empty⟩

def createRequest (r : SnapshotRequester) (groupId : String) : SnapshotMessage :=
  .requestSnapshot groupId r.nodeId 0

/-- What `download_snapshot` makes of the bytes that came before the stream ended. -/
def readReply (received : List UInt8) : Except String GroupSnapshot :=
  match readExact 4 received with
  | none => .error env.finishedEarly
  | some (lenBuf, rest) =>
    match readExact (fromBeBytes lenBuf) rest with
    | none => .error env.finishedEarly
    | some (data, _) => env.reader.fromSlice data.toByteArray

/-- `request k bytes` is the attempt to connect to the node `k` and send it the bytes: an error, or
the bytes it replies before the stream ends. -/
def downloadSnapshot (request : κ → List UInt8 → Except String (List UInt8))
    (r : SnapshotRequester) (providerNodeId groupId : String) :
    Except String GroupSnapshot × SnapshotRequester :=
  let downloaded := do
    let nodeId ← env.keys.fromStr providerNodeId
    let received ← request nodeId (frame groupId.toUTF8.data.toList)
    readReply env received
  match downloaded with
  | .ok snapshot =>
    (.ok snapshot, { r with syncState := r.syncState.put groupId snapshot.snapshotTs })
  | .error e => (.error e, r)

/-- `download_snapshot` to its end: what it returns, and the requester then. -/
def downloadSnapshotLogging (info : Bool) (request : κ → List UInt8 → Except String (List UInt8))
    (r : SnapshotRequester) (providerNodeId groupId : String) :
    Exec (Except String GroupSnapshot) × SnapshotRequester :=
  let (result, r) := r.downloadSnapshot env request providerNodeId groupId
  (logging info groupId result, r)

def markSynced (r : SnapshotRequester) (groupId : String) (ts : UInt64) : SnapshotRequester :=
  { r with syncState := r.syncState.put groupId ts }

/-- `now` is the clock's reading in seconds, 0 before the epoch; `none` where the subtraction
panics. -/
def needsSnapshot (checks : Bool) (now : UInt64) (r : SnapshotRequester) (groupId : String) :
    Option Bool :=
  match r.syncState.get groupId with
  | none => some true
  | some lastTs => (fit checks 64 ((now.toNat : ℤ) - lastTs.toNat)).map (6 * 3600 < ·)

/-! ## Histories -/

inductive Op (κ : Type) where
  | download (request : κ → List UInt8 → Except String (List UInt8))
      (providerNodeId groupId : String)
  | markSynced (groupId : String) (ts : UInt64)

/-- The group an operation is about. -/
def Op.group : Op κ → String
  | .download _ _ groupId => groupId
  | .markSynced groupId _ => groupId

def apply (r : SnapshotRequester) : Op κ → SnapshotRequester
  | .download request providerNodeId groupId =>
    (r.downloadSnapshot env request providerNodeId groupId).2
  | .markSynced groupId ts => r.markSynced groupId ts

def applyAll (r : SnapshotRequester) (ops : List (Op κ)) : SnapshotRequester :=
  ops.foldl (apply env) r

end SnapshotRequester

/-! ## Integration with the main loop -/

/-- The answer, or `none` where its arithmetic panics; `now` is as in `needsSnapshot`, and `w` the
width of a `usize`. -/
def shouldRequestSnapshot {w : ℕ} (checks : Bool) (now : UInt64) (localItemCount : BitVec w)
    (remoteItemCount : UInt32) (lastSyncTs : Option UInt64) : Option Bool :=
  if localItemCount.toNat = 0 then some true
  else do
    let product ← fit checks w (localItemCount.toNat * 12 : ℕ)
    if remoteItemCount.toNat % 2 ^ w > product / 10 then some true
    else
      match lastSyncTs with
      | some ts => (fit checks 64 ((now.toNat : ℤ) - ts.toNat)).map (6 * 3600 < ·)
      | none => some false

end XaeroFlux
