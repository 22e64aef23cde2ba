import XaeroFlux.Bootstrap
import XaeroFlux.Proofs.SnapshotStore

/-!
# A `NetworkEvent` in a snapshot

The payloads of the network are read twice: as a `NetworkEvent` by the bootstrap, and field by field
by the snapshot. The second finds the entity of every event that makes one, but for a file without
a group (`taken_iff`).
-/

namespace XaeroFlux

/-- The fields of the kinds that make an entity, the tag first, as the derived `Serialize` has
them. -/
def NetworkEvent.fields : NetworkEvent → Option (List (String × Json))
  | .groupCreated g =>
    some [("type", .str "GroupCreated"), ("id", .str g.id), ("name", .str g.name),
      ("icon", .str g.icon), ("color", .str g.color), ("created_at", .int g.createdAt.toInt)]
  | .workspaceCreated ws =>
    some [("type", .str "WorkspaceCreated"), ("id", .str ws.id), ("group_id", .str ws.groupId),
      ("name", .str ws.name), ("created_at", .int ws.createdAt.toInt)]
  | .boardCreated id workspaceId name createdAt =>
    some [("type", .str "BoardCreated"), ("id", .str id), ("workspace_id", .str workspaceId),
      ("name", .str name), ("created_at", .int createdAt.toInt)]
  | .fileAvailable id groupId workspaceId boardId name hash size sourcePeer createdAt =>
    some [("type", .str "FileAvailable"), ("id", .str id), ("group_id", .ofOption groupId),
      ("workspace_id", .ofOption workspaceId), ("board_id", .ofOption boardId),
      ("name", .str name), ("hash", .str hash), ("size", .int size.toNat),
      ("source_peer", .str sourcePeer), ("created_at", .int createdAt.toInt)]
  | .chatSent id workspaceId message author parentId timestamp =>
    some [("type", .str "ChatSent"), ("id", .str id), ("workspace_id", .str workspaceId),
      ("message", .str message), ("author", .str author), ("parent_id", .ofOption parentId),
      ("timestamp", .int timestamp.toInt)]
  | _ => none

/-! ## What is read of the fields -/

namespace Item

variable {fields fields' : List (String × Json)}

/-- An item does not depend on the order of the fields it is read from. -/
theorem ofJson_perm (hp : fields'.Perm fields) (h : (fields.map Prod.fst).Nodup)
    (eventType : String) : ofJson eventType (.obj fields') = ofJson eventType (.obj fields) := by
  have hget := Json.get_perm hp h
  have hfield {α : Type} (name : String) (f : Json → Option α) :
      Json.field name f (.obj fields') = Json.field name f (.obj fields) := by
    rw [Json.field, hget, Json.field]
  have hopt {α : Type} (name : String) (f : Json → Option α) :
      Json.optField name f (.obj fields') = Json.optField name f (.obj fields) := by
    rw [Json.optField, hget, Json.optField]
  have hrecord {α : Type} (names : List String) (f : Json → Option α)
      (hf : f (.obj fields') = f (.obj fields)) :
      Json.record names f (.obj fields') = Json.record names f (.obj fields) := by
    rw [Json.record_of_once (Json.once_perm hp h names),
      Json.record_of_once (Json.once_perm (.refl _) h names), hf]
  unfold ofJson
  split
  · rw [GroupData.ofJson, hrecord _ _ (by simp only [hfield])]
  · rw [WorkspaceData.ofJson, hrecord _ _ (by simp only [hfield])]
  · simp only [hget]
  · rw [FileData.ofJson, hrecord _ _ (by simp only [hfield, hopt])]
  · rw [ChatData.ofJson, hrecord _ _ (by simp only [hfield, hopt])]
  · rfl

theorem ofPayload_text (R : ValueReader) (h : (fields.map Prod.fst).Nodup)
    (hplain : ∀ f ∈ fields, f.2.Plain) {eventType : String}
    (hty : Json.get "type" (.obj fields) = some (.str eventType)) :
    ofPayload R.fromStr (Json.obj fields).text = ofJson eventType (.obj fields) := by
  obtain ⟨fields', hp, hread⟩ := R.fromStr_text fields h hplain
  rw [ofPayload, hread, Option.bind_eq_bind, Option.bind_some, Json.get_perm hp h, hty]
  simp [ofJson_perm hp h]

end Item

namespace NetworkEvent

/-- The item that is taken in. -/
def item : NetworkEvent → Option Item
  | .groupCreated g => some (.group ⟨g.id, g.name, g.icon, g.color, g.createdAt⟩)
  | .workspaceCreated ws => some (.workspace ⟨ws.id, ws.groupId, ws.name, ws.createdAt⟩)
  | .boardCreated id workspaceId name createdAt =>
    some (.board ⟨id, workspaceId, name, "freeform", createdAt⟩)
  | .fileAvailable id (some groupId) workspaceId boardId name hash size _ createdAt =>
    some (.file ⟨id, groupId, workspaceId, boardId, name, hash, size, createdAt⟩)
  | .chatSent id workspaceId message author parentId timestamp =>
    some (.chat ⟨id, workspaceId, message, author, parentId, timestamp⟩)
  | _ => none

theorem ofPayload_fields (R : ValueReader) {e : NetworkEvent} {fields : List (String × Json)}
    (h : e.fields = some fields) : Item.ofPayload R.fromStr (Json.obj fields).text = e.item := by
  cases e <;> simp only [NetworkEvent.fields, Option.some.injEq, reduceCtorEq] at h <;> subst h
  case groupCreated g =>
    rw [Item.ofPayload_text R (by simp) (by simp) rfl]
    simp [Item.ofJson, GroupData.ofJson, Json.record, Json.Once, item]
  case workspaceCreated ws =>
    rw [Item.ofPayload_text R (by simp) (by simp) rfl]
    simp [Item.ofJson, WorkspaceData.ofJson, Json.record, Json.Once, item]
  case boardCreated =>
    rw [Item.ofPayload_text R (by simp) (by simp) rfl]
    simp [Item.ofJson, item]
  case fileAvailable id groupId workspaceId boardId name hash size sourcePeer createdAt =>
    rw [Item.ofPayload_text R (by simp) (by simp) rfl]
    cases groupId <;>
      simp [Item.ofJson, FileData.ofJson, Json.record, Json.Once, item]
  case chatSent =>
    rw [Item.ofPayload_text R (by simp) (by simp) rfl]
    simp [Item.ofJson, ChatData.ofJson, Json.record, Json.Once, item]

end NetworkEvent

/-! ## What the snapshot has of it -/

section Entered

variable {α : Type} {key : α → String} {id : String} {same : α → Prop} {before : List α}

/-- An entity of this id is there after, and as it should be if there was none before. -/
def Entered (key : α → String) (id : String) (same : α → Prop) (before after : List α) : Prop :=
  (∃ a ∈ after, key a = id) ∧
    ((∀ a ∈ before, key a ≠ id) → ∀ a ∈ after, key a = id → same a)

theorem entered_self : Entered key id same before before ↔ ∃ a ∈ before, key a = id := by
  refine ⟨fun h => h.1, fun h => ⟨h, fun hnone => ?_⟩⟩
  obtain ⟨a, ha, hk⟩ := h
  exact absurd hk (hnone a ha)

theorem entered_concat {kept : List α} {a : α} (hkept : ∀ b ∈ kept, b ∈ before) (hk : key a = id)
    (hsame : same a) : Entered key id same before (kept ++ [a]) := by
  refine ⟨⟨a, List.mem_concat_self, hk⟩, fun hnone b hb hbk => ?_⟩
  rcases List.mem_append.1 hb with hb | hb
  · exact absurd hbk (hnone b (hkept b hb))
  · rw [List.mem_singleton.1 hb]
    exact hsame

theorem entered_ite {a : α} (hk : key a = id) (hsame : same a) :
    Entered key id same before
      (if before.any (fun b => key b = key a) then before else before ++ [a]) := by
  split_ifs with hin
  · obtain ⟨b, hb, hbk⟩ := List.any_eq_true.1 hin
    exact entered_self.2 ⟨b, hb, (of_decide_eq_true hbk).trans hk⟩
  · exact entered_concat (fun b hb => hb) hk hsame

end Entered

namespace GroupSnapshot

/-- The snapshot `s'` has the entity that the event makes, with what the two have in common if `s`
did not have it. -/
def Taken (s s' : GroupSnapshot) : NetworkEvent → Prop
  | .groupCreated g =>
    Entered GroupData.id g.id
      (fun d => d.name = g.name ∧ d.icon = g.icon ∧ d.color = g.color ∧ d.createdAt = g.createdAt)
      [s.group] [s'.group]
  | .workspaceCreated ws =>
    Entered WorkspaceData.id ws.id
      (fun w => w.groupId = ws.groupId ∧ w.name = ws.name ∧ w.createdAt = ws.createdAt)
      s.workspaces s'.workspaces
  | .boardCreated id workspaceId name createdAt =>
    Entered BoardData.id id
      (fun b => b.workspaceId = workspaceId ∧ b.name = name ∧ b.createdAt = createdAt)
      s.boards s'.boards
  | .fileAvailable id groupId workspaceId boardId name hash size _ createdAt =>
    Entered FileData.id id
      (fun f => some f.groupId = groupId ∧ f.workspaceId = workspaceId ∧ f.boardId = boardId
        ∧ f.name = name ∧ f.hash = hash ∧ f.size = size ∧ f.createdAt = createdAt)
      s.files s'.files
  | .chatSent id workspaceId message author parentId timestamp =>
    Entered ChatData.id id
      (fun c => c.workspaceId = workspaceId ∧ c.message = message ∧ c.author = author
        ∧ c.parentId = parentId ∧ c.timestamp = timestamp)
      s.recentChats s'.recentChats
  | _ => False

/-- A file without a group, and not in the snapshot. -/
def Ungrouped (s : GroupSnapshot) : NetworkEvent → Prop
  | .fileAvailable id none _ _ _ _ _ _ _ => ∀ file ∈ s.files, file.id ≠ id
  | _ => False

theorem taken_accept_iff {e : NetworkEvent} {fields : List (String × Json)}
    (h : e.fields = some fields) (s : GroupSnapshot) (ts : UInt64) :
    s.Taken { e.item.elim s s.accept with snapshotTs := ts } e ↔ ¬ s.Ungrouped e := by
  cases e <;> simp only [NetworkEvent.fields, reduceCtorEq] at h
  case groupCreated g =>
    exact iff_of_true
      (entered_concat (fun _ h => absurd h List.not_mem_nil) rfl ⟨rfl, rfl, rfl, rfl⟩) id
  case workspaceCreated ws =>
    refine iff_of_true ?_ id
    simp only [Taken, NetworkEvent.item, Option.elim_some]
    rw [workspaces_accept]
    exact entered_ite rfl ⟨rfl, rfl, rfl⟩
  case boardCreated =>
    refine iff_of_true ?_ id
    simp only [Taken, NetworkEvent.item, Option.elim_some]
    rw [boards_accept]
    exact entered_ite rfl ⟨rfl, rfl, rfl⟩
  case fileAvailable id groupId _ _ _ _ _ _ _ =>
    rcases groupId with _ | groupId
    · refine entered_self.trans ?_
      simp [Ungrouped, NetworkEvent.item]
    · refine iff_of_true ?_ not_false
      simp only [Taken, NetworkEvent.item, Option.elim_some]
      rw [files_accept]
      exact entered_ite rfl ⟨rfl, rfl, rfl, rfl, rfl, rfl, rfl⟩
  case chatSent =>
    refine iff_of_true ?_ not_false
    refine entered_concat (fun c hc => ?_) rfl ⟨rfl, rfl, rfl, rfl, rfl⟩
    split_ifs at hc
    · exact List.mem_of_mem_drop hc
    · exact hc

end GroupSnapshot

namespace SnapshotProvider

theorem getSnapshot_of_fields (R : ValueReader) (p : SnapshotProvider) (g : String)
    {e : NetworkEvent} {fields : List (String × Json)} {event : Event} (h : e.fields = some fields)
    (hpayload : event.payload = (Json.obj fields).text) :
    (p.updateFromEvent R.fromStr g event).getSnapshot g =
      let s := (p.getSnapshot g).getD (.placeholder g)
      some { e.item.elim s s.accept with snapshotTs := event.ts } := by
  rw [getSnapshot_updateFromEvent, if_pos rfl, updateSnapshot_eq, hpayload,
    NetworkEvent.ofPayload_fields R h]

/-- The payload of a `NetworkEvent` puts its entity in the group's snapshot, exactly if it is not
that of a file without a group that the snapshot does not have. -/
theorem taken_iff (R : ValueReader) (p : SnapshotProvider) (g : String) {e : NetworkEvent}
    {fields : List (String × Json)} {event : Event} (h : e.fields = some fields)
    (hpayload : event.payload = (Json.obj fields).text) :
    ∃ after, (p.updateFromEvent R.fromStr g event).getSnapshot g = some after
      ∧ (((p.getSnapshot g).getD (.placeholder g)).Taken after e ↔
        ¬ ((p.getSnapshot g).getD (.placeholder g)).Ungrouped e) :=
  ⟨_, getSnapshot_of_fields R p g h hpayload, GroupSnapshot.taken_accept_iff h _ event.ts⟩

/-- A file shared with the whole network, and one shared with the group `rust`. -/
def notes (groupId : Option String) : NetworkEvent :=
  .fileAvailable "f1" groupId none none "notes.txt" "2c26b46b" 3 "peer" 1

def notesEvent (groupId : Option String) : Event where
  id := "e1"
  payload := (Json.obj [("type", .str "FileAvailable"), ("id", .str "f1"),
    ("group_id", .ofOption groupId), ("workspace_id", .null), ("board_id", .null),
    ("name", .str "notes.txt"), ("hash", .str "2c26b46b"), ("size", .int 3),
    ("source_peer", .str "peer"), ("created_at", .int 1)]).text
  source := "peer"
  ts := 1

theorem taken_iff_notes : ∃ after,
    ((new "me").updateFromEvent ValueReader.compact.fromStr "rust"
      (notesEvent (some "rust"))).getSnapshot "rust" = some after
      ∧ (GroupSnapshot.placeholder "rust").Taken after (notes (some "rust")) := by
  obtain ⟨after, hget, htaken⟩ :=
    taken_iff .compact (new "me") "rust" (show (notes (some "rust")).fields = some _ from rfl)
      (show (notesEvent (some "rust")).payload = _ from rfl)
  exact ⟨after, hget, htaken.2 id⟩

theorem ungrouped_not_taken : ∃ after,
    ((new "me").updateFromEvent ValueReader.compact.fromStr "rust"
      (notesEvent none)).getSnapshot "rust" = some after
      ∧ ¬ (GroupSnapshot.placeholder "rust").Taken after (notes none) := by
  refine ⟨_, getSnapshot_of_fields .compact (new "me") "rust"
    (show (notes none).fields = some _ from rfl) rfl, ?_⟩
  rintro ⟨⟨file, hfile, -⟩, -⟩
  exact absurd hfile List.not_mem_nil

end SnapshotProvider

end XaeroFlux
