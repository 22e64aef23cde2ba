import XaeroFlux.Proofs.Forwarder

/-!
# What a message tells

A message put to Iggy is a `RawEvent` whose `content` is again JSON for most kinds. Between the two
nothing of the event is lost that the conversion reads: the reader of the topic gets the event back,
but for a file's scope where the sender left it out, and for whether a cell was added or updated.
-/

namespace XaeroFlux

/-! ## The event of a message -/

/-- A field of the content, read so. -/
def contentField {α : Type} (content name : String) (f : Json → Option α) : Option α :=
  (Json.read content.toList).bind (Json.field name f)

theorem contentField_contentJson {α : Type} {pairs : List (String × Json)}
    (h : (pairs.map Prod.fst).Nodup) (name : String) (f : Json → Option α) :
    contentField (contentJson pairs) name f = Json.field name f (.obj pairs) := by
  rw [contentField, contentJson, String.toList_ofList, Json.read_write, Option.bind_some,
    Json.field, Json.field, Json.get_perm (List.perm_insertionSort _ _) h]

theorem asOption_jsonOrNull (s : Option String) :
    Json.asOption Json.asStr (jsonOrNull s) = some s := by
  cases s <;> rfl

/-- The event that a message is of. -/
def RawEvent.netEvent (r : RawEvent) : Option NetworkEvent :=
  let str (name : String) := contentField r.content name Json.asStr
  let ts := r.ts.toInt64
  if r.contentKind = "cyan_group" then do
    let name ← str "name"
    if str "action" = some "created" then
      let icon ← str "icon"
      let color ← str "color"
      return .groupCreated ⟨r.externalId, name, icon, color, ts⟩
    else return .groupRenamed r.externalId name
  else if r.contentKind = "cyan_workspace" then do
    let name ← str "name"
    return .workspaceCreated ⟨r.externalId, r.groupId, name, ts⟩
  else if r.contentKind = "cyan_board" then do
    let name ← str "name"
    return .boardCreated r.externalId r.workspaceId name ts
  else if r.contentKind = "cyan_chat" then
    some (.chatSent r.externalId r.workspaceId r.content r.authorId r.parentId ts)
  else if r.contentKind = "cyan_file" then do
    let boardId ← contentField r.content "board_id" (Json.asOption Json.asStr)
    let name ← str "filename"
    let hash ← str "hash"
    let size ← contentField r.content "size" Json.asUInt64
    return .fileAvailable r.externalId (some r.groupId) (some r.workspaceId) boardId name hash size
      r.authorId ts
  else if r.contentKind = "cyan_whiteboard_element" then do
    let boardId ← r.threadId
    let elementType ← str "element_type"
    let content ← contentField r.content "content" (Json.asOption Json.asStr)
    return .whiteboardElementAdded r.externalId boardId elementType content ts
  else if r.contentKind = "cyan_notebook_cell" then do
    let boardId ← r.threadId
    return .notebookCellAdded r.externalId boardId (some r.content)
  else none

/-- What of an event on a group's topic is told. -/
def NetworkEvent.told (groupIdFromTopic : String) : NetworkEvent → NetworkEvent
  | .fileAvailable id groupId workspaceId boardId name hash size sourcePeer createdAt =>
    .fileAvailable id (some (groupId.getD groupIdFromTopic)) (some (workspaceId.getD "")) boardId
      name hash size sourcePeer createdAt
  | .notebookCellAdded id boardId content | .notebookCellUpdated id boardId content =>
    .notebookCellAdded id boardId (some (content.getD ""))
  | e => e

/-- The conversion keeps of an event what can be told. -/
theorem netEvent_convert {stamp : Stamp} {e : NetworkEvent} {gid : String} {t : ScopeTracker}
    {r : RawEvent} (h : (convertNetworkEvent stamp e gid t).1 = some r) :
    r.netEvent = some (e.told gid) := by
  cases e with
  | groupCreated | groupRenamed | workspaceCreated | boardCreated | chatSent | fileAvailable
  | whiteboardElementAdded =>
    obtain rfl := Option.some.inj h
    simp [RawEvent.netEvent, contentField_contentJson, asOption_jsonOrNull, NetworkEvent.told]
  | notebookCellAdded id boardId content | notebookCellUpdated id boardId content =>
    simp only [convertNetworkEvent] at h
    split_ifs at h
    obtain rfl := Option.some.inj h
    simp [RawEvent.netEvent, NetworkEvent.told]
  | _ => exact absurd h (by simp [convertNetworkEvent])

namespace Forwarder

variable {fromStr : String → Option NetworkEvent} {s : Forwarder} {acts : List Act}
  {a : IggyConnection.ConnectAnswer} {enabled : Bool}

/-- The event was received, and this was made of it. -/
def MadeOf (fromStr : String → Option NetworkEvent) (acts : List Act) (r : RawEvent) : Prop :=
  ∃ event stamp e t, (event, stamp) ∈ received acts ∧ Bootstrap.netEvent fromStr event = some e
    ∧ (convertNetworkEvent stamp e (Bootstrap.groupIdFromTopic event) t).1 = some r

theorem madeOf_of_run (h : run fromStr (start enabled a) acts = some s) :
    ∀ x ∈ s.converted, MadeOf fromStr acts x.2 := by
  refine Machine.run_induction (P := fun acts s => ∀ x ∈ s.converted, MadeOf fromStr acts x.2)
    (fun x hx => absurd hx List.not_mem_nil) ?_ h
  intro acts s act s' _ hs hstep
  have hold : ∀ x ∈ s.converted, MadeOf fromStr (acts ++ [act]) x.2 := by
    intro x hx
    obtain ⟨event, stamp, e, t, hmem, h⟩ := hs x hx
    refine ⟨event, stamp, e, t, ?_, h⟩
    unfold received
    rw [List.filterMap_append]
    exact List.mem_append_left _ hmem
  cases act with
  | receive event stamp answer =>
    obtain ⟨-, ⟨-, -, hconverted, -⟩ | ⟨r, hsome, -, hconverted, -⟩⟩ := step_receive hstep
    · rwa [hconverted]
    · rw [hconverted]
      intro x hx
      rcases List.mem_append.1 hx with hx | hx
      · exact hold x hx
      · rw [List.mem_singleton.1 hx]
        obtain ⟨e, he, hr⟩ := Option.bind_eq_some_iff.1 hsome
        refine ⟨event, stamp, e, s.loop.tracker, ?_, he, hr⟩
        unfold received
        rw [List.filterMap_append]
        exact List.mem_append_right _ List.mem_cons_self
  | retry a' => rwa [step_retry hstep]
  | print => rwa [step_print hstep]

/-- Whatever was put to Iggy reads back as an event that was received, but for what is not told. -/
theorem recovered (h : run fromStr (start enabled a) acts = some s) :
    ∀ m ∈ s.sent, ∃ event stamp e, (event, stamp) ∈ received acts
      ∧ Bootstrap.netEvent fromStr event = some e
      ∧ (readMessage m.1).bind RawEvent.netEvent
        = some (e.told (Bootstrap.groupIdFromTopic event)) := by
  intro m hm
  obtain ⟨put, hsub, hput⟩ := sent_of_run h
  have hmem : m.1 ∈ put.map RawEvent.toVec := by
    rw [← hput]
    exact List.mem_map_of_mem hm
  obtain ⟨r, hr, hvec⟩ := List.mem_map.1 hmem
  obtain ⟨x, hx, rfl⟩ := List.mem_map.1 (hsub.subset hr)
  obtain ⟨event, stamp, e, t, hreceived, he, hconv⟩ := madeOf_of_run h x hx
  refine ⟨event, stamp, e, hreceived, he, ?_⟩
  rw [← hvec, readMessage_toVec, Option.bind_some]
  exact netEvent_convert hconv

theorem recovered_chat : ∃ s, run Bootstrap.readPayload (start true reached)
      [.receive Bootstrap.chat.1 Bootstrap.chat.2.toStamp (.ok ())] = some s
    ∧ ∃ m ∈ s.sent, ∃ event stamp e, (event, stamp) ∈ received
        [.receive Bootstrap.chat.1 Bootstrap.chat.2.toStamp (.ok ())]
      ∧ Bootstrap.netEvent Bootstrap.readPayload event = some e
      ∧ (readMessage m.1).bind RawEvent.netEvent
        = some (e.told (Bootstrap.groupIdFromTopic event)) := by
  obtain ⟨s, hs, m, hm⟩ : ∃ s, run Bootstrap.readPayload (start true reached)
      [.receive Bootstrap.chat.1 Bootstrap.chat.2.toStamp (.ok ())] = some s
    ∧ ∃ m, m ∈ s.sent := ⟨_, rfl, _, List.mem_cons_self⟩
  exact ⟨s, hs, m, hm, recovered hs m hm⟩

end Forwarder

end XaeroFlux
