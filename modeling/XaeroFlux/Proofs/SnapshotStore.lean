import XaeroFlux.Lib.Accum
import XaeroFlux.Snapshot

/-!
# What the provider keeps of a group

A payload carries at most one item (`Item.ofPayload`), and a group's snapshot is what five
accumulators keep of the items of the group's events (`GroupSnapshot.ofItems`): the last group, the
first workspace, board and file of each id, and the last hundred chats. So it is a matter of the
group's own events, and the number of its items one of which events those are
(`updates_accumulate`).
-/

namespace XaeroFlux

/-- What a payload carries. -/
inductive Item where
  | group (group : GroupData)
  | workspace (ws : WorkspaceData)
  | board (board : BoardData)
  | file (file : FileData)
  | chat (chat : ChatData)
deriving DecidableEq

namespace Item

def ofJson (eventType : String) (parsed : Json) : Option Item :=
  match eventType with
  | "GroupCreated" => (GroupData.ofJson parsed).map group
  | "WorkspaceCreated" => (WorkspaceData.ofJson parsed).map workspace
  | "BoardCreated" => do
    let id ← (parsed.get "id").bind Json.asStr
    let wsId ← (parsed.get "workspace_id").bind Json.asStr
    let name ← (parsed.get "name").bind Json.asStr
    let createdAt := ((parsed.get "created_at").bind Json.asInt64).getD 0
    return board ⟨id, wsId, name, "freeform", createdAt⟩
  | "FileAvailable" => (FileData.ofJson parsed).map file
  | "ChatSent" => (ChatData.ofJson parsed).map chat
  | _ => none

/-- The item of a payload that is taken in; `fromStr` is `serde_json::from_str::<Value>`. -/
def ofPayload (fromStr : String → Option Json) (payload : String) : Option Item := do
  let parsed ← fromStr payload
  let eventType ← (parsed.get "type").bind Json.asStr
  ofJson eventType parsed

def asGroup : Item → Option GroupData
  | .group g => some g
  | _ => none

def asWorkspace : Item → Option WorkspaceData
  | .workspace w => some w
  | _ => none

def asBoard : Item → Option BoardData
  | .board b => some b
  | _ => none

def asFile : Item → Option FileData
  | .file f => some f
  | _ => none

def asChat : Item → Option ChatData
  | .chat c => some c
  | _ => none

end Item

/-! ## One item -/

namespace GroupSnapshot

def accept (s : GroupSnapshot) : Item → GroupSnapshot
  | .group group => { s with group }
  | .workspace ws =>
    if s.workspaces.any (·.id = ws.id) then s else { s with workspaces := s.workspaces ++ [ws] }
  | .board board =>
    if s.boards.any (·.id = board.id) then s else { s with boards := s.boards ++ [board] }
  | .file file =>
    if s.files.any (·.id = file.id) then s else { s with files := s.files ++ [file] }
  | .chat chat =>
    let chats := if s.recentChats.length ≥ 100 then s.recentChats.drop 1 else s.recentChats
    { s with recentChats := chats ++ [chat] }

theorem apply_eq (s : GroupSnapshot) (eventType : String) (parsed : Json) :
    s.apply eventType parsed = (Item.ofJson eventType parsed).elim s s.accept := by
  unfold apply
  split
  · show _ = ((GroupData.ofJson parsed).map Item.group).elim s s.accept
    rcases GroupData.ofJson parsed with _ | group <;> rfl
  · show _ = ((WorkspaceData.ofJson parsed).map Item.workspace).elim s s.accept
    rcases WorkspaceData.ofJson parsed with _ | ws <;> rfl
  · rw [Item.ofJson]
    rcases (parsed.get "id").bind Json.asStr with _ | id
    · rfl
    rcases (parsed.get "workspace_id").bind Json.asStr with _ | wsId
    · rfl
    rcases (parsed.get "name").bind Json.asStr with _ | name <;> rfl
  · show _ = ((FileData.ofJson parsed).map Item.file).elim s s.accept
    rcases FileData.ofJson parsed with _ | file <;> rfl
  · show _ = ((ChatData.ofJson parsed).map Item.chat).elim s s.accept
    rcases ChatData.ofJson parsed with _ | chat <;> rfl
  · rename_i hg hw hb hf hc
    rw [Item.ofJson.eq_6 eventType parsed hg hw hb hf hc]
    rfl

theorem workspaces_accept (s : GroupSnapshot) (ws : WorkspaceData) :
    (s.accept (.workspace ws)).workspaces =
      if s.workspaces.any (·.id = ws.id) then s.workspaces else s.workspaces ++ [ws] := by
  rw [accept, apply_ite workspaces]

theorem boards_accept (s : GroupSnapshot) (board : BoardData) :
    (s.accept (.board board)).boards =
      if s.boards.any (·.id = board.id) then s.boards else s.boards ++ [board] := by
  rw [accept, apply_ite boards]

theorem files_accept (s : GroupSnapshot) (file : FileData) :
    (s.accept (.file file)).files =
      if s.files.any (·.id = file.id) then s.files else s.files ++ [file] := by
  rw [accept, apply_ite files]

/-- What the accumulators keep of these items. -/
def ofItems (groupId : String) (items : List Item) (ts : UInt64) : GroupSnapshot where
  group := (items.filterMap Item.asGroup).getLastD (placeholder groupId).group
  workspaces := (items.filterMap Item.asWorkspace).firsts WorkspaceData.id
  boards := (items.filterMap Item.asBoard).firsts BoardData.id
  files := (items.filterMap Item.asFile).firsts FileData.id
  recentChats := (items.filterMap Item.asChat).rtake 100
  snapshotTs := ts

theorem ofItems_nil (g : String) : ofItems g [] 0 = placeholder g := rfl

theorem ofItems_concat (g : String) (items : List Item) (item : Item) (ts ts' : UInt64) :
    ofItems g (items ++ [item]) ts' =
      { (ofItems g items ts).accept item with snapshotTs := ts' } := by
  cases item <;>
    simp only [ofItems, accept, List.filterMap_append, List.filterMap_cons, List.filterMap_nil,
      Item.asGroup, Item.asWorkspace, Item.asBoard, Item.asFile, Item.asChat, List.append_nil,
      List.firsts_concat, List.rtake_concat (show 0 < 100 by decide), List.getLastD_concat]
  case chat => rfl
  all_goals split_ifs with h <;> simp only [h, if_true, Bool.false_eq_true, if_false]

/-- The number of items a group has, itself included. -/
def total (items : List Item) : ℕ :=
  1 + ((items.filterMap Item.asWorkspace).map WorkspaceData.id).toFinset.card
    + ((items.filterMap Item.asBoard).map BoardData.id).toFinset.card
    + ((items.filterMap Item.asFile).map FileData.id).toFinset.card
    + min 100 (items.filterMap Item.asChat).length

theorem itemCount_ofItems {checks : Bool} {g : String} {items : List Item} {ts : UInt64}
    (h : total items < 2 ^ 32) : (ofItems g items ts).itemCount checks = some (total items) := by
  have hsum : 1 + [(ofItems g items ts).workspaces.length, (ofItems g items ts).boards.length,
      (ofItems g items ts).files.length, (ofItems g items ts).recentChats.length].sum
        = total items := by
    simp only [ofItems, List.length_firsts, List.length_rtake, total, List.sum_cons, List.sum_nil]
    omega
  rw [itemCount, foldlM_fit (by rwa [hsum]), hsum]

theorem total_perm {items items' : List Item} (h : items'.Perm items) :
    total items' = total items := by
  unfold total
  rw [List.toFinset_eq_of_perm _ _ ((h.filterMap _).map _),
    List.toFinset_eq_of_perm _ _ ((h.filterMap _).map _),
    List.toFinset_eq_of_perm _ _ ((h.filterMap _).map _), (h.filterMap _).length_eq]

end GroupSnapshot

/-! ## All events -/

namespace SnapshotProvider

variable (fromStr : String → Option Json)

/-- The events given for the group. -/
def eventsOf (us : List (String × Event)) (groupId : String) : List Event :=
  (us.filter (·.1 = groupId)).map Prod.snd

/-- The items taken in for the group. -/
def itemsOf (us : List (String × Event)) (groupId : String) : List Item :=
  (eventsOf us groupId).filterMap fun event => Item.ofPayload fromStr event.payload

variable {fromStr}

theorem nodeId_updates (us : List (String × Event)) (p : SnapshotProvider) :
    (p.updates fromStr us).nodeId = p.nodeId := by
  induction us using List.reverseRecOn with
  | nil => rfl
  | append_singleton us u ih => rw [updates, List.foldl_concat]; exact ih

theorem getSnapshot_updateFromEvent (fromStr : String → Option Json) (p : SnapshotProvider)
    (g g' : String) (event : Event) :
    (p.updateFromEvent fromStr g event).getSnapshot g' =
      if g' = g then some (updateSnapshot fromStr event ((p.getSnapshot g).getD (.placeholder g)))
      else p.getSnapshot g' := KeyedMap.get_entry

theorem updateSnapshot_eq (event : Event) (s : GroupSnapshot) :
    updateSnapshot fromStr event s =
      { (Item.ofPayload fromStr event.payload).elim s s.accept with snapshotTs := event.ts } := by
  unfold updateSnapshot Item.ofPayload
  rcases fromStr event.payload with _ | parsed
  · rfl
  rcases hty : (parsed.get "type").bind Json.asStr with _ | eventType
  · simp [hty]
  · simp [hty, GroupSnapshot.apply_eq]

theorem updateSnapshot_ofItems (g : String) (items : List Item) (ts : UInt64) (event : Event) :
    updateSnapshot fromStr event (.ofItems g items ts) =
      .ofItems g (items ++ (Item.ofPayload fromStr event.payload).toList) event.ts := by
  rw [updateSnapshot_eq]
  rcases Item.ofPayload fromStr event.payload with _ | item
  · rw [Option.toList_none, List.append_nil]
    rfl
  · exact (GroupSnapshot.ofItems_concat g items item ts event.ts).symm

/-- A group's snapshot is there from the group's first event, and is what is kept of the items of
its events, at the time of the last. -/
theorem getSnapshot_updates (nodeId : String) (us : List (String × Event)) (g : String) :
    ((new nodeId).updates fromStr us).getSnapshot g =
      (eventsOf us g).getLast?.map fun event => .ofItems g (itemsOf fromStr us g) event.ts := by
  induction us using List.reverseRecOn with
  | nil => rfl
  | append_singleton us u ih =>
    obtain ⟨g', event⟩ := u
    have hstep : (new nodeId).updates fromStr (us ++ [(g', event)]) =
        ((new nodeId).updates fromStr us).updateFromEvent fromStr g' event := by
      rw [updates, List.foldl_concat]
      rfl
    rw [hstep, getSnapshot_updateFromEvent]
    split_ifs with hg
    · subst hg
      have hevents : eventsOf (us ++ [(g, event)]) g = eventsOf us g ++ [event] := by
        simp [eventsOf]
      obtain ⟨ts, hbefore⟩ : ∃ ts,
          (((new nodeId).updates fromStr us).getSnapshot g).getD (.placeholder g) =
            .ofItems g (itemsOf fromStr us g) ts := by
        rcases hlast : (eventsOf us g).getLast? with _ | last <;> rw [hlast] at ih
        · rw [ih, itemsOf, List.getLast?_eq_none_iff.1 hlast]
          exact ⟨0, (GroupSnapshot.ofItems_nil g).symm⟩
        · rw [ih]
          exact ⟨last.ts, rfl⟩
      rw [hbefore, updateSnapshot_ofItems, itemsOf, itemsOf, hevents, List.getLast?_concat,
        Option.map_some, List.filterMap_append]
      congr 3
    · have hevents : eventsOf (us ++ [(g', event)]) g = eventsOf us g := by
        simp [eventsOf, Ne.symm hg]
      rw [itemsOf, hevents]
      exact ih

theorem handleRequest_updates {checks : Bool} {nodeId : String} {us : List (String × Event)}
    {g : String} {event : Event} (hlast : (eventsOf us g).getLast? = some event)
    (h : GroupSnapshot.total (itemsOf fromStr us g) < 2 ^ 32) :
    ((new nodeId).updates fromStr us).handleRequest checks g =
      some (some (.snapshotAvailable g nodeId (GroupSnapshot.total (itemsOf fromStr us g))
        event.ts)) := by
  rw [handleRequest, getSnapshot_updates, hlast, Option.map_some]
  simp only [GroupSnapshot.itemCount_ofItems h, Option.map_some, nodeId_updates]
  rfl

/-- A group's snapshot is there from its first event on and is what is kept of the items of its own
events; the number of items it is offered with does not depend on their order. -/
theorem updates_accumulate (fromStr : String → Option Json) (checks : Bool) (nodeId : String)
    (us : List (String × Event)) (g : String) :
    (∀ us', eventsOf us' g = eventsOf us g →
        ((new nodeId).updates fromStr us').getSnapshot g =
          ((new nodeId).updates fromStr us).getSnapshot g)
      ∧ (((new nodeId).updates fromStr us).getSnapshot g = none ↔ ∀ u ∈ us, u.1 ≠ g)
      ∧ ∀ s, ((new nodeId).updates fromStr us).getSnapshot g = some s →
        ((s.workspaces.map WorkspaceData.id).Nodup ∧ (s.boards.map BoardData.id).Nodup
          ∧ (s.files.map FileData.id).Nodup)
        ∧ s.workspaces = ((itemsOf fromStr us g).filterMap Item.asWorkspace).firsts WorkspaceData.id
        ∧ s.boards = ((itemsOf fromStr us g).filterMap Item.asBoard).firsts BoardData.id
        ∧ s.files = ((itemsOf fromStr us g).filterMap Item.asFile).firsts FileData.id
        ∧ s.recentChats = ((itemsOf fromStr us g).filterMap Item.asChat).rtake 100
        ∧ s.group = ((itemsOf fromStr us g).filterMap Item.asGroup).getLastD
          (GroupSnapshot.placeholder g).group
        ∧ (GroupSnapshot.total (itemsOf fromStr us g) < 2 ^ 32 →
          ∀ us', (eventsOf us' g).Perm (eventsOf us g) →
            ∃ ts, ((new nodeId).updates fromStr us').handleRequest checks g =
              some (some (.snapshotAvailable g nodeId
                (GroupSnapshot.total (itemsOf fromStr us g)) ts))) := by
  refine ⟨fun us' h => ?_, ?_, fun s hs => ?_⟩
  · rw [getSnapshot_updates, getSnapshot_updates, itemsOf, itemsOf, h]
  · rw [getSnapshot_updates, Option.map_eq_none_iff, List.getLast?_eq_none_iff, eventsOf,
      List.map_eq_nil_iff, List.filter_eq_nil_iff]
    simp only [decide_eq_true_eq, ne_eq]
  rw [getSnapshot_updates] at hs
  obtain ⟨event, hlast, rfl⟩ := Option.map_eq_some_iff.1 hs
  refine ⟨⟨List.nodup_firsts _, List.nodup_firsts _, List.nodup_firsts _⟩, rfl, rfl, rfl, rfl, rfl,
    fun htotal us' hperm => ?_⟩
  -- another order has the same items, and so the same number of them
  have hitems : (itemsOf fromStr us' g).Perm (itemsOf fromStr us g) := hperm.filterMap _
  have hne : eventsOf us' g ≠ [] := by
    intro h
    rw [h] at hperm
    rw [← hperm.nil_eq] at hlast
    simp at hlast
  have hlast' := List.getLast?_eq_some_getLast hne
  rw [← GroupSnapshot.total_perm hitems] at htotal ⊢
  exact ⟨_, handleRequest_updates hlast' htotal⟩

end SnapshotProvider

end XaeroFlux
