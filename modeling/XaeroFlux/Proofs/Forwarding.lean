import XaeroFlux.Proofs.Bootstrap

/-!
# One event through the bootstrap

The lines the loop prints of an event cut the group's id and, once the event is forwarded, the id
its sender gave it; at either cut the loop may panic (`forwardedId`). The group an event is
attributed to is the topic's where the tracker has none for its workspace, but the sentinel's where
it has none for its board (`linkedGroup`, `entriesOf`).
-/

namespace XaeroFlux

namespace NetworkEvent

/-- The id that the event made of this one carries for it, if one is made. -/
def forwardedId : NetworkEvent → Option String
  | .groupCreated g => some g.id
  | .groupRenamed id _ => some id
  | .workspaceCreated ws => some ws.id
  | .boardCreated id _ _ _ => some id
  | .chatSent id _ _ _ _ _ => some id
  | .fileAvailable id _ _ _ _ _ _ _ _ => some id
  | .whiteboardElementAdded id _ _ _ _ => some id
  | .notebookCellAdded id _ content | .notebookCellUpdated id _ content =>
    if isBlank (content.getD "") then none else some id
  | _ => none

end NetworkEvent

theorem convertNetworkEvent_externalId (a : Stamp) (e : NetworkEvent) (gid : String)
    (t : ScopeTracker) :
    (convertNetworkEvent a e gid t).1.map RawEvent.externalId = e.forwardedId := by
  cases e <;> simp only [convertNetworkEvent, NetworkEvent.forwardedId] <;>
    first | rfl | (split_ifs <;> rfl)

/-! ## The cuts -/

namespace IggyConnection

/-- An event sent would count as forwarded. -/
def Forwards (c : IggyConnection) (answer : Except String Unit) : Prop :=
  c.enabled = true → c.client = true ∧ answer = .ok ()

theorem sendRawEvent_isOk {c : IggyConnection} {answer : Except String Unit} :
    (c.sendRawEvent answer).1 = .ok () ↔ c.Forwards answer := by
  unfold sendRawEvent Forwards
  cases c.enabled
  · simp
  · cases c.client
    · simp
    · rcases answer with e | ⟨⟩ <;> simp

end IggyConnection

namespace EventLoop

variable {fromStr : String → Option NetworkEvent} {debug : Bool} {s : EventLoop} {event : Event}
  {stamp : Stamp} {answer : Except String Unit}

theorem receive_of_parsed {e : NetworkEvent} (he : fromStr event.payload = some e) :
    (receive fromStr debug s event stamp answer).isOk ↔
      (short (Bootstrap.groupIdFromTopic event)).isSome ∧
        ∀ id ∈ e.forwardedId, s.iggy.Forwards answer → (short id).isSome := by
  rw [← convertNetworkEvent_externalId stamp e (Bootstrap.groupIdFromTopic event) s.tracker]
  simp only [receive, he]
  by_cases hg : (short (Bootstrap.groupIdFromTopic event)).isSome
  · rw [if_pos hg]
    rcases convertNetworkEvent stamp e (Bootstrap.groupIdFromTopic event) s.tracker with
      ⟨_ | r, tracker⟩
    · simp [hg]
    · have hsend := @IggyConnection.sendRawEvent_isOk s.iggy answer
      rcases hs : s.iggy.sendRawEvent answer with ⟨_ | _, iggy⟩ <;> rw [hs] at hsend
      · have hnot : ¬ s.iggy.Forwards answer := fun h => by simpa using hsend.2 h
        simp [hg, hnot]
      · have hfwd : s.iggy.Forwards answer := hsend.1 rfl
        simp only [Option.map_some, Option.mem_def, Option.some.injEq, forall_eq', hg, hfwd,
          true_and, forall_const]
        split_ifs with hcut <;> simp [hcut]
  · rw [if_neg hg]
    simp [hg]

theorem receive_of_not_parsed (he : fromStr event.payload = none) :
    (receive fromStr debug s event stamp answer).isOk ↔
      (debug = true → (Utf8.sliceTo event.payload (min 50 (Utf8.len event.payload))).isSome) := by
  simp only [receive, he]
  split_ifs with hcut
  · have : ¬ (debug = true →
        (Utf8.sliceTo event.payload (min 50 (Utf8.len event.payload))).isSome) := fun h => by
      rw [Option.isNone_iff_eq_none.1 hcut.2] at h
      exact absurd (h hcut.1) (by decide)
    simp [this]
  · refine iff_of_true rfl fun hd => Option.ne_none_iff_isSome.1 fun hnone => hcut ⟨hd, ?_⟩
    rw [hnone, Option.isNone_none]

/-- A turn of the branch ends without a panic exactly if its cuts are at character boundaries: the
group's id and the id of an event forwarded, each at 16 bytes, or, of what is no `NetworkEvent`, the
payload at 50, where that is logged. -/
theorem receive_isOk_iff (fromStr : String → Option NetworkEvent) (debug : Bool) (s : EventLoop)
    (event : Event) (stamp : Stamp) (answer : Except String Unit) :
    (receive fromStr debug s event stamp answer).isOk ↔
      (∀ e ∈ fromStr event.payload, (short (Bootstrap.groupIdFromTopic event)).isSome
        ∧ ∀ id ∈ e.forwardedId, s.iggy.Forwards answer → (short id).isSome)
      ∧ (fromStr event.payload = none → debug = true →
        (Utf8.sliceTo event.payload (min 50 (Utf8.len event.payload))).isSome) := by
  rcases he : fromStr event.payload with _ | e
  · rw [receive_of_not_parsed he]
    simp
  · rw [receive_of_parsed he]
    simp

/-- Iggy's part aside, a turn of the branch is a step of the loop that `Bootstrap` models. -/
theorem receive_received {b : Bootstrap} {a : Answer} (hb : b.tracker = s.tracker)
    (ha : a.sent = true ↔ s.iggy.Forwards answer) :
    (receive fromStr false s event a.toStamp answer).map EventLoop.tracker =
      (b.received fromStr event a).map Bootstrap.tracker := by
  unfold receive Bootstrap.received
  rcases fromStr event.payload with _ | e
  · simp [Exec.map, hb]
  by_cases hg : (short (Bootstrap.groupIdFromTopic event)).isSome
  · simp only [hg, if_true, hb]
    rcases convertNetworkEvent a.toStamp e (Bootstrap.groupIdFromTopic event) s.tracker with
      ⟨_ | r, tracker⟩
    · rfl
    · have hsend := @IggyConnection.sendRawEvent_isOk s.iggy answer
      rw [← ha] at hsend
      rcases hs : s.iggy.sendRawEvent answer with ⟨_ | _, iggy⟩ <;> rw [hs] at hsend
      · have hnot : ¬ a.sent = true := fun h => by simpa using hsend.2 h
        simp [Exec.map, hnot]
      · have hsent : a.sent = true := hsend.1 rfl
        rcases hcut : short r.externalId with _ | cut <;> simp [Exec.map, hsent, hcut]
  · simp [hg, Exec.map, hb]

/-- A chat message whose id has a character across the sixteenth byte. -/
def accented : NetworkEvent := .chatSent "aaaaaaaaaaaaaaaé" "w" "hi" "a" none 1

def accentedPayload : String :=
  String.ofList (Json.obj [("type", .str "ChatSent"), ("id", .str "aaaaaaaaaaaaaaaé"),
    ("workspace_id", .str "w"), ("message", .str "hi"), ("author", .str "a"), ("parent_id", .null),
    ("timestamp", .int 1)]).write

def readAccented (payload : String) : Option NetworkEvent :=
  if payload = accentedPayload then some accented else none

theorem accented_panics :
    ¬ ∀ (fromStr : String → Option NetworkEvent) (debug : Bool) (s : EventLoop) (event : Event)
      (stamp : Stamp) (answer : Except String Unit),
      (receive fromStr debug s event stamp answer).isOk := by
  intro h
  have hok := h readAccented false ⟨.new, .new false, 0, 0, 0⟩
    ⟨"1", accentedPayload, "group/rust", 1⟩
    ⟨"00000000-0000-4000-8000-000000000000", 1⟩ (.ok ())
  rw [receive_of_parsed (e := accented) (by rw [readAccented, if_pos rfl])] at hok
  -- Iggy is disabled, so the event counts as forwarded
  have hcut := hok.2 "aaaaaaaaaaaaaaaé" rfl (by simp [IggyConnection.Forwards, IggyConnection.new])
  revert hcut
  decide

end EventLoop

/-! ## The group of an event -/

namespace ScopeTracker

/-- The group last put in for the workspace. -/
def lastGroup (entries : List Entry) (w : String) : Option String :=
  (entries.filterMap fun
    | .workspace workspaceId groupId => if workspaceId = w then some groupId else none
    | .board _ _ => none).getLast?

/-- The workspace last put in for the board. -/
def lastWorkspace (entries : List Entry) (b : String) : Option String :=
  (entries.filterMap fun
    | .workspace _ _ => none
    | .board boardId workspaceId => if boardId = b then some workspaceId else none).getLast?

/-- The tracker has, of each workspace and board, the last that was put in. -/
structure Has (t : ScopeTracker) (entries : List Entry) : Prop where
  group : ∀ w, t.workspaceToGroup.get w = lastGroup entries w
  workspace : ∀ b, t.boardToWorkspace.get b = lastWorkspace entries b

theorem has_new : new.Has [] := ⟨fun _ => rfl, fun _ => rfl⟩

theorem Has.apply {t : ScopeTracker} {entries : List Entry} (h : t.Has entries) (entry : Entry) :
    (t.apply entry).Has (entries ++ [entry]) := by
  cases entry with
  | workspace workspaceId groupId =>
    refine ⟨fun w => ?_, fun b => ?_⟩
    · rw [ScopeTracker.apply, trackWorkspace, KeyedMap.get_put, h.group]
      by_cases hw : w = workspaceId
      · simp [lastGroup, hw]
      · simp [lastGroup, hw, Ne.symm hw]
    · rw [ScopeTracker.apply, trackWorkspace, h.workspace]
      simp [lastWorkspace]
  | board boardId workspaceId =>
    refine ⟨fun w => ?_, fun b => ?_⟩
    · rw [ScopeTracker.apply, trackBoard, h.group]
      simp [lastGroup]
    · rw [ScopeTracker.apply, trackBoard, KeyedMap.get_put, h.workspace]
      by_cases hb : b = boardId
      · simp [lastWorkspace, hb]
      · simp [lastWorkspace, hb, Ne.symm hb]

end ScopeTracker

namespace NetworkEvent

open ScopeTracker (Entry lastGroup lastWorkspace)

/-- The kinds of events that take their group from their workspace, or their board's. -/
def isScoped : NetworkEvent → Bool
  | .boardCreated .. | .chatSent .. | .whiteboardElementAdded .. | .notebookCellAdded ..
  | .notebookCellUpdated .. => true
  | _ => false

/-- The group that the entries link the event's workspace to, or its board's. -/
def linkedGroup (entries : List Entry) : NetworkEvent → Option String
  | .boardCreated _ workspaceId _ _ | .chatSent _ workspaceId _ _ _ _ =>
    lastGroup entries workspaceId
  | .whiteboardElementAdded _ boardId _ _ _ | .notebookCellAdded _ boardId _
  | .notebookCellUpdated _ boardId _ => (lastWorkspace entries boardId).bind (lastGroup entries)
  | _ => none

/-- The event is of no board, or its board and the board's workspace are linked; or else the
sentinel, which stands for what is not linked, happens to give the topic's group. -/
def Resolves (entries : List Entry) (g : String) (e : NetworkEvent) : Prop :=
  ∀ b ∈ e.asksBoards,
    match lastWorkspace entries b with
    | some w => (lastGroup entries w).isSome ∨ g = "unknown"
    | none => (lastGroup entries "unknown").getD "unknown" = g

end NetworkEvent

/-- The scope of a board, in terms of what was put in. -/
theorem ScopeTracker.Has.scope_iff {t : ScopeTracker} {entries : List ScopeTracker.Entry}
    (h : t.Has entries) (g b : String) :
    (t.getScopeForBoard b).1 =
        ((lastWorkspace entries b).bind (lastGroup entries)).getD g ↔
      match lastWorkspace entries b with
      | some w => (lastGroup entries w).isSome ∨ g = "unknown"
      | none => (lastGroup entries "unknown").getD "unknown" = g := by
  simp only [getScopeForBoard, h.workspace, h.group]
  rcases lastWorkspace entries b with _ | w
  · simp
  · rcases hw : lastGroup entries w with _ | g'
    · simp [hw, eq_comm]
    · simp [hw]

theorem convertNetworkEvent_groupId {a : Stamp} {e : NetworkEvent} {g : String} {t : ScopeTracker}
    {entries : List ScopeTracker.Entry} (h : t.Has entries) (he : e.isScoped = true) {r : RawEvent}
    (hr : (convertNetworkEvent a e g t).1 = some r) :
    r.groupId = (e.linkedGroup entries).getD g ↔ e.Resolves entries g := by
  cases e with
  | boardCreated | chatSent =>
    obtain rfl := Option.some.inj hr
    refine iff_of_true ?_ fun b hb => absurd hb (List.not_mem_nil)
    exact congrArg (Option.getD · g) (h.group _)
  | whiteboardElementAdded id boardId =>
    obtain rfl := Option.some.inj hr
    simpa [NetworkEvent.Resolves, NetworkEvent.asksBoards, NetworkEvent.linkedGroup]
      using h.scope_iff g boardId
  | notebookCellAdded id boardId | notebookCellUpdated id boardId =>
    simp only [convertNetworkEvent] at hr
    split_ifs at hr
    obtain rfl := Option.some.inj hr
    simpa [NetworkEvent.Resolves, NetworkEvent.asksBoards, NetworkEvent.linkedGroup]
      using h.scope_iff g boardId
  | _ => exact absurd he Bool.false_ne_true

namespace Bootstrap

variable {fromStr : String → Option NetworkEvent} {s s' : Bootstrap}

/-- What the events received put in the tracker, in their order. -/
def entriesOf (fromStr : String → Option NetworkEvent) (as : List (Event × Answer)) :
    List ScopeTracker.Entry :=
  as.filterMap fun x => (netEvent fromStr x.1).bind NetworkEvent.entry

theorem has_entriesOf {as : List (Event × Answer)} (h : run fromStr start as = some s) :
    s.tracker.Has (entriesOf fromStr as) := by
  refine Machine.run_induction (P := fun as s => s.tracker.Has (entriesOf fromStr as))
    ScopeTracker.has_new ?_ h
  intro as s x s' _ hs hstep
  have hentries : entriesOf fromStr (as ++ [x]) = entriesOf fromStr as
      ++ ((netEvent fromStr x.1).bind NetworkEvent.entry).toList := by
    rw [entriesOf, entriesOf, List.filterMap_append]
    congr 1
  rw [hentries]
  rcases he : netEvent fromStr x.1 with _ | e
  · rw [(step_eq_none hstep he).1]
    simpa using hs
  · rw [(step_eq_some hstep he).1]
    rcases hen : e.entry with _ | entry
    · simpa [hen] using hs
    · simpa [hen] using hs.apply entry

theorem groupIdFromTopic_group {event : Event} {g : String} (h : event.source = "group/" ++ g) :
    groupIdFromTopic event = g := by
  rw [groupIdFromTopic, h, String.toList_append, if_pos (List.prefix_append _ _)]
  exact String.ofList_toList

/-- After any history, an event on a group's topic is attributed to the group last linked to its
workspace, or its board's workspace, and to the topic's where a link is missing, exactly if the
sentinel does not take a missing link's place. -/
theorem groupId_iff {as : List (Event × Answer)} {event : Event} {a : Answer} {g : String}
    {e : NetworkEvent} {r : RawEvent} (hs : run fromStr start as = some s)
    (hstep : step fromStr s (event, a) = some s') (hsource : event.source = "group/" ++ g)
    (he : netEvent fromStr event = some e) (hkind : e.isScoped = true)
    (hr : s'.converted = s.converted ++ [(event.source, r)]) :
    r.groupId = (e.linkedGroup (entriesOf fromStr as)).getD g ↔
      e.Resolves (entriesOf fromStr as) g := by
  have hconv := (step_eq_some hstep he).2
  rw [hr, groupIdFromTopic_group hsource, List.append_cancel_left_eq] at hconv
  refine convertNetworkEvent_groupId (a := a.toStamp) (has_entriesOf hs) hkind ?_
  rcases hc : (convertNetworkEvent a.toStamp e g s.tracker).1 with _ | r'
  · rw [hc] at hconv
    simp at hconv
  · rw [hc] at hconv
    simp at hconv
    rw [hconv]

theorem exists_step {x : Event × Answer} {e : NetworkEvent} {r : RawEvent}
    (halive : s.alive = true) (he : netEvent fromStr x.1 = some e)
    (hr : (convertNetworkEvent x.2.toStamp e (groupIdFromTopic x.1) s.tracker).1 = some r) :
    ∃ s', step fromStr s x = some s' ∧ s'.converted = s.converted ++ [(x.1.source, r)] := by
  obtain ⟨s', hs'⟩ : ∃ s', step fromStr s x = some s' := by
    rw [step, if_pos halive]
    rcases s.received fromStr x.1 x.2 with s' | s' <;> exact ⟨_, rfl⟩
  refine ⟨s', hs', ?_⟩
  rw [(step_eq_some hs' he).2, hr]
  rfl

/-- An element put on a board that no event has told of. -/
def elementPayload : String :=
  String.ofList (Json.obj [("type", .str "WhiteboardElementAdded"), ("id", .str "e"),
    ("board_id", .str "b"), ("element_type", .str "rect"), ("x", .int 0), ("y", .int 0),
    ("width", .int 1), ("height", .int 1), ("z_index", .int 0), ("style_json", .null),
    ("content_json", .null), ("created_at", .int 1), ("updated_at", .int 1)]).write

def element : Event × Answer := (⟨"1", elementPayload, "group/rust", 1⟩, answer)

def readElement (payload : String) : Option NetworkEvent :=
  if payload = elementPayload then some (.whiteboardElementAdded "e" "b" "rect" none 1) else none

theorem netEvent_element : netEvent readElement element.1
    = some (.whiteboardElementAdded "e" "b" "rect" none 1) := by
  rw [netEvent, groupIdFromTopic_group (g := "rust") rfl, if_pos (by decide)]
  exact if_pos rfl

theorem element_unattributed :
    ¬ ∀ (fromStr : String → Option NetworkEvent) (as : List (Event × Answer)) (s s' : Bootstrap)
      (event : Event) (a : Answer) (g : String) (e : NetworkEvent) (r : RawEvent),
      run fromStr start as = some s → step fromStr s (event, a) = some s' →
      event.source = "group/" ++ g → netEvent fromStr event = some e → e.isScoped = true →
      s'.converted = s.converted ++ [(event.source, r)] →
      r.groupId = (e.linkedGroup (entriesOf fromStr as)).getD g := by
  intro h
  obtain ⟨s', hs', hconv⟩ := exists_step (s := start) rfl netEvent_element rfl
  have hgroup := h readElement [] start s' element.1 element.2 "rust" _ _ rfl hs' rfl
    netEvent_element rfl hconv
  revert hgroup
  decide

/-- The board in the workspace that the group `lean` has. -/
def boardPayload : String :=
  String.ofList (Json.obj [("type", .str "BoardCreated"), ("id", .str "b"),
    ("workspace_id", .str "w"), ("name", .str "n"), ("created_at", .int 1)]).write

def board : Event × Answer := (⟨"3", boardPayload, "group/lean", 1⟩, answer)

def readLinked (payload : String) : Option NetworkEvent :=
  if payload = boardPayload then some (.boardCreated "b" "w" "n" 1)
  else if payload = elementPayload then readElement payload
  else readPayload payload

theorem netEvent_linked : netEvent readLinked element.1
    = some (.whiteboardElementAdded "e" "b" "rect" none 1) := by
  have hne : elementPayload ≠ boardPayload := by decide +kernel
  rw [netEvent, groupIdFromTopic_group (g := "rust") rfl, if_pos (by decide)]
  exact (if_neg hne).trans ((if_pos rfl).trans (if_pos rfl))

theorem resolves_element : (NetworkEvent.whiteboardElementAdded "e" "b" "rect" none 1).Resolves
    [.workspace "w" "lean", .board "b" "w"] "rust" := by
  intro b hb
  obtain rfl := List.mem_singleton.1 hb
  exact .inl (by decide)

/-- The element is on a board of the group `lean` though it comes on the topic of `rust`. -/
theorem groupId_iff_board : ∃ s s' r, run readLinked start [workspace "w", board] = some s
    ∧ step readLinked s element = some s' ∧ s'.converted = s.converted ++ [("group/rust", r)]
    ∧ r.groupId = "lean" := by
  obtain ⟨s, hs, halive⟩ : ∃ s ∈ run readLinked start [workspace "w", board], s.alive = true := by
    decide +kernel
  obtain ⟨s', hs', hconv⟩ := exists_step (x := element) halive netEvent_linked rfl
  have hentries : entriesOf readLinked [workspace "w", board]
      = [.workspace "w" "lean", .board "b" "w"] := by decide +kernel
  have hgroup := groupId_iff hs hs' (g := "rust") rfl netEvent_linked rfl hconv
  rw [hentries] at hgroup
  exact ⟨s, s', _, hs, hs', hconv, (hgroup.2 resolves_element).trans (by decide)⟩

end Bootstrap

end XaeroFlux
