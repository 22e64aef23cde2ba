import Mathlib.Data.List.Forall2
import XaeroFlux.Bootstrap
import XaeroFlux.Lib.Unwinding

/-!
# What one group's events tell of the others

The tracker is one for all groups, so who creates a workspace or a board decides the scope of the
events of every group that refer to it (`otherGroup_decides`). Nothing else of another group's
events shows in what a group's events are converted to (`noninterference`).
-/

namespace XaeroFlux

/-! ## The conversion -/

namespace ScopeTracker

def apply (t : ScopeTracker) : Entry → ScopeTracker
  | .workspace workspaceId groupId => t.trackWorkspace workspaceId groupId
  | .board boardId workspaceId => t.trackBoard boardId workspaceId

/-- The trackers agree on these workspaces and boards, and the boards are in workspaces of these. -/
structure Agree (workspaces boards : List String) (t t' : ScopeTracker) : Prop where
  group : ∀ w ∈ workspaces, t.workspaceToGroup.get w = t'.workspaceToGroup.get w
  board : ∀ b ∈ boards, t.boardToWorkspace.get b = t'.boardToWorkspace.get b
  placed : ∀ b ∈ boards, ∀ w, t.boardToWorkspace.get b = some w → w ∈ workspaces

variable {workspaces boards : List String} {t t' : ScopeTracker}

theorem Agree.symm (h : Agree workspaces boards t t') : Agree workspaces boards t' t :=
  ⟨fun w hw => (h.group w hw).symm, fun b hb => (h.board b hb).symm,
    fun b hb w hw => h.placed b hb w ((h.board b hb).trans hw)⟩

theorem Agree.apply_left (h : Agree workspaces boards t t') {entry : Entry}
    (he : ¬ entry.Among workspaces boards) : Agree workspaces boards (t.apply entry) t' := by
  cases entry with
  | workspace workspaceId groupId =>
    refine ⟨fun w hw => ?_, h.board, h.placed⟩
    have hne : w ≠ workspaceId := fun hw' => he (hw' ▸ hw)
    rw [apply, trackWorkspace, KeyedMap.get_put, if_neg hne]
    exact h.group w hw
  | board boardId workspaceId =>
    have hget : ∀ b ∈ boards, (t.apply (.board boardId workspaceId)).boardToWorkspace.get b
        = t.boardToWorkspace.get b := fun b hb => by
      have hne : b ≠ boardId := fun hb' => he (hb' ▸ hb)
      rw [apply, trackBoard, KeyedMap.get_put, if_neg hne]
    refine ⟨h.group, fun b hb => (hget b hb).trans (h.board b hb), fun b hb w hw => ?_⟩
    exact h.placed b hb w ((hget b hb).symm.trans hw)

theorem Agree.apply (h : Agree workspaces boards t t') {entry : Entry}
    (he : ∀ b ∈ boards, ∀ w, entry = .board b w → w ∈ workspaces) :
    Agree workspaces boards (t.apply entry) (t'.apply entry) := by
  cases entry with
  | workspace workspaceId groupId =>
    refine ⟨fun w hw => ?_, h.board, h.placed⟩
    simp only [ScopeTracker.apply, trackWorkspace, KeyedMap.get_put, h.group w hw]
  | board boardId workspaceId =>
    refine ⟨h.group, fun b hb => ?_, fun b hb w hw => ?_⟩
    · simp only [ScopeTracker.apply, trackBoard, KeyedMap.get_put, h.board b hb]
    · simp only [ScopeTracker.apply, trackBoard, KeyedMap.get_put] at hw
      split_ifs at hw with hbb
      · exact he b hb w (by rw [hbb, Option.some.inj hw])
      · exact h.placed b hb w hw

theorem Agree.getScopeForBoard (h : Agree workspaces boards t t') {b : String} (hb : b ∈ boards)
    (hu : "unknown" ∈ workspaces) : t.getScopeForBoard b = t'.getScopeForBoard b := by
  have hw : (t.boardToWorkspace.get b).getD "unknown" ∈ workspaces := by
    rcases hget : t.boardToWorkspace.get b with _ | w
    · exact hu
    · exact h.placed b hb w hget
  simp only [ScopeTracker.getScopeForBoard, ← h.board b hb, h.group _ hw]

end ScopeTracker

section Convert

variable {e : NetworkEvent} {gid : String} {t t' : ScopeTracker} (a a' : Stamp)

theorem convertNetworkEvent_tracker :
    (convertNetworkEvent a e gid t).2 = e.entry.elim t t.apply := by
  cases e <;> simp only [convertNetworkEvent, NetworkEvent.entry, Option.elim] <;>
    first | rfl | (split_ifs <;> rfl)

theorem convertNetworkEvent_sameButScope :
    Option.Rel RawEvent.SameButScope (convertNetworkEvent a e gid t).1
      (convertNetworkEvent a' e gid t').1 := by
  cases e <;> simp only [convertNetworkEvent] <;>
    first
    | exact .none
    | (constructor; constructor <;> simp)
    | (split_ifs
       · exact .none
       · constructor; constructor <;> simp)

theorem rel_same {o o' : Option RawEvent} (h : Option.Rel RawEvent.SameButScope o o')
    (hs : ∀ r r', o = some r → o' = some r' →
      r.groupId = r'.groupId ∧ r.workspaceId = r'.workspaceId) : Option.Rel RawEvent.Same o o' := by
  cases h with
  | none => exact .none
  | some h => exact .some ⟨h, (hs _ _ rfl rfl).1, (hs _ _ rfl rfl).2⟩

/-- Trackers that agree on what is asked of them give the same. -/
theorem convertNetworkEvent_same {workspaces boards : List String}
    (ht : t.Agree workspaces boards t') (hw : ∀ w ∈ e.asksWorkspaces, w ∈ workspaces)
    (hb : ∀ b ∈ e.asksBoards, b ∈ boards) :
    Option.Rel RawEvent.Same (convertNetworkEvent a e gid t).1
      (convertNetworkEvent a' e gid t').1 := by
  refine rel_same (convertNetworkEvent_sameButScope a a') fun r r' hr hr' => ?_
  -- the group of a workspace asked for, and the scope of a board asked for
  have hgroup : ∀ w ∈ e.asksWorkspaces, t.getGroupForWorkspace w = t'.getGroupForWorkspace w :=
    fun w hm => ht.group w (hw w hm)
  have hscope : ∀ b ∈ e.asksBoards, "unknown" ∈ e.asksWorkspaces →
      t.getScopeForBoard b = t'.getScopeForBoard b :=
    fun b hm hu => ht.getScopeForBoard (hb b hm) (hw _ hu)
  cases e with
  | boardCreated id workspaceId name createdAt =>
    have hg := hgroup workspaceId List.mem_cons_self
    obtain rfl := Option.some.inj hr
    obtain rfl := Option.some.inj hr'
    exact ⟨congrArg (Option.getD · gid) hg, rfl⟩
  | chatSent id workspaceId message author parentId timestamp =>
    have hg := hgroup workspaceId List.mem_cons_self
    obtain rfl := Option.some.inj hr
    obtain rfl := Option.some.inj hr'
    exact ⟨congrArg (Option.getD · gid) hg, rfl⟩
  | whiteboardElementAdded id boardId elementType contentJsonField createdAt =>
    have hs := hscope boardId List.mem_cons_self List.mem_cons_self
    obtain rfl := Option.some.inj hr
    obtain rfl := Option.some.inj hr'
    exact ⟨congrArg Prod.fst hs, congrArg Prod.snd hs⟩
  | notebookCellAdded id boardId content | notebookCellUpdated id boardId content =>
    have hs := hscope boardId List.mem_cons_self List.mem_cons_self
    simp only [convertNetworkEvent] at hr hr'
    split_ifs at hr hr'
    obtain rfl := Option.some.inj hr
    obtain rfl := Option.some.inj hr'
    exact ⟨congrArg Prod.fst hs, congrArg Prod.snd hs⟩
  | groupCreated | groupRenamed | workspaceCreated | fileAvailable =>
    obtain rfl := Option.some.inj hr
    obtain rfl := Option.some.inj hr'
    exact ⟨rfl, rfl⟩
  | _ => exact absurd hr (by simp [convertNetworkEvent])

end Convert

/-! ## One event received -/

namespace Bootstrap

variable {fromStr : String → Option NetworkEvent} {g : String} {s s' t t' : Bootstrap}
  {x y : Event × Answer}

theorem step_state (h : step fromStr s x = some s') :
    s'.tracker = (s.received fromStr x.1 x.2).state.tracker
      ∧ s'.converted = (s.received fromStr x.1 x.2).state.converted := by
  obtain ⟨-, h⟩ := Option.ite_none_right_eq_some.1 h
  split at h <;> rename_i m hm <;> rw [hm, ← Option.some.inj h] <;> exact ⟨rfl, rfl⟩

theorem step_eq_none (h : step fromStr s x = some s') (he : netEvent fromStr x.1 = none) :
    s'.tracker = s.tracker ∧ s'.converted = s.converted := by
  obtain ⟨ht, hc⟩ := step_state h
  suffices hs : (s.received fromStr x.1 x.2).state = s by
    rw [ht, hc, hs]
    exact ⟨rfl, rfl⟩
  unfold netEvent at he
  simp only [received]
  split
  · rename_i e hparse
    rw [hparse] at he
    split_ifs at he with hcut
    rw [if_neg hcut, Exec.state_panic]
  · rfl

/-- What is converted goes through the tracker and is added. -/
theorem step_eq_some (h : step fromStr s x = some s') {e : NetworkEvent}
    (he : netEvent fromStr x.1 = some e) :
    s'.tracker = e.entry.elim s.tracker s.tracker.apply
      ∧ s'.converted = s.converted
        ++ ((convertNetworkEvent x.2.toStamp e (groupIdFromTopic x.1) s.tracker).1.map
          fun r => (x.1.source, r)).toList := by
  obtain ⟨ht, hc⟩ := step_state h
  obtain ⟨hcut, hparse⟩ := Option.ite_none_right_eq_some.1 he
  have htracker := @convertNetworkEvent_tracker e (groupIdFromTopic x.1) s.tracker x.2.toStamp
  rw [ht, hc, ← htracker]
  simp only [received, hparse, if_pos hcut]
  rcases convertNetworkEvent x.2.toStamp e (groupIdFromTopic x.1) s.tracker with ⟨_ | r, tracker⟩
  · simp
  · dsimp only
    split_ifs <;> simp

theorem convertedOf_step (h : step fromStr s x = some s') :
    convertedOf g s' = convertedOf g s ++
      if x.1.source = "group/" ++ g then
        ((netEvent fromStr x.1).bind fun e =>
          (convertNetworkEvent x.2.toStamp e (groupIdFromTopic x.1) s.tracker).1).toList
      else [] := by
  unfold convertedOf
  rcases he : netEvent fromStr x.1 with _ | e
  · rw [(step_eq_none h he).2]
    simp
  · rw [(step_eq_some h he).2, List.filter_append, List.map_append, Option.bind_some]
    rcases (convertNetworkEvent x.2.toStamp e (groupIdFromTopic x.1) s.tracker).1 with _ | r
    · simp
    · by_cases hs : x.1.source = "group/" ++ g <;> simp [hs]

/-! ## Runs -/

theorem rel_toList {R : RawEvent → RawEvent → Prop} {o o' : Option RawEvent}
    (h : Option.Rel R o o') : List.Forall₂ R o.toList o'.toList := by
  cases h with
  | none => exact .nil
  | some h => exact .cons h .nil

theorem SameButScope.symm {r r' : RawEvent} (h : r.SameButScope r') : r'.SameButScope r where
  source := h.source.symm
  contentKind := h.contentKind.symm
  externalId := h.externalId.symm
  content := h.content.symm
  authorId := h.authorId.symm
  authorName := h.authorName.symm
  url := h.url.symm
  title := h.title.symm
  threadId := h.threadId.symm
  parentId := h.parentId.symm
  ts := h.ts.imp Eq.symm And.symm
  groupId hk := (h.groupId (h.contentKind ▸ hk)).symm
  workspaceId hk := (h.workspaceId (h.contentKind ▸ hk)).symm

theorem Same.symm {r r' : RawEvent} (h : r.Same r') : r'.Same r :=
  ⟨SameButScope.symm h.rest, h.groupId.symm, h.workspaceId.symm⟩

variable (fromStr g) in
/-- A group's own events are converted to the same but for the scope, whatever else comes. -/
theorem unwinds_sameButScope :
    Machine.Unwinds (step fromStr)
      (fun x => if x.1.source = "group/" ++ g then some x.1 else none) (fun _ => True)
      fun s t => List.Forall₂ RawEvent.SameButScope (convertedOf g s) (convertedOf g t) where
  symm h := (List.Forall₂.flip h).imp fun _ _ => SameButScope.symm
  skip {s t s' x} hR _ hx h := by
    have hs : ¬ x.1.source = "group/" ++ g := by simpa using hx
    rwa [convertedOf_step h, if_neg hs, List.append_nil]
  sync {s t s' t' x y event} hR _ _ hx hy h h' := by
    obtain ⟨hxs, hx⟩ := Option.ite_none_right_eq_some.1 hx
    obtain ⟨hys, hy⟩ := Option.ite_none_right_eq_some.1 hy
    have hxy : y.1 = x.1 := Option.some.inj (hy.trans hx.symm)
    rw [convertedOf_step h, convertedOf_step h', if_pos hxs, if_pos hys, hxy]
    refine List.rel_append hR (rel_toList ?_)
    rcases netEvent fromStr x.1 with _ | e
    · exact .none
    · exact convertNetworkEvent_sameButScope _ _

section Concerns

variable {workspaces boards : List String}

theorem concerns_eq_none (h : concerns fromStr g workspaces boards x = none) :
    ¬ x.1.source = "group/" ++ g ∧ ∀ e, netEvent fromStr x.1 = some e →
      ∀ entry, e.entry = some entry → ¬ entry.Among workspaces boards := by
  unfold concerns at h
  split_ifs at h with hs
  refine ⟨hs, fun e he entry hentry ha => ?_⟩
  simp [he, hentry, ha] at h

theorem concerns_eq_inl {event : Event}
    (h : concerns fromStr g workspaces boards x = some (.inl event)) :
    x.1.source = "group/" ++ g ∧ x.1 = event := by
  unfold concerns at h
  split_ifs at h with hs
  · exact ⟨hs, Sum.inl.inj (Option.some.inj h)⟩
  · simp at h

theorem concerns_eq_inr {entry : ScopeTracker.Entry}
    (h : concerns fromStr g workspaces boards x = some (.inr entry)) :
    ¬ x.1.source = "group/" ++ g ∧ ∃ e, netEvent fromStr x.1 = some e ∧ e.entry = some entry := by
  unfold concerns at h
  split_ifs at h with hs
  · simp at h
  · obtain ⟨entry', h', hentry⟩ := Option.map_eq_some_iff.1 h
    obtain rfl := Sum.inr.inj hentry
    obtain ⟨e, he, hentry⟩ := Option.bind_eq_some_iff.1 (Option.filter_eq_some_iff.1 h').1
    exact ⟨hs, e, he, hentry⟩

end Concerns

variable (fromStr g) in
/-- With the entries that concern them in common, a group's own events are converted to the same. -/
theorem unwinds_same (workspaces boards : List String) :
    Machine.Unwinds (step fromStr) (concerns fromStr g workspaces boards)
      (Covers fromStr g workspaces boards)
      fun s t => s.tracker.Agree workspaces boards t.tracker
        ∧ List.Forall₂ RawEvent.Same (convertedOf g s) (convertedOf g t) where
  symm h := ⟨h.1.symm, (List.Forall₂.flip h.2).imp fun _ _ => Same.symm⟩
  skip {s t s' x} hR _ hx h := by
    obtain ⟨hs, hentry⟩ := concerns_eq_none hx
    refine ⟨?_, by rw [convertedOf_step h, if_neg hs, List.append_nil]; exact hR.2⟩
    rcases he : netEvent fromStr x.1 with _ | e
    · rw [(step_eq_none h he).1]
      exact hR.1
    · rw [(step_eq_some h he).1]
      rcases hen : e.entry with _ | entry
      · exact hR.1
      · exact hR.1.apply_left (hentry e he entry hen)
  sync {s t s' t' x y b} hR hCx hCy hx hy h h' := by
    rcases b with event | entry
    · obtain ⟨hxs, rfl⟩ := concerns_eq_inl hx
      obtain ⟨hys, hxy⟩ := concerns_eq_inl hy
      rw [convertedOf_step h, convertedOf_step h', if_pos hxs, if_pos hys, hxy]
      rcases he : netEvent fromStr x.1 with _ | e
      · rw [(step_eq_none h he).1, (step_eq_none h' (hxy ▸ he)).1]
        exact ⟨hR.1, by simpa using hR.2⟩
      · rw [(step_eq_some h he).1, (step_eq_some h' (hxy ▸ he)).1]
        refine ⟨?_, List.rel_append hR.2 (rel_toList ?_)⟩
        · rcases hen : e.entry with _ | entry
          · exact hR.1
          · exact hR.1.apply fun b hb w hw => hCx.placed e he b hb w (hw ▸ hen)
        · exact convertNetworkEvent_same _ _ hR.1 (hCx.asksWorkspaces hxs e he)
            (hCx.asksBoards hxs e he)
    · obtain ⟨hxs, e, he, hen⟩ := concerns_eq_inr hx
      obtain ⟨hys, e', he', hen'⟩ := concerns_eq_inr hy
      rw [convertedOf_step h, convertedOf_step h', if_neg hxs, if_neg hys, List.append_nil,
        List.append_nil, (step_eq_some h he).1, (step_eq_some h' he').1, hen, hen']
      exact ⟨hR.1.apply fun b hb w hw => hCx.placed e he b hb w (hw ▸ hen), hR.2⟩

/-- Whatever comes in from other sources, a group's events are converted to the same but for the
scope; and to the same, if the entries of the tracker that concern them come in alike. -/
theorem noninterference {as bs : List (Event × Answer)} (hs : run fromStr start as = some s)
    (ht : run fromStr start bs = some t) (hg : eventsOf g as = eventsOf g bs) :
    List.Forall₂ RawEvent.SameButScope (convertedOf g s) (convertedOf g t) ∧
      ∀ workspaces boards, (∀ x ∈ as ++ bs, Covers fromStr g workspaces boards x) →
        as.filterMap (concerns fromStr g workspaces boards)
          = bs.filterMap (concerns fromStr g workspaces boards) →
        List.Forall₂ RawEvent.Same (convertedOf g s) (convertedOf g t) := by
  have hview : ∀ cs : List (Event × Answer), (cs.filterMap fun x =>
      if x.1.source = "group/" ++ g then some x.1 else none) = eventsOf g cs := by
    intro cs
    rw [eventsOf, ← List.filterMap_eq_filter, List.filterMap_map]
    exact List.filterMap_congr fun x _ => by simp [Option.guard]
  constructor
  · exact (unwinds_sameButScope fromStr g).run (fun _ _ => trivial) (fun _ _ => trivial)
      (by rw [hview, hview, hg]) .nil hs ht
  · intro workspaces boards hC hv
    refine ((unwinds_same fromStr g workspaces boards).run
      (fun x hx => hC x (List.mem_append_left _ hx)) (fun x hx => hC x (List.mem_append_right _ hx))
      hv ⟨⟨fun _ _ => rfl, fun _ _ => rfl, ?_⟩, .nil⟩ hs ht).2
    simp [start, ScopeTracker.new]

/-! ## Another group's workspace -/

/-- A chat message in the workspace `w`. -/
def chatPayload : String :=
  String.ofList (Json.obj [("type", .str "ChatSent"), ("id", .str "c"), ("workspace_id", .str "w"),
    ("message", .str "hi"), ("author", .str "a"), ("parent_id", .null), ("timestamp", .int 1)]).write

def workspacePayload (id : String) : String :=
  String.ofList (Json.obj [("type", .str "WorkspaceCreated"), ("id", .str id),
    ("group_id", .str "lean"), ("name", .str "n"), ("created_at", .int 1)]).write

def readPayload (payload : String) : Option NetworkEvent :=
  if payload = chatPayload then some (.chatSent "c" "w" "hi" "a" none 1)
  else if payload = workspacePayload "w" then some (.workspaceCreated ⟨"w", "lean", "n", 1⟩)
  else if payload = workspacePayload "v" then some (.workspaceCreated ⟨"v", "lean", "n", 1⟩)
  else none

def answer : Answer := ⟨⟨"00000000-0000-4000-8000-000000000000", 1⟩, true⟩

def chat : Event × Answer := (⟨"1", chatPayload, "group/rust", 1⟩, answer)

def workspace (id : String) : Event × Answer :=
  (⟨"2", workspacePayload id, "group/lean", 1⟩, answer)

theorem otherGroup_decides :
    ¬ ∀ as bs s t, run readPayload start as = some s → run readPayload start bs = some t →
      eventsOf "rust" as = eventsOf "rust" bs →
      List.Forall₂ RawEvent.Same (convertedOf "rust" s) (convertedOf "rust" t) := by
  intro h
  obtain ⟨s, hs, hsg⟩ : ∃ s ∈ run readPayload start [chat],
      (convertedOf "rust" s).map RawEvent.groupId = ["rust"] := by decide +kernel
  obtain ⟨t, ht, htg⟩ : ∃ t ∈ run readPayload start [workspace "w", chat],
      (convertedOf "rust" t).map RawEvent.groupId = ["lean"] := by decide +kernel
  have hall := h _ _ s t hs ht (by decide +kernel)
  have hmap : (convertedOf "rust" s).map RawEvent.groupId
      = (convertedOf "rust" t).map RawEvent.groupId :=
    List.forall₂_eq_eq_eq ▸ (List.forall₂_map_left_iff.2 (List.forall₂_map_right_iff.2
      (hall.imp fun _ _ h => h.groupId)))
  rw [hsg, htg] at hmap
  revert hmap
  decide

theorem covers_chat : Covers readPayload "rust" ["w"] [] chat := by
  have he : netEvent readPayload chat.1 = some (.chatSent "c" "w" "hi" "a" none 1) := by rfl
  constructor <;> simp [he, NetworkEvent.asksWorkspaces, NetworkEvent.asksBoards]

theorem covers_workspace (id : String) :
    Covers readPayload "rust" ["w"] [] (workspace id) := by
  constructor <;> simp [workspace]

theorem noninterference_otherWorkspace :
    ∃ s t, run readPayload start [chat] = some s
      ∧ run readPayload start [workspace "v", chat] = some t
      ∧ List.Forall₂ RawEvent.Same (convertedOf "rust" s) (convertedOf "rust" t) := by
  obtain ⟨s, hs, -⟩ : ∃ s ∈ run readPayload start [chat], s.alive = true := by decide +kernel
  obtain ⟨t, ht, -⟩ : ∃ t ∈ run readPayload start [workspace "v", chat], t.alive = true := by
    decide +kernel
  refine ⟨s, t, hs, ht, (noninterference hs ht (by decide +kernel)).2 ["w"] [] ?_ ?_⟩
  · simp [covers_chat, covers_workspace]
  · decide +kernel

end Bootstrap

end XaeroFlux
