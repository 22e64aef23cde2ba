import Mathlib.Order.Bounds.Defs
import XaeroFlux.Proofs.SnapshotOwn
import XaeroFlux.Proofs.SnapshotStore

/-!
# What the provider offers after a history

Every event stamps its group's snapshot with its own time, whatever becomes of its payload. So a
payload that is not taken in changes nothing only where the group has a snapshot of that very time
(`updateFromEvent_eq_self`), and the time a snapshot is offered with is the last event's
(`getLast_of_advertises`). What a payload adds it adds once, a chat apart (`ofItems_again`).
-/

namespace XaeroFlux

namespace SnapshotProvider

variable {fromStr : String → Option Json} {nodeId g : String} {us : List (String × Event)}

/-! ## Payloads that are not taken in -/

/-- The payload is one that an update takes an item from. -/
def Accepted (fromStr : String → Option Json) (event : Event) : Prop :=
  (Item.ofPayload fromStr event.payload).isSome

instance (event : Event) : Decidable (Accepted fromStr event) :=
  inferInstanceAs (Decidable (_ = true))

theorem updateSnapshot_of_not_accepted {event : Event} (h : ¬ Accepted fromStr event)
    (s : GroupSnapshot) : updateSnapshot fromStr event s = { s with snapshotTs := event.ts } := by
  rw [updateSnapshot_eq, Option.not_isSome_iff_eq_none.1 h, Option.elim_none]

/-- A payload that is not taken in leaves the store alone exactly if the group's snapshot has the
event's time already. -/
theorem updateFromEvent_eq_self {p : SnapshotProvider} {event : Event}
    (h : ¬ Accepted fromStr event) : p.updateFromEvent fromStr g event = p ↔
      ∃ s, p.getSnapshot g = some s ∧ s.snapshotTs = event.ts := by
  constructor
  · intro heq
    have hget := getSnapshot_updateFromEvent fromStr p g g event
    rw [heq, if_pos rfl, updateSnapshot_of_not_accepted h] at hget
    exact ⟨_, hget, rfl⟩
  · intro hs
    obtain ⟨s, hs, hts⟩ := hs
    have hsame : updateSnapshot fromStr event s = s := by
      rw [updateSnapshot_of_not_accepted h, ← hts]
    have hentry := KeyedMap.entry_eq_self (v := GroupSnapshot.placeholder g) hs hsame
    unfold updateFromEvent
    dsimp only
    rw [hentry]

/-- A request is answered only with data: some event taken in for the group. -/
def OffersData (fromStr : String → Option Json) (checks : Bool) (us : List (String × Event))
    (p : SnapshotProvider) : Prop :=
  ∀ g m, p.handleRequest checks g = some (some m) → ∃ u ∈ us, u.1 = g ∧ Accepted fromStr u.2

theorem getSnapshot_of_answer {checks : Bool} {p : SnapshotProvider} {m : SnapshotMessage}
    (h : p.handleRequest checks g = some (some m)) : ∃ s, p.getSnapshot g = some s := by
  rcases hs : p.getSnapshot g with _ | s
  · rw [handleRequest, hs] at h
    cases h
  · exact ⟨s, rfl⟩

/-- In a run the store offers only what was taken in, and what is not taken in leaves it alone,
exactly if each such event comes to a group with a snapshot of the event's time. -/
theorem offersData_iff (fromStr : String → Option Json) (checks : Bool) (nodeId : String)
    (us : List (String × Event)) :
    (Machine.Throughout (step fromStr) (new nodeId) us (OffersData fromStr checks)
      ∧ Machine.EachStep (step fromStr) (new nodeId) us fun _ p u =>
        ¬ Accepted fromStr u.2 → p.updateFromEvent fromStr u.1 u.2 = p) ↔
    Machine.EachStep (step fromStr) (new nodeId) us fun _ p u =>
      ¬ Accepted fromStr u.2 →
        ∃ s, p.getSnapshot u.1 = some s ∧ s.snapshotTs = u.2.ts := by
  constructor
  · intro h pre u suf p heq hr hu
    exact (updateFromEvent_eq_self hu).1 (h.2 pre u suf p heq hr hu)
  · intro h
    refine ⟨?_, fun pre u suf p heq hr hu =>
      (updateFromEvent_eq_self hu).2 (h pre u suf p heq hr hu)⟩
    -- every snapshot there is has an event taken in
    have hdata : Machine.Throughout (step fromStr) (new nodeId) us fun us p =>
        ∀ g s, p.getSnapshot g = some s → ∃ u ∈ us, u.1 = g ∧ Accepted fromStr u.2 := by
      refine Machine.throughout_of_eachStep ?_ ?_ h
      · intro g s hs
        simp [new, getSnapshot] at hs
      · intro as p u p' _ hp hstep hu g s hs
        obtain rfl := Option.some.inj hstep
        rw [getSnapshot_updateFromEvent] at hs
        split_ifs at hs with hg
        · by_cases hacc : Accepted fromStr u.2
          · exact ⟨u, by simp, hg.symm, hacc⟩
          · obtain ⟨s', hs', -⟩ := hu hacc
            obtain ⟨u', hu', hg', hacc'⟩ := hp _ s' hs'
            exact ⟨u', List.mem_append_left _ hu', hg'.trans hg.symm, hacc'⟩
        · obtain ⟨u', hu', hg', hacc'⟩ := hp g s hs
          exact ⟨u', List.mem_append_left _ hu', hg', hacc'⟩
    intro pre suf p heq hr g m hm
    obtain ⟨s, hs⟩ := getSnapshot_of_answer hm
    exact hdata pre suf p heq hr g s hs

/-- An event with a payload of no type. -/
def untyped : Event where
  id := "e1"
  payload := (Json.obj []).text
  source := "group/rust"
  ts := 7

theorem not_accepted_untyped : ¬ Accepted ValueReader.compact.fromStr untyped := by
  rw [Accepted, Item.ofPayload, untyped, ValueReader.compact_text]
  decide

theorem untyped_offered : ¬ (
    Machine.Throughout (step ValueReader.compact.fromStr) (new "me") [("rust", untyped)]
      (OffersData ValueReader.compact.fromStr true)
    ∧ Machine.EachStep (step ValueReader.compact.fromStr) (new "me") [("rust", untyped)]
      fun _ p u => ¬ Accepted ValueReader.compact.fromStr u.2 →
        p.updateFromEvent ValueReader.compact.fromStr u.1 u.2 = p) := by
  intro h
  have hafter := h.1 [("rust", untyped)] [] _ rfl (run_step _ _)
  have hlast : (eventsOf [("rust", untyped)] "rust").getLast? = some untyped := by decide
  have hitems : itemsOf ValueReader.compact.fromStr [("rust", untyped)] "rust" = [] := by
    have hnone := Option.not_isSome_iff_eq_none.1 not_accepted_untyped
    simp [itemsOf, eventsOf, hnone]
  have hanswer : ((new "me").updates ValueReader.compact.fromStr
      [("rust", untyped)]).handleRequest true "rust" = _ := handleRequest_updates hlast (by
    rw [hitems]
    decide)
  obtain ⟨u, hu, -, hacc⟩ := hafter "rust" _ hanswer
  rw [List.mem_singleton.1 hu] at hacc
  exact not_accepted_untyped hacc

/-! ## The time offered -/

theorem exists_itemCount (s : GroupSnapshot) :
    ∃ n, s.itemCount false = some n := by
  have hfit (n : ℕ) : ∃ m, fit false 32 n = some m := by
    by_cases h : 0 ≤ (n : ℤ) ∧ (n : ℤ) < 2 ^ 32
    · exact ⟨_, if_pos h⟩
    · exact ⟨_, if_neg h⟩
  have hfold : ∀ (ns : List ℕ) (k : ℕ),
      ∃ n, ns.foldlM (fun count n => fit false 32 (count + n % 2 ^ 32 : ℕ)) k = some n := by
    intro ns
    induction ns with
    | nil => exact fun k => ⟨k, rfl⟩
    | cons n ns ih =>
      intro k
      obtain ⟨m, hm⟩ := hfit (k + n % 2 ^ 32)
      obtain ⟨n', hn'⟩ := ih m
      exact ⟨n', by rw [List.foldlM_cons, hm, Option.bind_eq_bind, Option.bind_some, hn']⟩
  exact hfold _ _

/-- The provider offers the group's snapshot with this latest time. -/
def Advertises (checks : Bool) (p : SnapshotProvider) (g : String) (ts : UInt64) : Prop :=
  ∃ providerNodeId itemCount,
    p.handleRequest checks g = some (some (.snapshotAvailable g providerNodeId itemCount ts))

theorem getLast_of_advertises {checks : Bool} {ts : UInt64}
    (h : Advertises checks ((new nodeId).updates fromStr us) g ts) :
    ∃ event, (eventsOf us g).getLast? = some event ∧ event.ts = ts := by
  obtain ⟨provider, n, h⟩ := h
  unfold handleRequest at h
  rw [getSnapshot_updates] at h
  rcases hlast : (eventsOf us g).getLast? with _ | event
  · rw [hlast] at h
    cases h
  · rw [hlast, Option.map_some] at h
    obtain ⟨n', -, hm⟩ := Option.map_eq_some_iff.1 h
    rw [Option.some.injEq, SnapshotMessage.snapshotAvailable.injEq] at hm
    exact ⟨event, rfl, hm.2.2.2⟩

theorem exists_advertises (fromStr : String → Option Json) (nodeId : String)
    (h : eventsOf us g ≠ []) :
    ∃ ts, Advertises false ((new nodeId).updates fromStr us) g ts := by
  have hlast := List.getLast?_eq_some_getLast h
  have hget : ((new nodeId).updates fromStr us).getSnapshot g = _ := getSnapshot_updates nodeId us g
  rw [hlast, Option.map_some] at hget
  obtain ⟨n, hn⟩ := exists_itemCount
    (.ofItems g (itemsOf fromStr us g) ((eventsOf us g).getLast h).ts)
  refine ⟨((eventsOf us g).getLast h).ts, nodeId, n, ?_⟩
  unfold handleRequest
  rw [hget]
  dsimp only
  rw [hn, nodeId_updates]
  rfl

theorem eventsOf_concat (us : List (String × Event)) (g : String) (event : Event) :
    eventsOf (us ++ [(g, event)]) g = eventsOf us g ++ [event] := by
  simp [eventsOf]

/-- The latest time offered is the greatest time of the group's events exactly if the last of them
has it; one more event takes it back exactly if its own time is before the last one's; and two
providers offer the same time exactly if their last events have the same. -/
theorem latestTs_iff (fromStr : String → Option Json) (nodeId : String)
    (us : List (String × Event)) (g : String) (last : Event)
    (hlast : (eventsOf us g).getLast? = some last) :
    (∃ ts, Advertises false ((new nodeId).updates fromStr us) g ts)
      ∧ ∀ checks ts, Advertises checks ((new nodeId).updates fromStr us) g ts →
        (IsGreatest {t | ∃ event ∈ eventsOf us g, event.ts = t} ts ↔
          ∀ event ∈ eventsOf us g, event.ts ≤ last.ts)
        ∧ (∀ event ts', Advertises checks
            ((new nodeId).updates fromStr (us ++ [(g, event)])) g ts' →
          (ts ≤ ts' ↔ last.ts ≤ event.ts))
        ∧ ∀ nodeId' us' last' ts', (eventsOf us' g).Perm (eventsOf us g) →
          (eventsOf us' g).getLast? = some last' →
          Advertises checks ((new nodeId').updates fromStr us') g ts' →
          (ts' = ts ↔ last'.ts = last.ts) := by
  have hmem : last ∈ eventsOf us g := List.mem_of_getLast? hlast
  refine ⟨exists_advertises fromStr nodeId (List.ne_nil_of_mem hmem), fun checks ts hts => ?_⟩
  obtain ⟨event, hevent, rfl⟩ := getLast_of_advertises hts
  obtain rfl : event = last := Option.some.inj (hevent.symm.trans hlast)
  refine ⟨?_, fun event' ts' hts' => ?_, fun nodeId' us' last' ts' _ hlast' hts' => ?_⟩
  · constructor
    · intro hg e he
      exact hg.2 ⟨e, he, rfl⟩
    · intro hall
      refine ⟨⟨event, hmem, rfl⟩, ?_⟩
      rintro _ ⟨e, he, rfl⟩
      exact hall e he
  · obtain ⟨e, he, rfl⟩ := getLast_of_advertises hts'
    rw [eventsOf_concat, List.getLast?_concat] at he
    rw [← Option.some.inj he]
  · obtain ⟨e, he, rfl⟩ := getLast_of_advertises hts'
    rw [← Option.some.inj (he.symm.trans hlast')]

/-- The same event, of an earlier time. -/
def earlierGroup : Event := { strayGroup with id := "e0", ts := 0 }

theorem latestTs_not_greatest : ¬ ∀ (fromStr : String → Option Json) (checks : Bool)
    (nodeId : String) (us : List (String × Event)) (g : String), eventsOf us g ≠ [] →
    (∀ event ∈ eventsOf us g, Accepted fromStr event) →
    ∀ ts, Advertises checks ((new nodeId).updates fromStr us) g ts →
      IsGreatest {t | ∃ event ∈ eventsOf us g, event.ts = t} ts := by
  intro h
  have hevents : eventsOf [("g2", strayGroup), ("g2", earlierGroup)] "g2"
      = [strayGroup, earlierGroup] := by decide
  have hne : eventsOf [("g2", strayGroup), ("g2", earlierGroup)] "g2" ≠ [] := by
    rw [hevents]
    exact List.cons_ne_nil _ _
  have hacc : ∀ event ∈ eventsOf [("g2", strayGroup), ("g2", earlierGroup)] "g2",
      Accepted ValueReader.compact.fromStr event := by
    rw [hevents]
    intro event he
    have hpayload : event.payload = strayGroup.payload := by
      simp only [List.mem_cons, List.not_mem_nil, or_false] at he
      rcases he with rfl | rfl <;> rfl
    rw [Accepted, hpayload, ofPayload_strayGroup]
    rfl
  obtain ⟨ts, hts⟩ := exists_advertises ValueReader.compact.fromStr "me" hne
  have hgreatest := h _ false "me" _ "g2" hne hacc ts hts
  obtain ⟨last, hlast, rfl⟩ := getLast_of_advertises hts
  rw [hevents] at hlast
  obtain rfl := Option.some.inj hlast
  have hle : strayGroup.ts ≤ earlierGroup.ts := hgreatest.2 ⟨strayGroup, by simp [hevents], rfl⟩
  exact absurd hle (by decide)

theorem latestTs_iff_stray : ∃ ts, Advertises false
    ((new "me").updates ValueReader.compact.fromStr [("g2", earlierGroup), ("g2", strayGroup)])
      "g2" ts
    ∧ IsGreatest {t | ∃ event ∈
      eventsOf [("g2", earlierGroup), ("g2", strayGroup)] "g2", event.ts = t} ts := by
  obtain ⟨⟨ts, hts⟩, h⟩ := latestTs_iff ValueReader.compact.fromStr "me"
    [("g2", earlierGroup), ("g2", strayGroup)] "g2" strayGroup (by decide)
  exact ⟨ts, hts, (h false ts hts).1.2 (by decide)⟩

end SnapshotProvider

/-! ## Events that come again -/

/-- The kind of an item and what it is of: the id in its payload. -/
def Item.entity : Item → String × String
  | .group g => ("GroupCreated", g.id)
  | .workspace w => ("WorkspaceCreated", w.id)
  | .board b => ("BoardCreated", b.id)
  | .file f => ("FileAvailable", f.id)
  | .chat c => ("ChatSent", c.id)

namespace GroupSnapshot

/-- The snapshot but for its time. -/
def content (s : GroupSnapshot) : GroupSnapshot := { s with snapshotTs := 0 }

theorem content_ofItems (g : String) (items : List Item) (ts : UInt64) :
    (ofItems g items ts).content = ofItems g items 0 := by
  simp only [content, ofItems]

/-- Taking the item in once more, after these, is taking nothing in: a group must be the last one,
and a chat all of the last hundred. -/
def Settled (items : List Item) : Item → Prop
  | .group group => (items.filterMap Item.asGroup).getLast? = some group
  | .chat chat => (items.filterMap Item.asChat).rtake 100 = List.replicate 100 chat
  | _ => True

theorem ofItems_again (g : String) {items : List Item} {item : Item} (h : item ∈ items) :
    ofItems g (items ++ [item]) 0 = ofItems g items 0 ↔ Settled items item := by
  cases item <;>
    simp only [ofItems, Settled, List.filterMap_append, List.filterMap_cons, List.filterMap_nil,
      Item.asGroup, Item.asWorkspace, Item.asBoard, Item.asFile, Item.asChat, List.append_nil,
      GroupSnapshot.mk.injEq, and_true, true_and, List.getLastD_concat]
  case group group =>
    have hmem : group ∈ items.filterMap Item.asGroup := List.mem_filterMap.2 ⟨_, h, rfl⟩
    rw [List.getLastD_eq_getLast?, List.getLast?_eq_some_getLast (List.ne_nil_of_mem hmem),
      Option.getD_some, Option.some.injEq, eq_comm]
  case workspace ws =>
    have hmem : ws ∈ items.filterMap Item.asWorkspace := List.mem_filterMap.2 ⟨_, h, rfl⟩
    exact iff_of_true (List.firsts_concat_of_mem (List.mem_map_of_mem hmem)) trivial
  case board board =>
    have hmem : board ∈ items.filterMap Item.asBoard := List.mem_filterMap.2 ⟨_, h, rfl⟩
    exact iff_of_true (List.firsts_concat_of_mem (List.mem_map_of_mem hmem)) trivial
  case file file =>
    have hmem : file ∈ items.filterMap Item.asFile := List.mem_filterMap.2 ⟨_, h, rfl⟩
    exact iff_of_true (List.firsts_concat_of_mem (List.mem_map_of_mem hmem)) trivial
  case chat chat => exact List.rtake_concat_eq_self (by decide)

end GroupSnapshot

namespace SnapshotProvider

variable {fromStr : String → Option Json}

/-- No later event of the group carries an item of the kind and id of this one's. -/
def MostRecent (fromStr : String → Option Json) (us : List (String × Event)) (g : String)
    (event : Event) : Prop :=
  ∃ pre post, us = pre ++ (g, event) :: post ∧ ∀ u ∈ post, u.1 = g →
    ∀ item ∈ Item.ofPayload fromStr event.payload, ∀ later ∈ Item.ofPayload fromStr u.2.payload,
      later.entity ≠ item.entity

theorem content_updates (nodeId : String) (us : List (String × Event)) (g : String)
    (h : eventsOf us g ≠ []) :
    (((new nodeId).updates fromStr us).getSnapshot g).map GroupSnapshot.content =
      some (.ofItems g (itemsOf fromStr us g) 0) := by
  rw [getSnapshot_updates, List.getLast?_eq_some_getLast h, Option.map_some, Option.map_some,
    GroupSnapshot.content_ofItems]

theorem itemsOf_concat (us : List (String × Event)) (g : String) (event : Event) :
    itemsOf fromStr (us ++ [(g, event)]) g =
      itemsOf fromStr us g ++ (Item.ofPayload fromStr event.payload).toList := by
  rw [itemsOf, itemsOf, eventsOf_concat, List.filterMap_append]
  congr 1

/-- An event given for a group before leaves all but the time of its snapshot as it is when it
comes again, exactly if its item was settled by then. -/
theorem content_again_iff (fromStr : String → Option Json) (nodeId : String)
    (us : List (String × Event)) (g : String) (event : Event) (h : (g, event) ∈ us) :
    (((new nodeId).updates fromStr (us ++ [(g, event)])).getSnapshot g).map GroupSnapshot.content
        = (((new nodeId).updates fromStr us).getSnapshot g).map GroupSnapshot.content ↔
      ∀ item ∈ Item.ofPayload fromStr event.payload,
        GroupSnapshot.Settled (itemsOf fromStr us g) item := by
  have hmem : event ∈ eventsOf us g := List.mem_map.2 ⟨(g, event), by simpa using h, rfl⟩
  rw [content_updates nodeId us g (List.ne_nil_of_mem hmem), content_updates nodeId _ g (by
    rw [eventsOf_concat]
    exact List.append_ne_nil_of_right_ne_nil _ (List.cons_ne_nil _ _)), Option.some.injEq,
    itemsOf_concat]
  rcases hitem : Item.ofPayload fromStr event.payload with _ | item
  · simp
  · have hitems : item ∈ itemsOf fromStr us g := List.mem_filterMap.2 ⟨event, hmem, hitem⟩
    rw [Option.toList_some, GroupSnapshot.ofItems_again g hitems]
    simp

theorem content_again_iff_stray : ("g2", strayGroup) ∈ [("g2", strayGroup)] ∧
    (((new "me").updates ValueReader.compact.fromStr
        ([("g2", strayGroup)] ++ [("g2", strayGroup)])).getSnapshot "g2").map GroupSnapshot.content
      = (((new "me").updates ValueReader.compact.fromStr
        [("g2", strayGroup)]).getSnapshot "g2").map GroupSnapshot.content := by
  refine ⟨by simp, (content_again_iff _ "me" _ "g2" strayGroup (by simp)).2 ?_⟩
  intro item hitem
  rw [ofPayload_strayGroup] at hitem
  rw [← Option.some.inj hitem, GroupSnapshot.Settled, itemsOf]
  simp [eventsOf, ofPayload_strayGroup, Item.asGroup]

/-- A chat sent to the group `g1`. -/
def hello : Event where
  id := "e1"
  payload := (Json.obj [("type", .str "ChatSent"), ("id", .str "c1"), ("workspace_id", .str "w"),
    ("message", .str "hi"), ("author", .str "rust"), ("parent_id", .null),
    ("timestamp", .int 1)]).text
  source := "group/g1"
  ts := 1

theorem ofPayload_hello : Item.ofPayload ValueReader.compact.fromStr hello.payload =
    some (.chat ⟨"c1", "w", "hi", "rust", none, 1⟩) := by
  rw [Item.ofPayload, hello, ValueReader.compact_text]
  decide

theorem hello_again : ¬ ∀ (fromStr : String → Option Json) (nodeId : String)
    (us : List (String × Event)) (g : String) (event : Event), MostRecent fromStr us g event →
    (((new nodeId).updates fromStr (us ++ [(g, event)])).getSnapshot g).map GroupSnapshot.content
      = (((new nodeId).updates fromStr us).getSnapshot g).map GroupSnapshot.content := by
  intro h
  have hagain := h ValueReader.compact.fromStr "me" [("g1", hello)] "g1" hello
    ⟨[], [], rfl, by simp⟩
  have hitems : itemsOf ValueReader.compact.fromStr [("g1", hello)] "g1"
      = [.chat ⟨"c1", "w", "hi", "rust", none, 1⟩] := by
    rw [itemsOf, show eventsOf [("g1", hello)] "g1" = [hello] by decide, List.filterMap_cons,
      ofPayload_hello]
    rfl
  rw [content_updates _ _ _ (by decide), content_updates _ _ _ (by decide), itemsOf_concat, hitems,
    ofPayload_hello, Option.toList_some, Option.some.injEq,
    GroupSnapshot.ofItems_again _ (List.mem_singleton_self _)] at hagain
  -- one chat is no hundred
  have hlen := congrArg List.length hagain
  rw [List.length_rtake, List.length_replicate] at hlen
  simp [Item.asChat] at hlen

end SnapshotProvider

end XaeroFlux
