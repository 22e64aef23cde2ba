import XaeroFlux.BootstrapNode
import XaeroFlux.Proofs.Once
import XaeroFlux.Proofs.Recovered

/-!
# From the topics to Iggy

The bootstrap's loop takes what its node hands over, in that order, and puts to Iggy at most one
message for each (`put_of_run`). The node hands an event of the events topic over once, over all the
starts on its database, so Iggy gets a second message of one id only where the id is the hash of a
message on a group's topic (`put_once`).
-/

namespace XaeroFlux

variable {env : Env} {fromStr : String → Option NetworkEvent}

/-! ## What the node hands over -/

/-- It is the network actor's or a group forwarder's. -/
theorem handed_perm : ∀ as : List Act,
    (handed env as).Perm (forwarded as ++ groupHanded env as)
  | [] => .nil
  | a :: as => by
    have ih := handed_perm as
    simp only [handed, forwarded, groupHanded, List.filterMap_cons] at ih ⊢
    cases a with
    | sendInbound e =>
      simp only [Act.hands, Act.forwards, Act.groupHands]
      exact ih.cons e
    | recvGroup gid content now =>
      simp only [Act.hands, Act.forwards, Act.groupHands]
      rcases forwardGroup env gid content now with _ | e
      · exact ih
      · exact (ih.cons e).trans List.perm_middle.symm
    | _ =>
      simp only [Act.hands, Act.forwards, Act.groupHands]
      exact ih

/-- Of an id the network actor hands over one event, whatever the node was started over. -/
theorem count_handed_le {t : EventTable} {as : List Act} {s : Node}
    (h : Node.run env (Node.start t) as = some s) (id : String) :
    ((handed env as).map Event.id).count id
      ≤ 1 + ((groupHanded env as).map Event.id).count id := by
  have hsent := (flow_of_run env h).sent_ids_nodup
  rw [List.map_append] at hsent
  have hle := List.nodup_iff_count_le_one.1 hsent.of_append_right id
  have hperm : ((handed env as).map Event.id).count id
      = ((forwarded as ++ groupHanded env as).map Event.id).count id :=
    ((handed_perm as).map Event.id).count_eq id
  rw [List.map_append, List.count_append] at hperm
  omega

/-- Where an event handed over comes from. -/
theorem origin_of_handed {t : EventTable} {as : List Act} {s : Node}
    (h : Node.run env (Node.start t) as = some s) {e : Event} (he : e ∈ handed env as) :
    e ∈ s.events ∧ e.source ≠ env.nodeId
      ∨ ∃ gid content now, .recvGroup gid content now ∈ as
        ∧ e = groupEvent env gid content now := by
  have hf := flow_of_run env h
  rcases List.mem_append.1 ((handed_perm as).mem_iff.1 he) with he | he
  · exact .inl ⟨hf.mem_of_sent (.inr he), hf.remote e (hf.forwarded_sublist.subset he)⟩
  · obtain ⟨a, ha, hhands⟩ := List.mem_filterMap.1 he
    cases a with
    | recvGroup gid content now =>
      exact .inr ⟨gid, content, now, ha, (forwardGroup_eq_some env).1 hhands |>.2⟩
    | _ => simp [Act.groupHands] at hhands

namespace BootstrapNode

variable {s s' : BootstrapNode} {act : Act} {as : List Act} {t : EventTable} {enabled : Bool}
  {a : IggyConnection.ConnectAnswer}

/-! ## A step -/

theorem loop_eq_some {eventRx : List Event} {act : Forwarder.Act} :
    s.loop fromStr eventRx act = some s' ↔
      ∃ f, s.forwarder.step fromStr act = some f ∧ s' = { s with eventRx, forwarder := f } := by
  unfold loop
  rw [Option.map_eq_some_iff]
  exact exists_congr fun f => and_congr_right fun _ => eq_comm

theorem step_node {b : XaeroFlux.Act} (h : s.step env fromStr (.node b) = some s') :
    ∃ node, s.node.step env b = some node
      ∧ s' = { s with node, eventRx := s.eventRx ++ (b.hands env).toList } := by
  simp only [step] at h
  split_ifs at h
  obtain ⟨node, hnode, rfl⟩ := Option.map_eq_some_iff.1 h
  exact ⟨node, hnode, rfl⟩

theorem step_receive {stamp : Stamp} {answer : Except String Unit}
    (h : s.step env fromStr (.receive stamp answer) = some s') :
    ∃ event rest f, s.eventRx = event :: rest
      ∧ s.forwarder.step fromStr (.receive event stamp answer) = some f
      ∧ s' = { s with eventRx := rest, forwarder := f } := by
  simp only [step] at h
  rcases hrx : s.eventRx with _ | ⟨event, rest⟩ <;> rw [hrx] at h
  · simp at h
  · obtain ⟨f, hf, rfl⟩ := loop_eq_some.1 h
    exact ⟨event, rest, f, rfl, hf, rfl⟩

/-- The node's part of a run is a run of the node. -/
theorem node_of_run (h : run env fromStr (start t enabled a) as = some s) :
    Node.run env (Node.start t) (nodeActs as) = some s.node := by
  refine Machine.run_view BootstrapNode.node Act.toNode ?_ ?_ h
  · intro s act s' b hstep hb
    cases act with
    | node act =>
      obtain rfl := Option.some.inj hb
      obtain ⟨node, hnode, rfl⟩ := step_node hstep
      exact hnode
    | restart enabled a =>
      obtain rfl := Option.some.inj hb
      obtain rfl := Option.some.inj hstep
      rfl
    | _ => simp [Act.toNode] at hb
  · intro s act s' hstep hb
    cases act with
    | receive stamp answer =>
      obtain ⟨event, rest, f, -, -, rfl⟩ := step_receive hstep
      rfl
    | retry a =>
      obtain ⟨f, -, rfl⟩ := loop_eq_some.1 hstep
      rfl
    | print =>
      obtain ⟨f, -, rfl⟩ := loop_eq_some.1 hstep
      rfl
    | _ => simp [Act.toNode] at hb

/-! ## What is put to Iggy -/

/-- The message is made of the event. -/
def MadeOf (fromStr : String → Option NetworkEvent) (x : Event × RawEvent) : Prop :=
  ∃ stamp e tracker, Bootstrap.netEvent fromStr x.1 = some e
    ∧ (convertNetworkEvent stamp e (Bootstrap.groupIdFromTopic x.1) tracker).1 = some x.2

/-- A turn of the loop puts to Iggy one message made of its event, or none. -/
theorem sent_receive {f f' : Forwarder} {event : Event} {stamp : Stamp}
    {answer : Except String Unit}
    (h : f.step fromStr (.receive event stamp answer) = some f') :
    f'.sent = f.sent
      ∨ ∃ r, MadeOf fromStr (event, r) ∧ f'.sent = f.sent ++ [(r.toVec, answer)] := by
  obtain ⟨-, ⟨-, -, -, hsent, -⟩ | ⟨r, hsome, -, -, hsent, -⟩⟩ := Forwarder.step_receive h
  · exact .inl hsent
  · unfold IggyConnection.messages at hsent
    split_ifs at hsent
    · obtain ⟨e, he, hr⟩ := Option.bind_eq_some_iff.1 hsome
      exact .inr ⟨r, ⟨stamp, e, f.loop.tracker, he, hr⟩, hsent⟩
    · simp only [List.map_nil, List.append_nil] at hsent
      exact .inl hsent

/-- What was put to Iggy, by its event, and what waits for the loop are in order some of what the
node handed over. -/
structure Puts (env : Env) (fromStr : String → Option NetworkEvent) (as : List Act)
    (s : BootstrapNode) (put : List (Event × RawEvent)) : Prop where
  sent : s.sent.map Prod.fst = put.map fun x => x.2.toVec
  order : (put.map Prod.fst ++ s.eventRx).Sublist (handed env (nodeActs as))
  made : ∀ x ∈ put, MadeOf fromStr x

theorem nodeActs_concat (as : List Act) (act : Act) :
    nodeActs (as ++ [act]) = nodeActs as ++ act.toNode.toList :=
  filterMap_concat _ as act

theorem put_of_run (h : run env fromStr (start t enabled a) as = some s) :
    ∃ put, Puts env fromStr as s put := by
  refine Machine.run_induction (P := fun as s => ∃ put, Puts env fromStr as s put)
    ⟨[], rfl, by simp [start], by simp⟩ ?_ h
  rintro as s act s' - ⟨put, sent, order, made⟩ hstep
  have hmono : (handed env (nodeActs as)).Sublist (handed env (nodeActs (as ++ [act]))) := by
    rw [nodeActs_concat, handed, handed, List.filterMap_append]
    exact List.sublist_append_left _ _
  cases act with
  | node b =>
    obtain ⟨node, -, rfl⟩ := step_node hstep
    refine ⟨put, sent, ?_, made⟩
    rw [nodeActs_concat, ← List.append_assoc]
    show List.Sublist _ (handed env (nodeActs as ++ [b]))
    rw [handed_concat]
    exact order.append (List.Sublist.refl _)
  | receive stamp answer =>
    obtain ⟨event, rest, f, hrx, hf, rfl⟩ := step_receive hstep
    rw [hrx] at order
    rcases sent_receive hf with hsent | ⟨r, hmade, hsent⟩
    · refine ⟨put, ?_, ?_, made⟩
      · simpa [BootstrapNode.sent, hsent] using sent
      · exact ((List.sublist_cons_self event rest).append_left _).trans (order.trans hmono)
    · refine ⟨put ++ [(event, r)], ?_, ?_, ?_⟩
      · simpa [BootstrapNode.sent, hsent, ← List.append_assoc] using sent
      · simpa using order.trans hmono
      · intro x hx
        rcases List.mem_append.1 hx with hx | hx
        · exact made x hx
        · exact List.mem_singleton.1 hx ▸ hmade
  | retry a' =>
    obtain ⟨f, hf, rfl⟩ := loop_eq_some.1 hstep
    have hsent : f.sent = s.forwarder.sent := by rw [Forwarder.step_retry hf]
    exact ⟨put, by simpa [BootstrapNode.sent, hsent] using sent, order.trans hmono, made⟩
  | print =>
    obtain ⟨f, hf, rfl⟩ := loop_eq_some.1 hstep
    rw [Forwarder.step_print hf]
    exact ⟨put, sent, order.trans hmono, made⟩
  | restart enabled a' =>
    obtain rfl := Option.some.inj hstep
    refine ⟨put, ?_, ?_, made⟩
    · simpa [BootstrapNode.sent, Forwarder.start] using sent
    · rw [List.append_nil]
      exact (List.sublist_append_left _ _).trans (order.trans hmono)

/-- Over all the processes on one database, whatever the app, gossip, the database and Iggy do: what
is put to Iggy are messages made, one of each, of events the node handed over and in that order;
the event is a row of another node, or a message on a group's topic; the message tells of it all
that is told; and of one id Iggy gets a single message, and one more for each time a message that
has the id for its hash came on a group's topic. -/
theorem put_once (h : run env fromStr (start t enabled a) as = some s) :
    ∃ put : List (Event × RawEvent), s.sent.map Prod.fst = put.map (fun x => x.2.toVec)
      ∧ (put.map Prod.fst).Sublist (handed env (nodeActs as))
      ∧ (∀ x ∈ put, (x.1 ∈ s.node.events ∧ x.1.source ≠ env.nodeId
          ∨ ∃ gid content now, .node (.recvGroup gid content now) ∈ as
            ∧ x.1 = groupEvent env gid content now)
        ∧ ∃ e, Bootstrap.netEvent fromStr x.1 = some e
          ∧ (Forwarder.readMessage x.2.toVec).bind RawEvent.netEvent
            = some (e.told (Bootstrap.groupIdFromTopic x.1)))
      ∧ ∀ id, (put.map fun x => x.1.id).count id
        ≤ 1 + ((groupHanded env (nodeActs as)).map Event.id).count id := by
  have hnode := node_of_run h
  obtain ⟨put, sent, order, made⟩ := put_of_run h
  have hsub : (put.map Prod.fst).Sublist (handed env (nodeActs as)) :=
    (List.sublist_append_left _ _).trans order
  refine ⟨put, sent, hsub, fun x hx => ⟨?_, ?_⟩, fun id => ?_⟩
  · rcases origin_of_handed hnode (hsub.subset (List.mem_map_of_mem hx)) with hrow | hgroup
    · exact .inl hrow
    · obtain ⟨gid, content, now, hmem, heq⟩ := hgroup
      obtain ⟨act, hact, hto⟩ := List.mem_filterMap.1 hmem
      cases act with
      | node b =>
        obtain rfl := Option.some.inj hto
        exact .inr ⟨gid, content, now, hact, heq⟩
      | _ => simp [Act.toNode] at hto
  · obtain ⟨stamp, e, tracker, he, hr⟩ := made x hx
    refine ⟨e, he, ?_⟩
    rw [Forwarder.readMessage_toVec, Option.bind_some]
    exact netEvent_convert hr
  · have hcount := (hsub.map Event.id).count_le id
    rw [List.map_map] at hcount
    exact hcount.trans (count_handed_le hnode id)

/-- Gossip brings a peer's message again after a restart. -/
def chatAgain : List Act :=
  let e := Bootstrap.chat.1
  [.node (.recvGossip e.toVec), .node (.insertNetwork e (some 1)), .node (.sendInbound e),
    .receive Bootstrap.chat.2.toStamp (.ok ()), .restart true Forwarder.reached,
    .node (.recvGossip e.toVec), .node (.insertNetwork e (some 0))]

theorem put_once_chatAgain : ∃ s,
    run Env.hi Bootstrap.readPayload (start .empty true Forwarder.reached) chatAgain = some s
      ∧ s.sent.length = 1
      ∧ ∃ put : List (Event × RawEvent), s.sent.map Prod.fst = put.map (fun x => x.2.toVec)
        ∧ (put.map Prod.fst).Sublist [Bootstrap.chat.1] := by
  obtain ⟨s, hs, hlen⟩ : ∃ s ∈ run Env.hi Bootstrap.readPayload
      (start .empty true Forwarder.reached) chatAgain, s.sent.length = 1 := by decide +kernel
  obtain ⟨put, hsent, hsub, -⟩ := put_once hs
  exact ⟨s, hs, hlen, put, hsent, hsub⟩

end BootstrapNode

end XaeroFlux
