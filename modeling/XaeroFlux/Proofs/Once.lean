import XaeroFlux.Proofs.Node

/-!
# Once per id

Whatever the app, the gossip peers and the database do, a node queues and forwards an event only
for a row it inserted, and the rows of one table have different ids (`once_per_id`). A group's
forwarder asks no table: it takes the hash of the content for the id, so two deliveries of one
content, or the hash arriving as the id of an event, meet in `event_rx` (`handed_nodup_iff`).
-/

namespace XaeroFlux

variable (env : Env)

section Table

variable {env} {t : EventTable} {as : List Act} {s : Node}

/-- The rows inserted have different ids, none of them in the table at the start. -/
theorem Flow.ids_nodup (hf : Flow env t as s) : ((t.rows ++ inserted as).map Event.id).Nodup :=
  hf.rows ▸ s.events.nodup

theorem Flow.inserted_ids_nodup (hf : Flow env t as s) : ((inserted as).map Event.id).Nodup := by
  have := hf.ids_nodup
  rw [List.map_append] at this
  exact this.of_append_right

theorem Flow.mem_of_inserted (hf : Flow env t as s) {e : Event} (he : e ∈ inserted as) :
    e ∈ s.events := by
  rw [Keyed.mem_def, hf.rows]
  exact List.mem_append_right _ he

theorem Flow.queued_sublist (hf : Flow env t as s) : (queued as).Sublist (accepted as) :=
  (List.sublist_append_left _ _).trans hf.queue

theorem Flow.forwarded_sublist (hf : Flow env t as s) : (forwarded as).Sublist (synced as) :=
  (List.sublist_append_left _ _).trans hf.inn

theorem Flow.broadcasted_sublist (hf : Flow env t as s) :
    (broadcasted as).Sublist (accepted as) :=
  (List.sublist_append_left _ _).trans hf.out

theorem mem_inserted {e : Event} : e ∈ inserted as ↔ e ∈ accepted as ∨ e ∈ synced as := by
  rw [← (inserted_perm as).mem_iff, List.mem_append]

theorem Flow.sent_sublist (hf : Flow env t as s) :
    (queued as ++ forwarded as).Sublist (accepted as ++ synced as) :=
  hf.queued_sublist.append hf.forwarded_sublist

theorem Flow.sent_ids_nodup (hf : Flow env t as s) :
    ((queued as ++ forwarded as).map Event.id).Nodup :=
  (hf.sent_sublist.map _).nodup
    (((inserted_perm as).map _).nodup_iff.2 hf.inserted_ids_nodup)

theorem Flow.mem_of_sent (hf : Flow env t as s) {e : Event}
    (he : e ∈ queued as ∨ e ∈ forwarded as) : e ∈ s.events :=
  hf.mem_of_inserted ((inserted_perm as).subset (hf.sent_sublist.subset (List.mem_append.2 he)))

theorem rows_prefix {pre suf : List Act} {m : Node}
    (hm : Node.run env (Node.start t) pre = some m)
    (h : Node.run env (Node.start t) (pre ++ suf) = some s) : m.events.rows <+: s.events.rows := by
  rw [(flow_of_run env hm).rows, (flow_of_run env h).rows]
  exact ⟨inserted suf, by simp [inserted]⟩

end Table

/-! ## The two actors -/

/-- At most once per id, for every run of a node over any table: the rows inserted have different
ids and stay as they are; the outbound queue and `event_rx` together get an event of an id once,
and it is the stored row; an insert that failed or was ignored leaves nothing to send, and the
node's own events coming back from gossip change nothing. -/
theorem once_per_id {t : EventTable} {as : List Act} {s : Node}
    (h : Node.run env (Node.start t) as = some s) :
    (∀ id, ((inserted as).map Event.id).count id ≤ 1)
      ∧ (∀ pre suf m, as = pre ++ suf → Node.run env (Node.start t) pre = some m →
        m.events.rows <+: s.events.rows)
      ∧ (∀ id, ((queued as).map Event.id).count id + ((forwarded as).map Event.id).count id ≤ 1)
      ∧ (∀ e, e ∈ queued as ∨ e ∈ forwarded as → s.events.find e.id = some e)
      ∧ (queued as).Sublist (accepted as) ∧ (forwarded as).Sublist (synced as)
      ∧ (∀ s' e rows, rows = none ∨ rows = some 0 →
        Node.step env s (.insertApp e rows) = some s' → s' = { s with storage := .waiting })
      ∧ (∀ s' e rows, rows = none ∨ rows = some 0 →
        Node.step env s (.insertNetwork e rows) = some s' → s' = { s with network := .waiting })
      ∧ ∀ s' content e, env.reader.fromSlice content = some e → e.source = env.nodeId →
        Node.step env s (.recvGossip content) = some s' → s' = s := by
  have hf := flow_of_run env h
  refine ⟨?_, ?_, ?_, ?_, hf.queued_sublist, hf.forwarded_sublist, ?_, ?_, ?_⟩
  · exact List.nodup_iff_count_le_one.1 hf.inserted_ids_nodup
  · rintro pre suf m rfl hm
    exact rows_prefix hm h
  · intro id
    rw [← List.count_append, ← List.map_append]
    exact List.nodup_iff_count_le_one.1 hf.sent_ids_nodup id
  · intro e he
    exact Keyed.find_eq_some.2 ⟨hf.mem_of_sent he, rfl⟩
  · rintro s' e rows hr hs
    obtain ⟨-, ⟨-, hs'⟩ | ⟨rfl, -⟩⟩ := Node.step_insertApp hs
    · exact hs'
    · simp at hr
  · rintro s' e rows hr hs
    obtain ⟨-, ⟨-, hs'⟩ | ⟨rfl, -⟩⟩ := Node.step_insertNetwork hs
    · exact hs'
    · simp at hr
  · intro s' content e he hsrc hs
    obtain ⟨-, ⟨e', he', hne, -⟩ | ⟨-, hs'⟩⟩ := Node.step_recvGossip hs
    · rw [he] at he'
      obtain rfl := Option.some.inj he'
      exact absurd hsrc hne
    · exact hs'

/-- Reads compact JSON, logs at `info`, and hashes the two bytes of `hi` as Blake3 does. -/
def Env.hi : Env where
  nodeId := "2a9c1e5f6fd6a8d1b0a7a0cf9a3b7b56"
  reader := .compact
  blake3 _ := Digest.hi
  info := true

/-- A peer reuses the id of a local event, and then sends one of its own. -/
def idReusedByPeer : List Act :=
  let mine : Event := ⟨"e1", "draw", Env.hi.nodeId, 1⟩
  let reused : Event := ⟨"e1", "erase", "peer", 2⟩
  let theirs : Event := ⟨"e2", "erase", "peer", 3⟩
  [.submit mine, .recvApp, .insertApp mine (some 1), .recvGossip reused.toVec,
    .insertNetwork reused (some 0), .sendNetwork mine, .recvGossip theirs.toVec,
    .insertNetwork theirs (some 1), .sendInbound theirs, .restart, .recvGossip theirs.toVec,
    .insertNetwork theirs none]

theorem once_per_id_reused : ∃ s, Node.run Env.hi (Node.start .empty) idReusedByPeer = some s
    ∧ ∀ id, ((queued idReusedByPeer).map Event.id).count id
      + ((forwarded idReusedByPeer).map Event.id).count id ≤ 1 := by
  obtain ⟨s, hs⟩ : ∃ s, Node.run Env.hi (Node.start .empty) idReusedByPeer = some s :=
    Option.isSome_iff_exists.1 (by decide +kernel)
  exact ⟨s, hs, (once_per_id Env.hi hs).2.2.1⟩

/-! ## All producers of `event_rx` -/

def contentId (content : ByteArray) : String := (env.blake3 content).toHex

/-- A step is a delivery of `content` that the forwarder of its group hands over. -/
def Act.Delivers (content : ByteArray) (a : Act) : Prop :=
  ∃ gid now, a = .recvGroup gid content now ∧ (env.info → (short gid).isSome)

/-- What a step delivers to `event_rx` has not come before: a group's content is not one that came
on a group topic, nor the event an id of which it has the hash, and the other way round. -/
def Act.Fresh (as : List Act) (a : Act) : Prop :=
  (∀ content, a.Delivers env content →
      (∀ b ∈ as, ∀ content', b.Delivers env content' → contentId env content' ≠ contentId env content)
        ∧ ∀ e, .sendInbound e ∈ as → e.id ≠ contentId env content)
    ∧ ∀ e, a = .sendInbound e → ∀ b ∈ as, ∀ content, b.Delivers env content →
      contentId env content ≠ e.id

theorem hands_eq_some {a : Act} {e : Event} :
    a.hands env = some e ↔ a = .sendInbound e ∨
      ∃ gid content now, a = .recvGroup gid content now ∧ (env.info → (short gid).isSome)
        ∧ e = groupEvent env gid content now := by
  cases a with
  | recvGroup gid content now => simp [Act.hands, forwardGroup_eq_some]
  | sendInbound event => simp [Act.hands, eq_comm (a := event)]
  | _ => simp [Act.hands]

theorem mem_handed_ids {as : List Act} {id : String} :
    id ∈ (handed env as).map Event.id ↔ (∃ e, .sendInbound e ∈ as ∧ e.id = id) ∨
      ∃ b ∈ as, ∃ content, b.Delivers env content ∧ contentId env content = id := by
  simp only [handed, List.mem_map, List.mem_filterMap, hands_eq_some]
  constructor
  · rintro ⟨e, ⟨b, hb, rfl | ⟨gid, content, now, rfl, hc, rfl⟩⟩, rfl⟩
    · exact .inl ⟨e, hb, rfl⟩
    · exact .inr ⟨_, hb, content, ⟨gid, now, rfl, hc⟩, rfl⟩
  · rintro (⟨e, he, rfl⟩ | ⟨b, hb, content, ⟨gid, now, rfl, hc⟩, rfl⟩)
    · exact ⟨e, ⟨_, he, .inl rfl⟩, rfl⟩
    · exact ⟨_, ⟨_, hb, .inr ⟨gid, content, now, rfl, hc, rfl⟩⟩, rfl⟩

theorem mem_forwarded {as : List Act} {e : Event} : e ∈ forwarded as ↔ .sendInbound e ∈ as := by
  simp only [forwarded, List.mem_filterMap]
  constructor
  · rintro ⟨a, ha, h⟩
    cases a <;> simp_all [Act.forwards]
  · exact fun h => ⟨_, h, rfl⟩

theorem handed_ids_concat {as : List Act} {a : Act}
    (hn : ((handed env as).map Event.id).Nodup) :
    ((handed env (as ++ [a])).map Event.id).Nodup ↔
      ∀ e, a.hands env = some e → e.id ∉ (handed env as).map Event.id := by
  rw [handed_concat, List.map_append, List.nodup_append]
  rcases a.hands env with _ | e
  · simpa using hn
  · simp only [hn, Option.toList_some, List.map_cons, List.map_nil, List.nodup_cons,
      List.not_mem_nil, not_false_eq_true, List.nodup_nil, List.mem_singleton, true_and,
      Option.some.injEq, and_self]
    constructor
    · rintro h _ rfl hm
      exact h _ hm _ rfl rfl
    · rintro h id hm _ rfl rfl
      exact h e rfl hm

/-- What a step hands over has a new id exactly if the step is fresh: no step forwards an event a
second time. -/
theorem new_id_iff_fresh {t : EventTable} {as : List Act} {s s' : Node} {a : Act}
    (h : Node.run env (Node.start t) as = some s) (hs : Node.step env s a = some s') :
    (∀ e, a.hands env = some e → e.id ∉ (handed env as).map Event.id) ↔ a.Fresh env as := by
  have hf := flow_of_run env (Machine.run_concat.2 ⟨s, h, hs⟩)
  have hold : ∀ e, a = .sendInbound e → ∀ e', .sendInbound e' ∈ as → e'.id ≠ e.id := by
    rintro e rfl e' he' hid
    have hn := (List.nodup_append.1 (List.map_append ▸ hf.sent_ids_nodup)).2.1
    rw [forwarded_concat, List.map_append, List.nodup_append] at hn
    exact hn.2.2 _ (List.mem_map_of_mem ((mem_forwarded).2 he')) e.id (by simp [Act.forwards]) hid
  simp only [hands_eq_some, mem_handed_ids, Act.Fresh, not_or, not_exists, not_and]
  constructor
  · intro hnew
    refine ⟨fun content ⟨gid, now, ha, hc⟩ => ?_, fun e ha => ?_⟩
    · obtain ⟨h1, h2⟩ := hnew _ (.inr ⟨gid, content, now, ha, hc, rfl⟩)
      exact ⟨fun b hb content' hd => h2 b hb content' hd, h1⟩
    · exact fun b hb content hd => (hnew e (.inl ha)).2 b hb content hd
  · rintro ⟨hg, hi⟩ e (ha | ⟨gid, content, now, ha, hc, rfl⟩)
    · exact ⟨hold e ha, hi e ha⟩
    · obtain ⟨h1, h2⟩ := hg content ⟨gid, now, ha, hc⟩
      exact ⟨h2, h1⟩

/-- The ids on `event_rx` are different throughout a run exactly if every step of it is fresh. -/
theorem handed_nodup_iff {t : EventTable} {as : List Act} {s : Node}
    (h : Node.run env (Node.start t) as = some s) :
    Machine.Throughout (Node.step env) (Node.start t) as
        (fun as _ => ((handed env as).map Event.id).Nodup) ↔
      Machine.EachStep (Node.step env) (Node.start t) as fun as _ a => a.Fresh env as :=
  Machine.throughout_iff_eachStep (by simp [handed])
    (fun _ _ _ _ h hn hs => (handed_ids_concat env hn).trans (new_id_iff_fresh env h hs)) h

def sameContent : List Act :=
  [.subscribeGroup "rust", .subscribeGroup "lean", .recvGroup "rust" "hi".toUTF8 1,
    .recvGroup "lean" "hi".toUTF8 2]

theorem sameContent_not_nodup :
    ¬ ∀ as s, Node.run Env.hi (Node.start .empty) as = some s →
      ((handed Env.hi as).map Event.id).Nodup := by
  intro h
  have hn := h sameContent _ rfl
  revert hn
  decide

theorem handed_nodup_iff_sameContent :
    Machine.Throughout (Node.step Env.hi) (Node.start .empty) sameContent
        (fun as _ => ((handed Env.hi as).map Event.id).Nodup) ↔
      Machine.EachStep (Node.step Env.hi) (Node.start .empty) sameContent
        fun as _ a => a.Fresh Env.hi as :=
  @handed_nodup_iff Env.hi .empty sameContent _ rfl

end XaeroFlux
