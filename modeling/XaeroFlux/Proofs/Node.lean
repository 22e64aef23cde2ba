import XaeroFlux.Node

/-!
# What the two actors do to the table and the queues

The table only grows, by the rows the run's inserts report (`Flow.rows`). Each row has one
inserting actor, and the events that actor sends on are, in order, among the rows it inserted:
`Flow.out` follows a row of the storage actor through its hand, the outbound queue, the network
actor's hand and gossip, `Flow.inn` one of the network actor through its hand to `event_rx`.
-/

namespace XaeroFlux

variable (env : Env)

namespace Node

/-! ## One action -/

section Step

variable {env} {s s' : Node} {event : Event} {rows : Option ℕ}

theorem step_recvApp (h : step env s .recvApp = some s') :
    ∃ event rest, s.storage = .waiting ∧ s.appRx = event :: rest
      ∧ s' = { s with appRx := rest, storage := .storing event } := by
  simp only [step] at h
  split at h
  · rename_i event rest hs hq
    exact ⟨event, rest, hs, hq, (Option.some.inj h).symm⟩
  · simp at h

/-- After an insert that failed or changed no row the actor waits again, as in `r`; after one that
changed a row it is where `f` says. -/
theorem insert_answers {t : EventTable} {r : Node} {f : EventTable → ℕ → Node}
    (h : (match rows with
      | none => some r
      | some n =>
        match t.execInsert event with
        | some (events, rows) => if rows = n then some (f events rows) else none
        | none => none) = some s') (hr : f t 0 = r) :
    (rows = none ∨ rows = some 0 ∧ t.Has event.id) ∧ s' = r ∨
      rows = some 1 ∧ ¬ t.Has event.id ∧ ∃ t', t'.rows = t.rows ++ [event] ∧ s' = f t' 1 := by
  split at h
  · exact .inl ⟨.inl rfl, (Option.some.inj h).symm⟩
  · split at h
    · rename_i n t' m ht
      simp only [Option.ite_none_right_eq_some, Option.some.injEq] at h
      obtain ⟨rfl, rfl⟩ := h
      obtain ⟨-, ⟨hk, rfl, rfl⟩ | ⟨hk, hrows, rfl⟩⟩ := EventTable.execInsert_eq_some.1 ht
      · exact .inl ⟨.inr ⟨rfl, hk⟩, hr⟩
      · exact .inr ⟨rfl, hk, t', hrows, rfl⟩
    · simp at h

theorem step_insertApp (h : step env s (.insertApp event rows) = some s') :
    s.storage = .storing event ∧
      ((rows = none ∨ rows = some 0 ∧ s.events.Has event.id)
          ∧ s' = { s with storage := .waiting }
        ∨ rows = some 1 ∧ ¬ s.events.Has event.id ∧ s'.events.rows = s.events.rows ++ [event]
          ∧ s' = { s with events := s'.events, storage := .sending event }) := by
  simp only [step] at h
  split_ifs at h with hs
  refine ⟨hs, ?_⟩
  rcases insert_answers h rfl with hwait | ⟨rfl, hk, t, hrows, rfl⟩
  · exact .inl hwait
  · exact .inr ⟨rfl, hk, hrows, rfl⟩

theorem step_sendNetwork (h : step env s (.sendNetwork event) = some s') :
    s.storage = .sending event
      ∧ s' = { s with storage := .waiting, outboundRx := s.outboundRx ++ [event] } := by
  simp only [step, Option.ite_none_right_eq_some, Option.some.injEq] at h
  exact ⟨h.1, h.2.symm⟩

/-- A gossip message is taken up exactly if it is an event of another source. -/
theorem step_recvGossip {content : ByteArray}
    (h : step env s (.recvGossip content) = some s') :
    s.network = .waiting ∧
      ((∃ event, env.reader.fromSlice content = some event ∧ event.source ≠ env.nodeId
          ∧ s' = { s with network := .storing event })
        ∨ (∀ event, env.reader.fromSlice content = some event → event.source = env.nodeId)
          ∧ s' = s) := by
  simp only [step] at h
  split_ifs at h with hs
  refine ⟨hs, ?_⟩
  split at h
  · rename_i event he
    split_ifs at h with hne
    · exact .inl ⟨event, he, hne, (Option.some.inj h).symm⟩
    · refine .inr ⟨fun event' he' => ?_, (Option.some.inj h).symm⟩
      rw [he] at he'
      obtain rfl := Option.some.inj he'
      exact not_not.1 hne
  · rename_i he
    exact .inr ⟨fun event' he' => by rw [he] at he'; simp at he', (Option.some.inj h).symm⟩

theorem step_otherGossip (h : step env s .otherGossip = some s') : s' = s := by
  simp only [step, Option.ite_none_right_eq_some, Option.some.injEq] at h
  exact h.2.symm

theorem step_insertNetwork (h : step env s (.insertNetwork event rows) = some s') :
    s.network = .storing event ∧
      ((rows = none ∨ rows = some 0 ∧ s.events.Has event.id)
          ∧ s' = { s with network := .waiting }
        ∨ rows = some 1 ∧ ¬ s.events.Has event.id ∧ s'.events.rows = s.events.rows ++ [event]
          ∧ s' = { s with events := s'.events, network := .forwarding event }) := by
  simp only [step] at h
  split_ifs at h with hs
  refine ⟨hs, ?_⟩
  rcases insert_answers h rfl with hwait | ⟨rfl, hk, t, hrows, rfl⟩
  · exact .inl hwait
  · exact .inr ⟨rfl, hk, hrows, rfl⟩

theorem step_sendInbound (h : step env s (.sendInbound event) = some s') :
    s.network = .forwarding event ∧ s' = { s with network := .waiting } := by
  simp only [step, Option.ite_none_right_eq_some, Option.some.injEq] at h
  exact ⟨h.1, h.2.symm⟩

theorem step_recvOutbound (h : step env s .recvOutbound = some s') :
    ∃ event rest, s.network = .waiting ∧ s.outboundRx = event :: rest
      ∧ s' = { s with outboundRx := rest, network := .broadcasting event } := by
  simp only [step] at h
  split at h
  · rename_i event rest hs hq
    exact ⟨event, rest, hs, hq, (Option.some.inj h).symm⟩
  · simp at h

theorem step_broadcast {ok : Bool} (h : step env s (.broadcast event ok) = some s') :
    s.network = .broadcasting event ∧ s' = { s with network := .waiting } := by
  simp only [step, Option.ite_none_right_eq_some, Option.some.injEq] at h
  exact ⟨h.1, h.2.symm⟩

theorem step_recvGroup {gid : String} {content : ByteArray} {now : UInt64}
    (h : step env s (.recvGroup gid content now) = some s') :
    gid ∈ s.groups ∧ ∃ groups, s' = { s with groups } := by
  simp only [step] at h
  split_ifs at h with hg
  refine ⟨hg, ?_⟩
  split at h
  · exact ⟨s.groups, (Option.some.inj h).symm⟩
  · exact ⟨_, (Option.some.inj h).symm⟩

theorem step_submit (h : step env s (.submit event) = some s') :
    s' = { s with appRx := s.appRx ++ [event] } := (Option.some.inj h).symm

theorem step_subscribeGroup {gid : String} (h : step env s (.subscribeGroup gid) = some s') :
    s' = { s with groups := gid :: s.groups } := (Option.some.inj h).symm

theorem step_restart (h : step env s .restart = some s') : s' = start s.events :=
  (Option.some.inj h).symm

/-! What all actions have in common. -/

variable {a : Act}

attribute [local simp] Act.inserts in
theorem step_rows (h : step env s a = some s') :
    s'.events.rows = s.events.rows ++ a.inserts.toList := by
  cases a with
  | insertApp event rows =>
    obtain ⟨-, ⟨hr, rfl⟩ | ⟨rfl, -, hr, -⟩⟩ := step_insertApp h
    · rcases hr with rfl | ⟨rfl, -⟩ <;> simp
    · simpa using hr
  | insertNetwork event rows =>
    obtain ⟨-, ⟨hr, rfl⟩ | ⟨rfl, -, hr, -⟩⟩ := step_insertNetwork h
    · rcases hr with rfl | ⟨rfl, -⟩ <;> simp
    · simpa using hr
  | submit event =>
    obtain rfl := step_submit h
    simp
  | recvApp =>
    obtain ⟨event, rest, -, -, rfl⟩ := step_recvApp h
    simp
  | sendNetwork event =>
    obtain ⟨-, rfl⟩ := step_sendNetwork h
    simp
  | recvGossip content =>
    obtain ⟨-, ⟨event, -, -, rfl⟩ | ⟨-, rfl⟩⟩ := step_recvGossip h <;> simp
  | otherGossip =>
    obtain rfl := step_otherGossip h
    simp
  | sendInbound event =>
    obtain ⟨-, rfl⟩ := step_sendInbound h
    simp
  | recvOutbound =>
    obtain ⟨event, rest, -, -, rfl⟩ := step_recvOutbound h
    simp
  | broadcast event ok =>
    obtain ⟨-, rfl⟩ := step_broadcast h
    simp
  | subscribeGroup gid =>
    obtain rfl := step_subscribeGroup h
    simp
  | recvGroup gid content now =>
    obtain ⟨-, groups, rfl⟩ := step_recvGroup h
    simp
  | restart =>
    obtain rfl := step_restart h
    simp [start]

theorem has_mono (h : step env s a = some s') {k : String} (hk : s.events.Has k) :
    s'.events.Has k := by
  rw [Keyed.Has, step_rows h, List.map_append]
  exact List.mem_append_left _ hk

/-- Whatever else happens, an event the network actor holds it holds on to. -/
theorem step_network (hs : s.network ≠ .waiting) (h : step env s a = some s') :
    s'.network = s.network ∨ (∃ e rows, a = .insertNetwork e rows) ∨ (∃ e, a = .sendInbound e)
      ∨ (∃ e ok, a = .broadcast e ok) ∨ a = .restart := by
  cases a with
  | recvApp =>
    obtain ⟨e, rest, -, -, rfl⟩ := step_recvApp h
    exact .inl rfl
  | insertApp e rows =>
    obtain ⟨-, ⟨-, rfl⟩ | ⟨-, -, -, hs'⟩⟩ := step_insertApp h
    · exact .inl rfl
    · exact .inl (by rw [hs'])
  | recvGossip content => exact absurd (step_recvGossip h).1 hs
  | recvOutbound =>
    obtain ⟨e, rest, hw, -⟩ := step_recvOutbound h
    exact absurd hw hs
  | recvGroup gid content now =>
    obtain ⟨-, groups, rfl⟩ := step_recvGroup h
    exact .inl rfl
  | submit e => obtain rfl := step_submit h; exact .inl rfl
  | sendNetwork e => obtain ⟨-, rfl⟩ := step_sendNetwork h; exact .inl rfl
  | otherGossip => obtain rfl := step_otherGossip h; exact .inl rfl
  | subscribeGroup gid => obtain rfl := step_subscribeGroup h; exact .inl rfl
  | insertNetwork e rows => exact .inr (.inl ⟨e, rows, rfl⟩)
  | sendInbound e => exact .inr (.inr (.inl ⟨e, rfl⟩))
  | broadcast e ok => exact .inr (.inr (.inr (.inl ⟨e, ok, rfl⟩)))
  | restart => exact .inr (.inr (.inr (.inr rfl)))

end Step

end Node

/-! ## What a run did -/

theorem filterMap_concat {α β : Type*} (f : α → Option β) (as : List α) (a : α) :
    (as ++ [a]).filterMap f = as.filterMap f ++ (f a).toList := by
  rw [List.filterMap_append]
  rcases h : f a <;> simp [h]

section History

variable (as : List Act) (a : Act)

@[simp] theorem accepted_concat : accepted (as ++ [a]) = accepted as ++ a.accepts.toList :=
  filterMap_concat _ as a

@[simp] theorem synced_concat : synced (as ++ [a]) = synced as ++ a.syncs.toList :=
  filterMap_concat _ as a

@[simp] theorem inserted_concat : inserted (as ++ [a]) = inserted as ++ a.inserts.toList :=
  filterMap_concat _ as a

@[simp] theorem queued_concat : queued (as ++ [a]) = queued as ++ a.queues.toList :=
  filterMap_concat _ as a

@[simp] theorem broadcasted_concat :
    broadcasted (as ++ [a]) = broadcasted as ++ a.broadcasts.toList :=
  filterMap_concat _ as a

@[simp] theorem forwarded_concat : forwarded (as ++ [a]) = forwarded as ++ a.forwards.toList :=
  filterMap_concat _ as a

@[simp] theorem handed_concat : handed env (as ++ [a]) = handed env as ++ (a.hands env).toList :=
  filterMap_concat _ as a

@[simp] theorem submitted_concat : submitted (as ++ [a]) = submitted as ++ a.submits.toList :=
  filterMap_concat _ as a

/-- Each row of a run was inserted by exactly one of the actors. -/
theorem inserted_perm : ∀ as : List Act, (accepted as ++ synced as).Perm (inserted as)
  | [] => by simp [accepted, synced, inserted]
  | a :: as => by
    have ih := inserted_perm as
    simp only [accepted, synced, inserted, List.filterMap_cons] at ih ⊢
    rcases a with _ | _ | ⟨e, _ | _ | n⟩ | _ | _ | _ | ⟨e, _ | _ | n⟩ | _ | _ | _ | _ | _ | _ <;>
      simp only [Act.accepts, Act.syncs, Act.inserts] <;> first
      | exact ih
      | exact ih.cons e
      | exact List.perm_middle.trans (ih.cons e)

end History

/-- What a run from a process start over the table `t` has done with each event. -/
structure Flow (t : EventTable) (as : List Act) (s : Node) : Prop where
  rows : s.events.rows = t.rows ++ inserted as
  queue : (queued as ++ s.storage.hand).Sublist (accepted as)
  out : (broadcasted as ++ (s.network.outHand ++ (s.outboundRx ++ s.storage.hand))).Sublist
    (accepted as)
  inn : (forwarded as ++ s.network.inHand).Sublist (synced as)
  remote : ∀ e ∈ synced as, e.source ≠ env.nodeId
  storing : ∀ e, s.network = .storing e → e.source ≠ env.nodeId

section Hands

variable (e : Event)

@[simp] theorem StorageActor.hand_waiting : StorageActor.waiting.hand = [] := rfl
@[simp] theorem StorageActor.hand_storing : (StorageActor.storing e).hand = [] := rfl
@[simp] theorem StorageActor.hand_sending : (StorageActor.sending e).hand = [e] := rfl

@[simp] theorem NetworkActor.inHand_waiting : NetworkActor.waiting.inHand = [] := rfl
@[simp] theorem NetworkActor.inHand_storing : (NetworkActor.storing e).inHand = [] := rfl
@[simp] theorem NetworkActor.inHand_forwarding : (NetworkActor.forwarding e).inHand = [e] := rfl
@[simp] theorem NetworkActor.inHand_broadcasting : (NetworkActor.broadcasting e).inHand = [] := rfl

@[simp] theorem NetworkActor.outHand_waiting : NetworkActor.waiting.outHand = [] := rfl
@[simp] theorem NetworkActor.outHand_storing : (NetworkActor.storing e).outHand = [] := rfl
@[simp] theorem NetworkActor.outHand_forwarding : (NetworkActor.forwarding e).outHand = [] := rfl
@[simp] theorem NetworkActor.outHand_broadcasting :
    (NetworkActor.broadcasting e).outHand = [e] := rfl

end Hands

theorem Flow.start (t : EventTable) : Flow env t [] (Node.start t) := by
  constructor <;> simp [Node.start, inserted, queued, accepted, broadcasted, forwarded, synced]

attribute [local simp] Act.accepts Act.syncs Act.inserts Act.queues Act.broadcasts Act.forwards in
theorem Flow.step {t : EventTable} {as : List Act} {s s' : Node} {a : Act}
    (hf : Flow env t as s) (h : Node.step env s a = some s') : Flow env t (as ++ [a]) s' := by
  obtain ⟨rows, queue, out, inn, remote, storing⟩ := hf
  cases a with
  | submit e =>
    obtain rfl := Node.step_submit h
    constructor <;> simpa
  | recvApp =>
    obtain ⟨e, rest, hs, -, rfl⟩ := Node.step_recvApp h
    simp only [hs, StorageActor.hand_waiting, List.append_nil] at queue out
    constructor <;> simpa
  | insertApp e r =>
    obtain ⟨hs, ⟨hr, rfl⟩ | ⟨rfl, hk, hr, hs'⟩⟩ := Node.step_insertApp h
    · simp only [hs, StorageActor.hand_storing, List.append_nil] at queue out
      rcases hr with rfl | ⟨rfl, -⟩ <;> constructor <;> simpa
    · simp only [hs, StorageActor.hand_storing, List.append_nil] at queue out
      rw [hs']
      refine ⟨by simp [hr, rows], by simpa, ?_, by simpa, by simpa, by simpa⟩
      simpa using out.append (List.Sublist.refl [e])
  | sendNetwork e =>
    obtain ⟨hs, rfl⟩ := Node.step_sendNetwork h
    simp only [hs, StorageActor.hand_sending] at queue out
    constructor <;> simpa
  | recvGossip content =>
    obtain ⟨hs, ⟨e, -, hne, rfl⟩ | ⟨-, rfl⟩⟩ := Node.step_recvGossip h
    · rw [hs] at out inn
      refine ⟨by simpa, by simpa, by simpa using out, by simpa using inn, by simpa, ?_⟩
      rintro _ ⟨⟩
      exact hne
    · constructor <;> simpa
  | otherGossip =>
    obtain rfl := Node.step_otherGossip h
    constructor <;> simpa
  | insertNetwork e r =>
    obtain ⟨hs, ⟨hr, rfl⟩ | ⟨rfl, hk, hr, hs'⟩⟩ := Node.step_insertNetwork h
    · simp only [hs, NetworkActor.inHand_storing, NetworkActor.outHand_storing, List.append_nil,
        List.nil_append] at out inn
      rcases hr with rfl | ⟨rfl, -⟩ <;>
        exact ⟨by simpa, by simpa, by simpa, by simpa, by simpa, by simp⟩
    · have hne := storing e hs
      rw [hs] at out inn
      rw [hs']
      refine ⟨by simp [hr, rows], by simpa, by simpa using out, by simpa using inn, ?_, by simp⟩
      simpa [or_imp, forall_and] using ⟨remote, hne⟩
  | sendInbound e =>
    obtain ⟨hs, rfl⟩ := Node.step_sendInbound h
    simp only [hs, NetworkActor.inHand_forwarding, NetworkActor.outHand_forwarding,
      List.nil_append] at out inn
    exact ⟨by simpa, by simpa, by simpa, by simpa, by simpa, by simp⟩
  | recvOutbound =>
    obtain ⟨e, rest, hs, hq, rfl⟩ := Node.step_recvOutbound h
    simp only [hs, hq, NetworkActor.inHand_waiting, NetworkActor.outHand_waiting, List.append_nil,
      List.nil_append, List.cons_append] at out inn
    exact ⟨by simpa, by simpa, by simpa, by simpa, by simpa, by simp⟩
  | broadcast e ok =>
    obtain ⟨hs, rfl⟩ := Node.step_broadcast h
    simp only [hs, NetworkActor.inHand_broadcasting, NetworkActor.outHand_broadcasting,
      List.append_nil, List.cons_append, List.nil_append] at out inn
    cases ok with
    | true => exact ⟨by simpa, by simpa, by simpa, by simpa, by simpa, by simp⟩
    | false =>
      refine ⟨by simpa, by simpa, ?_, by simpa, by simpa, by simp⟩
      simpa using (List.Sublist.append_left (List.sublist_cons_self e _) _).trans out
  | subscribeGroup gid =>
    obtain rfl := Node.step_subscribeGroup h
    constructor <;> simpa
  | recvGroup gid content now =>
    obtain ⟨-, groups, rfl⟩ := Node.step_recvGroup h
    constructor <;> simpa
  | restart =>
    obtain rfl := Node.step_restart h
    refine ⟨by simpa, ?_, ?_, ?_, by simpa, by simp [Node.start]⟩
    · simpa [Node.start] using (List.sublist_append_left _ _).trans queue
    · simpa [Node.start] using (List.sublist_append_left _ _).trans out
    · simpa [Node.start] using (List.sublist_append_left _ _).trans inn

theorem flow_of_run {t : EventTable} {as : List Act} {s : Node}
    (h : Node.run env (Node.start t) as = some s) : Flow env t as s :=
  Machine.run_induction (Flow.start env t) (fun _ _ _ _ _ hf h => hf.step env h) h

end XaeroFlux
