import XaeroFlux.Mesh
import XaeroFlux.Proofs.Sendable

/-!
# Agreement of a mesh

A node's table tells apart what came from its app and what came from gossip (`Origin`), and where
inserts and broadcasts succeed it loses nothing of either (`Kept`). Gossip brings every broadcast
to every other node (`Gossip`). In a quiescent mesh the three close the circle: a submitted event
is stored at its author, so broadcast, so received, so stored, everywhere (`agreement`).
-/

namespace XaeroFlux

section Node

variable (env : Env)

@[simp] theorem received_concat (as : List Act) (a : Act) :
    received (as ++ [a]) = received as ++ a.receives.toList :=
  filterMap_concat _ as a

variable {env}

/-- Where what an actor is about to store comes from, and what it stores. -/
structure Node.Intake (env : Env) (s : Node) (a : Act) (s' : Node) : Prop where
  appRx : ∀ e ∈ s'.appRx, e ∈ s.appRx ∨ a.submits = some e
  storing : ∀ e, s'.storage = .storing e → s.storage = .storing e ∨ e ∈ s.appRx
  accepts : ∀ e, a.accepts = some e → s.storage = .storing e
  network : ∀ e, s'.network = .storing e → s.network = .storing e ∨
    ∃ content, a.receives = some content ∧ env.reader.fromSlice content = some e
  syncs : ∀ e, a.syncs = some e → s.network = .storing e

attribute [local simp] Act.accepts Act.syncs Act.submits Act.receives in
theorem Node.intake_step {s s' : Node} {a : Act} (h : Node.step env s a = some s') :
    Node.Intake env s a s' := by
  cases a with
  | submit e =>
    obtain rfl := Node.step_submit h
    constructor <;> simp +contextual [eq_comm]
  | recvApp =>
    obtain ⟨e, rest, -, hq, rfl⟩ := Node.step_recvApp h
    constructor <;> simp +contextual [hq]
  | insertApp e r =>
    obtain ⟨hs, ⟨hr, rfl⟩ | ⟨rfl, -, -, hs'⟩⟩ := Node.step_insertApp h
    · rcases hr with rfl | ⟨rfl, -⟩ <;> constructor <;> simp +contextual
    · rw [hs']
      constructor <;> simp +contextual [hs]
  | sendNetwork e =>
    obtain ⟨-, rfl⟩ := Node.step_sendNetwork h
    constructor <;> simp +contextual
  | recvGossip content =>
    obtain ⟨-, ⟨e, he, -, rfl⟩ | ⟨-, rfl⟩⟩ := Node.step_recvGossip h <;>
      constructor <;> simp +contextual [*]
  | otherGossip =>
    obtain rfl := Node.step_otherGossip h
    constructor <;> simp +contextual
  | insertNetwork e r =>
    obtain ⟨hs, ⟨hr, rfl⟩ | ⟨rfl, -, -, hs'⟩⟩ := Node.step_insertNetwork h
    · rcases hr with rfl | ⟨rfl, -⟩ <;> constructor <;> simp +contextual
    · rw [hs']
      constructor <;> simp +contextual [hs]
  | sendInbound e =>
    obtain ⟨-, rfl⟩ := Node.step_sendInbound h
    constructor <;> simp +contextual
  | recvOutbound =>
    obtain ⟨e, rest, -, -, rfl⟩ := Node.step_recvOutbound h
    constructor <;> simp +contextual
  | broadcast e ok =>
    obtain ⟨-, rfl⟩ := Node.step_broadcast h
    constructor <;> simp +contextual
  | subscribeGroup gid =>
    obtain rfl := Node.step_subscribeGroup h
    constructor <;> simp +contextual
  | recvGroup gid content now =>
    obtain ⟨-, groups, rfl⟩ := Node.step_recvGroup h
    constructor <;> simp +contextual
  | restart =>
    obtain rfl := Node.step_restart h
    constructor <;> simp [Node.start]

variable (env) in
/-- Where a node's events come from: the storage actor's from the app, the network actor's from
gossip. -/
structure Origin (as : List Act) (s : Node) : Prop where
  appRx : ∀ e ∈ s.appRx, e ∈ submitted as
  storing : ∀ e, s.storage = .storing e → e ∈ submitted as
  accepted : ∀ e ∈ accepted as, e ∈ submitted as
  network : ∀ e, s.network = .storing e →
    ∃ content ∈ received as, env.reader.fromSlice content = some e
  synced : ∀ e ∈ synced as, ∃ content ∈ received as, env.reader.fromSlice content = some e

theorem Origin.step {as : List Act} {s s' : Node} {a : Act} (ho : Origin env as s)
    (h : Node.step env s a = some s') : Origin env (as ++ [a]) s' := by
  have hf := Node.intake_step h
  have hsub : ∀ e ∈ submitted as, e ∈ submitted (as ++ [a]) := fun e he => by simp [he]
  have hrec : ∀ e, (∃ content ∈ received as, env.reader.fromSlice content = some e) →
      ∃ content ∈ received (as ++ [a]), env.reader.fromSlice content = some e :=
    fun e ⟨content, hc, he⟩ => ⟨content, by simp [hc], he⟩
  refine ⟨fun e he => ?_, fun e he => ?_, fun e he => ?_, fun e he => ?_, fun e he => ?_⟩
  · rcases hf.appRx e he with he | he
    · exact hsub e (ho.appRx e he)
    · simp [he]
  · rcases hf.storing e he with he | he
    · exact hsub e (ho.storing e he)
    · exact hsub e (ho.appRx e he)
  · rw [accepted_concat, List.mem_append, Option.mem_toList] at he
    rcases he with he | he
    · exact hsub e (ho.accepted e he)
    · exact hsub e (ho.storing e (hf.accepts e he))
  · rcases hf.network e he with he | ⟨content, hc, he⟩
    · exact hrec e (ho.network e he)
    · exact ⟨content, by simp [hc], he⟩
  · rw [synced_concat, List.mem_append, Option.mem_toList] at he
    rcases he with he | he
    · exact hrec e (ho.synced e he)
    · exact hrec e (ho.network e (hf.syncs e he))

variable (env) in
/-- What came from the app and from gossip is on its way to the table or in it, and what the
actors inserted is on its way on or sent on. -/
structure Kept (as : List Act) (s : Node) : Prop where
  app : ∀ e ∈ submitted as, e ∈ s.appRx ∨ s.storage = .storing e ∨ s.events.Has e.id
  out : outgoing as s = accepted as
  read : ∀ content ∈ received as, ∀ e, env.reader.fromSlice content = some e →
    e.source ≠ env.nodeId → s.network = .storing e ∨ s.events.Has e.id
  inn : forwarded as ++ s.network.inHand = synced as

theorem Act.Succeeds.dropsNone {a : Act} (h : a.Succeeds) (s : Node) : a.DropsNone s := by
  cases a <;> simp_all [Act.Succeeds, Act.DropsNone]

/-- What a step that fails nowhere does with what it finds: it is kept or passed on. -/
structure Node.Passes (env : Env) (s : Node) (a : Act) (s' : Node) : Prop where
  submits : ∀ e, a.submits = some e → e ∈ s'.appRx
  appRx : ∀ e ∈ s.appRx, e ∈ s'.appRx ∨ s'.storage = .storing e
  storing : ∀ e, s.storage = .storing e → s'.storage = .storing e ∨ s'.events.Has e.id
  receives : ∀ content, a.receives = some content → ∀ e,
    env.reader.fromSlice content = some e → e.source ≠ env.nodeId → s'.network = .storing e
  network : ∀ e, s.network = .storing e → s'.network = .storing e ∨ s'.events.Has e.id
  inHand : a.forwards.toList ++ s'.network.inHand = s.network.inHand ++ a.syncs.toList

attribute [local simp] Act.submits Act.receives Act.forwards Act.syncs in
theorem Node.passes_step {s s' : Node} {a : Act} (ha : a.Succeeds)
    (h : Node.step env s a = some s') : Node.Passes env s a s' := by
  cases a with
  | submit e =>
    obtain rfl := Node.step_submit h
    constructor <;> simp +contextual [eq_comm]
  | recvApp =>
    obtain ⟨e, rest, hs, hq, rfl⟩ := Node.step_recvApp h
    constructor <;> simp +contextual [hs, hq, or_comm, eq_comm]
  | insertApp e r =>
    obtain ⟨hs, ⟨rfl | ⟨rfl, hh⟩, rfl⟩ | ⟨rfl, -, hr, hs'⟩⟩ := Node.step_insertApp h
    · exact absurd rfl ha
    · constructor <;> simp +contextual [hs, hh]
    · have hh := Keyed.has_of_append hr
      rw [hs']
      constructor <;> simp +contextual [hs, hh]
  | sendNetwork e =>
    obtain ⟨hs, rfl⟩ := Node.step_sendNetwork h
    constructor <;> simp +contextual [hs]
  | recvGossip content =>
    obtain ⟨hs, ⟨e, he, hne, rfl⟩ | ⟨hown, rfl⟩⟩ := Node.step_recvGossip h
    · constructor <;> simp +contextual [hs, he]
    · constructor <;> simp +contextual [hs]
      exact hown
  | otherGossip =>
    obtain rfl := Node.step_otherGossip h
    constructor <;> simp +contextual
  | insertNetwork e r =>
    obtain ⟨hs, ⟨rfl | ⟨rfl, hh⟩, rfl⟩ | ⟨rfl, -, hr, hs'⟩⟩ := Node.step_insertNetwork h
    · exact absurd rfl ha
    · constructor <;> simp +contextual [hs, hh]
    · have hh := Keyed.has_of_append hr
      rw [hs']
      constructor <;> simp +contextual [hs, hh]
  | sendInbound e =>
    obtain ⟨hs, rfl⟩ := Node.step_sendInbound h
    constructor <;> simp +contextual [hs]
  | recvOutbound =>
    obtain ⟨e, rest, hs, -, rfl⟩ := Node.step_recvOutbound h
    constructor <;> simp +contextual [hs]
  | broadcast e ok =>
    obtain ⟨hs, rfl⟩ := Node.step_broadcast h
    constructor <;> simp +contextual [hs]
  | subscribeGroup gid =>
    obtain rfl := Node.step_subscribeGroup h
    constructor <;> simp +contextual
  | recvGroup gid content now =>
    obtain ⟨-, groups, rfl⟩ := Node.step_recvGroup h
    constructor <;> simp +contextual
  | restart => exact absurd ha id

theorem Kept.step {as : List Act} {s s' : Node} {a : Act} (hk : Kept env as s) (ha : a.Succeeds)
    (h : Node.step env s a = some s') : Kept env (as ++ [a]) s' := by
  have hp := Node.passes_step ha h
  refine ⟨fun e he => ?_, (outgoing_concat h hk.out).2 (ha.dropsNone s),
    fun c hc e he hne => ?_, ?_⟩
  · rw [submitted_concat, List.mem_append, Option.mem_toList] at he
    rcases he with he | he
    · rcases hk.app e he with he | he | he
      · exact (hp.appRx e he).imp_right .inl
      · exact .inr (hp.storing e he)
      · exact .inr (.inr (Node.has_mono h he))
    · exact .inl (hp.submits e he)
  · rw [received_concat, List.mem_append, Option.mem_toList] at hc
    rcases hc with hc | hc
    · rcases hk.read c hc e he hne with he | he
      · exact hp.network e he
      · exact .inr (Node.has_mono h he)
    · exact .inl (hp.receives c hc e he hne)
  · rw [forwarded_concat, synced_concat, List.append_assoc, hp.inHand, ← List.append_assoc, hk.inn]

theorem origin_of_run {t : EventTable} {as : List Act} {s : Node}
    (h : Node.run env (Node.start t) as = some s) : Origin env as s := by
  refine Machine.run_induction (P := Origin env) ?_ (fun _ _ _ _ _ ho h => ho.step h) h
  constructor <;> simp [Node.start, accepted, synced]

theorem kept_of_run {t : EventTable} {as : List Act} {s : Node}
    (h : Node.run env (Node.start t) as = some s) (hok : ∀ a ∈ as, a.Succeeds) : Kept env as s := by
  refine Machine.run_induction (P := fun as s => (∀ a ∈ as, a.Succeeds) → Kept env as s) ?_ ?_ h hok
  · intro _
    constructor <;> simp [Node.start, submitted, received, outgoing, accepted, broadcasted,
      forwarded, synced]
  · intro as s a s' _ ih hs hok
    simp only [List.mem_append, List.mem_singleton] at hok
    exact (ih fun b hb => hok b (.inl hb)).step (hok a (.inr rfl)) hs

end Node

variable {ι : Type*} [DecidableEq ι]

section Mesh

variable {env : ι → Env}

@[simp] theorem actsOf_concat (i : ι) (as : List (MeshAct ι)) (a : MeshAct ι) :
    actsOf i (as ++ [a]) = actsOf i as ++ (a.at i).toList :=
  filterMap_concat _ as a

theorem actsOf_duplicate (i j : ι) (as : List (MeshAct ι)) (content : ByteArray) :
    actsOf j (as ++ [.duplicate i content]) = actsOf j as := by
  simp [MeshAct.at]

theorem mem_broadcasted_node {i j : ι} {as : List (MeshAct ι)} {act : Act} {e : Event} :
    e ∈ broadcasted (actsOf j (as ++ [.node i act])) ↔
      e ∈ broadcasted (actsOf j as) ∨ i = j ∧ act.broadcasts = some e := by
  by_cases hj : i = j <;> simp [MeshAct.at, hj]

theorem mem_received_node {i j : ι} {as : List (MeshAct ι)} {act : Act} {content : ByteArray} :
    content ∈ received (actsOf j (as ++ [.node i act])) ↔
      content ∈ received (actsOf j as) ∨ i = j ∧ act.receives = some content := by
  by_cases hj : i = j <;> simp [MeshAct.at, hj]

namespace Mesh

theorem step_node {m m' : Mesh ι} {i : ι} {act : Act} (h : step env m (.node i act) = some m') :
    ∃ s m₁, Node.step (env i) (m.nodes i) act = some s ∧ m.gossip i act = some m₁
      ∧ m' = { m₁ with nodes := Function.update m₁.nodes i s } := by
  simp only [step] at h
  split at h
  · rename_i s hs
    obtain ⟨m₁, hm, rfl⟩ := Option.map_eq_some_iff.1 h
    exact ⟨s, m₁, hs, hm, rfl⟩
  · simp at h

theorem step_duplicate {m m' : Mesh ι} {i : ι} {content : ByteArray}
    (h : step env m (.duplicate i content) = some m') :
    content ∈ m.sent ∧ m' = m.again i content := by
  simp only [step, exists_eq_right, Option.ite_none_right_eq_some, Option.some.injEq] at h
  exact ⟨h.1, h.2.symm⟩

/-- What an action does to the messages: it takes one, adds one, or neither. -/
theorem gossip_cases {m m₁ : Mesh ι} {i : ι} {act : Act} (h : m.gossip i act = some m₁) :
    (∃ content ∈ m.inFlight i, act = .recvGossip content ∧ m₁ = m.deliver i content)
      ∨ (∃ event, act = .broadcast event true ∧ m₁ = m.spread i event.toVec)
      ∨ act.receives = none ∧ act.broadcasts = none ∧ m₁ = m := by
  unfold gossip at h
  split at h
  · rename_i content
    simp only [exists_eq_right, Option.ite_none_right_eq_some, Option.some.injEq] at h
    exact .inl ⟨content, h.1, rfl, h.2.symm⟩
  · rename_i event
    exact .inr (.inl ⟨event, rfl, (Option.some.inj h).symm⟩)
  · rename_i h₁ h₂
    refine .inr (.inr ⟨?_, ?_, (Option.some.inj h).symm⟩)
    · cases act <;> simp_all [Act.receives]
    · cases act <;> simp_all [Act.broadcasts]

theorem mem_of_mem_deliver {m : Mesh ι} {i j : ι} {content c : ByteArray}
    (h : c ∈ (m.deliver i content).inFlight j) : c ∈ m.inFlight j := by
  simp only [deliver, Function.update_apply] at h
  split_ifs at h with hj
  · exact hj ▸ List.mem_of_mem_eraseP h
  · exact h

theorem mem_deliver_or {m : Mesh ι} {i j : ι} {content c : ByteArray} (h : c ∈ m.inFlight j) :
    c ∈ (m.deliver i content).inFlight j ∨ j = i ∧ c = content := by
  by_cases hj : j = i
  · subst hj
    by_cases hc : c = content
    · exact .inr ⟨rfl, hc⟩
    · left
      simpa [deliver] using (List.mem_eraseP_of_neg (by simpa using hc)).2 h
  · left
    simpa [deliver, Function.update_apply, hj] using h

theorem mem_spread {m : Mesh ι} {i j : ι} {content c : ByteArray} :
    c ∈ (m.spread i content).inFlight j ↔ c ∈ m.inFlight j ∨ j ≠ i ∧ c = content := by
  by_cases hj : j = i <;> simp [spread, hj]

theorem mem_again {m : Mesh ι} {i j : ι} {content c : ByteArray} :
    c ∈ (m.again i content).inFlight j ↔ c ∈ m.inFlight j ∨ j = i ∧ c = content := by
  by_cases hj : j = i
  · subst hj
    simp [again]
  · simp [again, hj]

theorem gossip_nodes {m m₁ : Mesh ι} {i : ι} {act : Act} (h : m.gossip i act = some m₁) :
    m₁.nodes = m.nodes := by
  obtain ⟨_, -, -, rfl⟩ | ⟨_, -, rfl⟩ | ⟨-, -, rfl⟩ := gossip_cases h <;> rfl

theorem run_node {as : List (MeshAct ι)} {m : Mesh ι} (h : run env start as = some m) (i : ι) :
    Node.run (env i) (Node.start .empty) (actsOf i as) = some (m.nodes i) := by
  refine Machine.run_view (fun m : Mesh ι => m.nodes i) (MeshAct.at i) ?_ ?_ h
  · rintro m (⟨j, act⟩ | ⟨j, content⟩) m' b hs hp
    · obtain ⟨s, m₁, hn, hg, rfl⟩ := step_node hs
      simp only [MeshAct.at, Option.ite_none_right_eq_some, Option.some.injEq] at hp
      obtain ⟨rfl, rfl⟩ := hp
      simpa using hn
    · simp [MeshAct.at] at hp
  · rintro m (⟨j, act⟩ | ⟨j, content⟩) m' hs hp
    · obtain ⟨s, m₁, -, hg, rfl⟩ := step_node hs
      have hj : i ≠ j := by
        rintro rfl
        simp [MeshAct.at] at hp
      simp [hj, gossip_nodes hg]
    · rw [(step_duplicate hs).2]
      rfl

/-- What gossip was given and what it brings: no message but those broadcast, and each of these to
every other node. -/
structure Gossip (as : List (MeshAct ι)) (m : Mesh ι) : Prop where
  sent : ∀ content ∈ m.sent, ∃ j, ∃ e ∈ broadcasted (actsOf j as), content = e.toVec
  flight : ∀ i, ∀ content ∈ m.inFlight i, content ∈ m.sent
  arrived : ∀ i, ∀ content ∈ received (actsOf i as), content ∈ m.sent
  delivered : ∀ j, ∀ e ∈ broadcasted (actsOf j as), ∀ i, i ≠ j →
    e.toVec ∈ m.inFlight i ∨ e.toVec ∈ received (actsOf i as)

theorem Gossip.step {as : List (MeshAct ι)} {m m' : Mesh ι} {a : MeshAct ι} (hg : Gossip as m)
    (h : step env m a = some m') : Gossip (as ++ [a]) m' := by
  obtain ⟨sent, flight, arrived, delivered⟩ := hg
  cases a with
  | duplicate i content =>
    obtain ⟨hc, rfl⟩ := step_duplicate h
    refine ⟨?_, ?_, ?_, ?_⟩ <;> simp only [actsOf_duplicate, mem_again]
    · exact sent
    · rintro j c (hcj | ⟨-, rfl⟩)
      · exact flight j c hcj
      · exact hc
    · exact arrived
    · exact fun j e he k hk => (delivered j e he k hk).imp_left .inl
  | node i act =>
    obtain ⟨s, m₁, -, hm, rfl⟩ := step_node h
    obtain ⟨content, hc, rfl, rfl⟩ | ⟨event, rfl, rfl⟩ | ⟨hr, hb, rfl⟩ := gossip_cases hm
    · refine ⟨?_, ?_, ?_, ?_⟩ <;> simp only [mem_broadcasted_node, mem_received_node,
        Act.broadcasts, Act.receives, reduceCtorEq, and_false, or_false, Option.some.injEq]
      · exact sent
      · exact fun j c hcj => flight j c (mem_of_mem_deliver hcj)
      · rintro j c (hcj | ⟨rfl, rfl⟩)
        · exact arrived j c hcj
        · exact flight i content hc
      · intro j e he k hk
        rcases delivered j e he k hk with hf | ha
        · exact (mem_deliver_or hf).imp_right fun ⟨hki, hec⟩ => .inr ⟨hki.symm, hec.symm⟩
        · exact .inr (.inl ha)
    · refine ⟨?_, ?_, ?_, ?_⟩ <;> simp only [mem_broadcasted_node, mem_received_node,
        mem_spread, Act.broadcasts, Act.receives, reduceCtorEq, and_false, or_false,
        Option.some.injEq]
      · intro c hcs
        rcases List.mem_append.1 hcs with hcs | hcs
        · obtain ⟨j, e, he, rfl⟩ := sent c hcs
          exact ⟨j, e, .inl he, rfl⟩
        · exact ⟨i, event, .inr ⟨rfl, rfl⟩, List.mem_singleton.1 hcs⟩
      · rintro j c (hcj | ⟨-, rfl⟩)
        · exact List.mem_append_left _ (flight j c hcj)
        · exact List.mem_append_right _ (List.mem_singleton.2 rfl)
      · exact fun j c hcj => List.mem_append_left _ (arrived j c hcj)
      · rintro j e (he | ⟨rfl, rfl⟩) k hk
        · exact (delivered j e he k hk).imp_left .inl
        · exact .inl (.inr ⟨hk, rfl⟩)
    · refine ⟨?_, ?_, ?_, ?_⟩ <;> simp only [mem_broadcasted_node, mem_received_node, hr, hb,
        reduceCtorEq, and_false, or_false]
      · exact sent
      · exact flight
      · exact arrived
      · exact delivered

theorem gossip_of_run {as : List (MeshAct ι)} {m : Mesh ι} (h : run env start as = some m) :
    Gossip as m := by
  refine Machine.run_induction (P := Gossip) ?_ (fun _ _ _ _ _ hg h => hg.step h) h
  constructor <;> simp [start, actsOf, broadcasted, received]

theorem row_submitted {as : List (MeshAct ι)} {m : Mesh ι} (h : run env start as = some m)
    {i : ι} {e : Event} (he : e ∈ (m.nodes i).events) : ∃ j, e ∈ submitted (actsOf j as) := by
  have hg := gossip_of_run h
  have hf := fun j => flow_of_run (env j) (run_node h j)
  have ho := fun j => origin_of_run (run_node h j)
  rw [Keyed.mem_def, (hf i).rows] at he
  rcases mem_inserted.1 (by simpa using he) with ha | hs
  · exact ⟨i, (ho i).accepted e ha⟩
  · obtain ⟨content, hc, hr⟩ := (ho i).synced e hs
    obtain ⟨j, e', he', rfl⟩ := hg.sent content (hg.arrived i content hc)
    rw [(env i).reader.fromSlice_toVec] at hr
    obtain rfl := Option.some.inj hr
    exact ⟨j, (ho j).accepted _ ((hf j).broadcasted_sublist.subset he')⟩

end Mesh

end Mesh

section Quiescent

variable {env : ι → Env} {as : List (MeshAct ι)} {m : Mesh ι}

theorem mem_of_has (h : Mesh.run env Mesh.start as = some m)
    (hsame : ∀ i j, ∀ e ∈ submitted (actsOf i as), ∀ e' ∈ submitted (actsOf j as),
      e.id = e'.id → e = e')
    {i j : ι} {e : Event} (he : e ∈ submitted (actsOf j as)) (hh : (m.nodes i).events.Has e.id) :
    e ∈ (m.nodes i).events := by
  obtain ⟨r, hr, hid⟩ := Keyed.has_iff.1 hh
  obtain ⟨k, hk⟩ := Mesh.row_submitted h hr
  rwa [← hsame k j r hk e he hid]

/-- Once nothing is left to do, gossip got every event a node accepted. -/
theorem broadcasted_of_quiescent (h : Mesh.run env Mesh.start as = some m)
    (hok : ∀ i, ∀ a ∈ actsOf i as, a.Succeeds) (hq : m.Quiescent) (i : ι) :
    broadcasted (actsOf i as) = accepted (actsOf i as) := by
  obtain ⟨-, hout, hst, hnet, -⟩ := hq i
  have := (kept_of_run (Mesh.run_node h i) (hok i)).out
  simpa [outgoing, hout, hst, hnet] using this

/-- Once nothing is left to do, `event_rx` got every event the network actor inserted. -/
theorem forwarded_of_quiescent (h : Mesh.run env Mesh.start as = some m)
    (hok : ∀ i, ∀ a ∈ actsOf i as, a.Succeeds) (hq : m.Quiescent) (i : ι) :
    forwarded (actsOf i as) = synced (actsOf i as) := by
  obtain ⟨-, -, -, hnet, -⟩ := hq i
  have := (kept_of_run (Mesh.run_node h i) (hok i)).inn
  simpa [hnet] using this

theorem mem_events_iff (h : Mesh.run env Mesh.start as = some m) {i : ι} {e : Event} :
    e ∈ (m.nodes i).events ↔ e ∈ accepted (actsOf i as) ∨ e ∈ synced (actsOf i as) := by
  rw [Keyed.mem_def, (flow_of_run (env i) (Mesh.run_node h i)).rows]
  simp [mem_inserted]

end Quiescent

/-- Agreement: once a mesh of nodes with different ids has nothing left to do, every node's table
holds the submitted events and no others, and its `event_rx` got the rows of the other nodes,
each once. -/
theorem agreement {env : ι → Env} (hid : Function.Injective fun i => (env i).nodeId)
    {as : List (MeshAct ι)} {m : Mesh ι} (h : Mesh.run env Mesh.start as = some m)
    (hsource : ∀ i, ∀ e ∈ submitted (actsOf i as), e.source = (env i).nodeId)
    (hsame : ∀ i j, ∀ e ∈ submitted (actsOf i as), ∀ e' ∈ submitted (actsOf j as),
      e.id = e'.id → e = e')
    (hok : ∀ i, ∀ a ∈ actsOf i as, a.Succeeds) (hq : m.Quiescent) :
    (∀ i e, e ∈ (m.nodes i).events ↔ ∃ j, e ∈ submitted (actsOf j as))
      ∧ ∀ i e, (forwarded (actsOf i as)).count e
        = if e ∈ (m.nodes i).events ∧ e.source ≠ (env i).nodeId then 1 else 0 := by
  have hf := fun i => flow_of_run (env i) (Mesh.run_node h i)
  have hk := fun i => kept_of_run (Mesh.run_node h i) (hok i)
  have ho := fun i => origin_of_run (Mesh.run_node h i)
  have hown : ∀ j, ∀ e ∈ submitted (actsOf j as), e ∈ accepted (actsOf j as) := by
    intro j e he
    obtain ⟨happ, -, hst, -, -⟩ := hq j
    have hh : (m.nodes j).events.Has e.id := by simpa [happ, hst] using (hk j).app e he
    rcases (mem_events_iff h).1 (mem_of_has h hsame he hh) with ha | hs
    · exact ha
    · exact absurd (hsource j e he) ((hf j).remote e hs)
  have hall : ∀ i j, ∀ e ∈ submitted (actsOf j as), e ∈ (m.nodes i).events := by
    intro i j e he
    rcases eq_or_ne i j with rfl | hij
    · exact (mem_events_iff h).2 (.inl (hown i e he))
    obtain ⟨-, -, -, hnet, hfl⟩ := hq i
    have hb : e ∈ broadcasted (actsOf j as) := by
      rw [broadcasted_of_quiescent h hok hq]
      exact hown j e he
    have hr : e.toVec ∈ received (actsOf i as) := by
      simpa [hfl] using (Mesh.gossip_of_run h).delivered j e hb i hij
    have hne : e.source ≠ (env i).nodeId := by
      rw [hsource j e he]
      exact hid.ne hij.symm
    have hh := (hk i).read _ hr e ((env i).reader.fromSlice_toVec e) hne
    exact mem_of_has h hsame he (by simpa [hnet] using hh)
  refine ⟨fun i e => ⟨Mesh.row_submitted h, fun ⟨j, hj⟩ => hall i j e hj⟩, fun i e => ?_⟩
  have hsynced : e ∈ synced (actsOf i as) ↔
      e ∈ (m.nodes i).events ∧ e.source ≠ (env i).nodeId := by
    rw [mem_events_iff h]
    constructor
    · exact fun hs => ⟨.inr hs, (hf i).remote e hs⟩
    · rintro ⟨ha | hs, hne⟩
      · exact absurd (hsource i e ((ho i).accepted e ha)) hne
      · exact hs
  have hnd : (synced (actsOf i as)).Nodup :=
    (List.nodup_append.1 ((inserted_perm _).nodup_iff.2 (hf i).inserted_ids_nodup.of_map)).2.1
  rw [forwarded_of_quiescent h hok hq, hnd.count]
  simp only [hsynced]

def twoNodes (i : Fin 2) : Env := { Env.hi with nodeId := if i = 0 then "alice" else "bob" }

/-- Each node's event reaches the other, one of them twice. -/
def twoEvents : List (MeshAct (Fin 2)) :=
  let a : Event := ⟨"a1", "draw", "alice", 1⟩
  let b : Event := ⟨"b1", "erase", "bob", 2⟩
  let send (i : Fin 2) (e : Event) : List (MeshAct (Fin 2)) :=
    [.submit e, .recvApp, .insertApp e (some 1), .sendNetwork e, .recvOutbound,
      .broadcast e true].map (.node i)
  let take (i : Fin 2) (e : Event) : List (MeshAct (Fin 2)) :=
    [.recvGossip e.toVec, .insertNetwork e (some 1), .sendInbound e].map (.node i)
  send 0 a ++ send 1 b ++ take 0 b ++ take 1 a ++ [.duplicate 1 a.toVec,
    .node 1 (.recvGossip a.toVec), .node 1 (.insertNetwork a (some 0))]

theorem agreement_twoEvents : ∃ m, Mesh.run twoNodes Mesh.start twoEvents = some m ∧
    ∀ i e, e ∈ (m.nodes i).events ↔ ∃ j, e ∈ submitted (actsOf j twoEvents) := by
  have hrun : (Mesh.run twoNodes Mesh.start twoEvents).map (fun m => decide m.Quiescent)
      = some true := by decide +kernel
  obtain ⟨m, hm, hq⟩ := Option.map_eq_some_iff.1 hrun
  exact ⟨m, hm, (agreement (by unfold Function.Injective; decide) hm (by decide) (by decide) (by decide)
    (of_decide_eq_true hq)).1⟩

end XaeroFlux
