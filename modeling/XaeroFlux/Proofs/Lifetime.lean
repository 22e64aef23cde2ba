import XaeroFlux.Lifetime
import XaeroFlux.Proofs.Discovery
import XaeroFlux.Proofs.PeerTracker

/-!
# A turn and its broadcasts

A turn ends in what it gathered, with some of the introductions broadcast, and with all of them
unless it panicked (`step_cases`). So what the turns do to the tracker and to the subscriptions is
what `gather` does, and only a message lists a peer or subscribes to a group (`lifeRun_only`,
`gather_subscriptions`).
-/

namespace XaeroFlux

namespace Discovery

variable {κ : Type} {env : DiscoveryEnv κ} {s s' : Discovery κ} {a : Answers}

theorem log_cases (env : DiscoveryEnv κ) (cuts : List (Option String)) (s : Discovery κ) :
    s.log env cuts = .ok s ∨ s.log env cuts = .panic s := by
  unfold log
  split_ifs
  · exact .inl rfl
  · exact .inr rfl

/-! ## The broadcasts -/

/-- The introductions broadcast one after the other, to a panic or to the end. -/
theorem forEach_broadcast (env : DiscoveryEnv κ) (intros : Introductions) (m : Discovery κ) :
    ∃ sent, sent <+: intros
      ∧ (Exec.forEach (broadcastIntroduction env) intros m).state =
        { m with effects := m.effects ++ sent.map introduction }
      ∧ ((Exec.forEach (broadcastIntroduction env) intros m).isOk → sent = intros) := by
  induction intros generalizing m with
  | nil => exact ⟨[], List.prefix_refl _, by simp [Exec.forEach], fun _ => rfl⟩
  | cons i intros ih =>
    rw [Exec.forEach, broadcastIntroduction]
    rcases log_cases env [short i.1] m with h | h
    · obtain ⟨sent, hsent, hstate, hok⟩ := ih (m.emit (introduction i))
      refine ⟨i :: sent, List.cons_prefix_cons.2 ⟨rfl, hsent⟩, ?_, fun h' => ?_⟩
      · rw [h]
        refine hstate.trans ?_
        simp [emit]
      · rw [h] at h'
        rw [hok h']
    · rw [h]
      exact ⟨[], List.nil_prefix, by simp, by simp⟩

theorem foldl_broadcast (intros : Introductions) (m : Discovery κ) :
    intros.foldl (fun s i => s.emit (.introduce (peerIntroductionJson i.1 i.2))) m =
      { m with effects := m.effects ++ intros.map introduction } := by
  induction intros generalizing m with
  | nil => simp
  | cons i intros ih =>
    rw [List.foldl_cons, ih]
    simp [emit, introduction]

/-! ## A turn -/

/-- The task after what was gathered is broadcast. -/
structure Broadcasts (x : Exec (Discovery κ × Introductions)) (s' : Discovery κ) : Prop where
  tracker : s'.tracker = x.state.1.tracker
  senders : s'.senders = x.state.1.senders
  forwarders : s'.forwarders = x.state.1.forwarders
  sent : ∃ sent, sent <+: x.state.2 ∧ (x.isOk ∨ sent = [])
    ∧ s'.effects = x.state.1.effects ++ sent.map introduction
  alive : s'.alive → x.isOk ∧ s'.effects = x.state.1.effects ++ x.state.2.map introduction

/-- What was gathered, broadcast. -/
def broadcast (env : DiscoveryEnv κ) : Exec (Discovery κ × Introductions) → Exec (Discovery κ)
  | .ok (m, intros) => Exec.forEach (broadcastIntroduction env) intros m
  | .panic (m, _) => .panic m

theorem broadcasts_settle (env : DiscoveryEnv κ) (x : Exec (Discovery κ × Introductions)) :
    Broadcasts x (settle (broadcast env x)) := by
  rcases x with ⟨m, intros⟩ | ⟨m, intros⟩
  · obtain ⟨sent, hsent, hstate, hok⟩ := forEach_broadcast env intros m
    rw [broadcast]
    rcases hx : Exec.forEach (broadcastIntroduction env) intros m with n | n <;>
      rw [hx] at hstate hok <;> rw [Exec.state] at hstate <;> rw [settle, hstate]
    · refine ⟨rfl, rfl, rfl, ⟨sent, hsent, .inl rfl, rfl⟩, fun _ => ⟨rfl, ?_⟩⟩
      rw [hok rfl]
      rfl
    · exact ⟨rfl, rfl, rfl, ⟨sent, hsent, .inl rfl, rfl⟩, fun h => by simp at h⟩
  · refine ⟨rfl, rfl, rfl, ⟨[], List.nil_prefix, .inr rfl, ?_⟩, fun h => ?_⟩
    · simp [broadcast, settle]
    · simp [broadcast, settle] at h

theorem groupsExchange_eq (a : Answers) (s : Discovery κ) (json : Json) :
    s.groupsExchange env a json = broadcast env (s.gatherExchange env a json) := by
  unfold groupsExchange gatherExchange
  rcases (json.get "node_id").bind Json.asStr with _ | fromNode
  · rfl
  rcases log_cases env [short fromNode] s with h | h
  · simp only [h, Exec.map, Exec.ok_bind]
    rcases (json.get "local_groups").bind Json.asArray with _ | groups
    · rfl
    · dsimp only
      rcases Exec.forEach (handleGroup env a fromNode) groups.zipIdx (s, []) with m | m <;> rfl
  · simp only [h]
    rfl

theorem handleReceived_eq (a : Answers) (s : Discovery κ) (content : ByteArray) :
    s.handleReceived env a content = broadcast env (s.gather env (.received content a)) := by
  rw [handleReceived, gather]
  rcases env.json content with _ | json
  · rfl
  · dsimp only
    split_ifs
    · exact groupsExchange_eq a s json
    · rfl

theorem neighborUp_eq (s : Discovery κ) (peer : κ) :
    s.neighborUp env peer = broadcast env (s.gather env (.neighborUp peer)) := by
  rw [gather]
  rcases s.neighborUp env peer with m | m <;> rfl

theorem neighborDown_eq (fails : ℕ → Bool) (now : Int64) (s : Discovery κ) (peer : κ) :
    s.neighborDown env fails now peer =
      broadcast env (s.gather env (.neighborDown peer fails now)) := by
  rw [neighborDown, gather]
  rcases log_cases env [Utf8.sliceTo (env.keys.toStr peer) 16] s with h | h
  · simp only [h, Exec.map, Exec.ok_bind]
    rcases s.tracker.markOffline fails now (env.keys.toStr peer) with ⟨_ | affected, tracker⟩ <;>
      rfl
  · simp only [h]
    rfl

theorem broadcasts_announceTick (s : Discovery κ) :
    Broadcasts (s.gather env .announceTick) (s.announceTick env) := by
  rw [announceTick, foldl_broadcast]
  exact ⟨rfl, rfl, rfl, ⟨_, List.prefix_refl _, .inl rfl, rfl⟩, fun _ => ⟨rfl, rfl⟩⟩

/-- A turn broadcasts what it gathered, or is the turn of a forwarder, which may end. -/
theorem step_cases {turn : Turn κ} (h : s.step env turn = some s') :
    (s.alive ∧ Broadcasts (s.gather env turn) s') ∨
      ∃ gid content now forwarders, turn = .recvGroup gid content now
        ∧ s' = { s with forwarders := forwarders }
        ∧ (forwarders = s.forwarders
          ∨ forwardGroup env.toEnv gid content now = none
            ∧ forwarders = s.forwarders.erase gid) := by
  cases turn with
  | recvGroup gid content now =>
    obtain ⟨-, h⟩ := Option.ite_none_right_eq_some.1 h
    refine .inr ⟨gid, content, now, ?_⟩
    split at h
    · obtain rfl := Option.some.inj h
      exact ⟨s.forwarders, rfl, rfl, .inl rfl⟩
    · rename_i hnone
      obtain rfl := Option.some.inj h
      exact ⟨_, rfl, rfl, .inr ⟨hnone, rfl⟩⟩
  | announceTick =>
    obtain ⟨ha, h⟩ := Option.ite_none_right_eq_some.1 h
    obtain rfl := Option.some.inj h
    exact .inl ⟨ha, broadcasts_announceTick s⟩
  | pruneTick fails now =>
    obtain ⟨ha, h⟩ := Option.ite_none_right_eq_some.1 h
    obtain rfl := Option.some.inj h
    exact .inl ⟨ha, broadcasts_settle env (.ok (s.pruneTick fails now, []))⟩
  | received content a =>
    obtain ⟨ha, h⟩ := Option.ite_none_right_eq_some.1 h
    obtain rfl := Option.some.inj h
    rw [handleReceived_eq]
    exact .inl ⟨ha, broadcasts_settle env _⟩
  | neighborUp peer =>
    obtain ⟨ha, h⟩ := Option.ite_none_right_eq_some.1 h
    obtain rfl := Option.some.inj h
    rw [neighborUp_eq]
    exact .inl ⟨ha, broadcasts_settle env _⟩
  | neighborDown peer fails now =>
    obtain ⟨ha, h⟩ := Option.ite_none_right_eq_some.1 h
    obtain rfl := Option.some.inj h
    rw [neighborDown_eq]
    exact .inl ⟨ha, broadcasts_settle env _⟩
  | other =>
    obtain ⟨ha, h⟩ := Option.ite_none_right_eq_some.1 h
    obtain rfl := Option.some.inj h
    exact .inl ⟨ha, broadcasts_settle env (.ok (s, []))⟩

/-! ## What a turn subscribes to and tracks -/

/-- Joining a group tracks and introduces no one. -/
theorem joinGroup_frame (env : DiscoveryEnv κ) (a : Answers) (fromNode gid : String) (i : ℕ)
    (s : Discovery κ) :
    (s.joinGroup env a fromNode gid i).state.tracker = s.tracker
      ∧ introduced (s.joinGroup env a fromNode gid i).state.effects = introduced s.effects := by
  simp only [joinGroup]
  by_cases hg : gid ∈ s.senders
  · rw [if_pos hg]
    rcases (env.keys.fromStr fromNode).toOption with _ | pk
    · exact ⟨rfl, rfl⟩
    · cases a.joined i <;> simp [emit, introduced]
  · rw [if_neg hg]
    cases a.subscribed i <;> simp [emit, introduced]

theorem trackPeer_tracker (env : DiscoveryEnv κ) (a : Answers) (fromNode gid : String) (i : ℕ)
    (p : Discovery κ × Introductions) :
    (trackPeer env a fromNode gid i p).state.1.tracker =
      (p.1.tracker.upsertPeer (a.fails i) (a.clock i) gid fromNode).2 := by
  unfold trackPeer
  rcases p.1.tracker.upsertPeer (a.fails i) (a.clock i) gid fromNode with ⟨_ | isNew, tracker⟩
  · rfl
  · simp [emit]

/-- A group leaves the tracker alone or has the peer tracked in it. -/
theorem handleGroup_tracker (env : DiscoveryEnv κ) (a : Answers) (fromNode : String)
    (p : Discovery κ × Introductions) (group : Json × ℕ) :
    (handleGroup env a fromNode p group).state.1.tracker = p.1.tracker ∨
      ∃ gid, group.1 = .str gid ∧ (handleGroup env a fromNode p group).state.1.tracker =
        (p.1.tracker.upsertPeer (a.fails group.2) (a.clock group.2) gid fromNode).2 := by
  unfold handleGroup
  split
  · rename_i gid hgid
    have htracker := (joinGroup_frame env a fromNode gid group.2 p.1).1
    rcases h : p.1.joinGroup env a fromNode gid group.2 with m | m <;> rw [h] at htracker
    · refine .inr ⟨gid, Json.asStr_eq_some.1 hgid, ?_⟩
      refine (trackPeer_tracker env a fromNode gid group.2 (m, p.2)).trans ?_
      rw [show m.tracker = p.1.tracker from htracker]
    · exact .inl htracker
  · exact .inl rfl

/-- A message is not to the point, or panics at the strings it names, or has its groups handled. -/
theorem received_cases (env : DiscoveryEnv κ) (s : Discovery κ) (content : ByteArray)
    (a : Answers) :
    s.gather env (.received content a) = .panic (s, []) ∨
      listing env content = none ∧ s.gather env (.received content a) = .ok (s, []) ∨
      ∃ fromNode groups, listing env content = some (fromNode, groups)
        ∧ s.gather env (.received content a) =
          Exec.forEach (handleGroup env a fromNode) groups.zipIdx (s, []) := by
  rw [gather, listing]
  rcases env.json content with _ | json
  · exact .inr (.inl ⟨rfl, rfl⟩)
  · dsimp only
    split_ifs
    · rw [gatherExchange]
      rcases (json.get "node_id").bind Json.asStr with _ | fromNode
      · exact .inr (.inl ⟨rfl, rfl⟩)
      rcases log_cases env [short fromNode] s with h | h
      · simp only [h, Exec.map, Exec.ok_bind]
        rcases (json.get "local_groups").bind Json.asArray with _ | groups
        · exact .inr (.inl ⟨rfl, rfl⟩)
        · exact .inr (.inr ⟨fromNode, groups, rfl, rfl⟩)
      · simp only [h]
        exact .inl rfl
    · exact .inr (.inl ⟨rfl, rfl⟩)

theorem Turn.received_or (turn : Turn κ) : (∃ content a, turn = .received content a) ∨
    ∀ content a, turn ≠ .received content a := by
  cases turn with
  | received content a => exact .inl ⟨content, a, rfl⟩
  | _ => exact .inr fun _ _ h => by simp at h

/-- A turn with no message leaves the subscriptions alone. -/
theorem gather_subscriptions (env : DiscoveryEnv κ) (s : Discovery κ) {turn : Turn κ}
    (hturn : ∀ content a, turn ≠ .received content a) :
    (s.gather env turn).state.1.senders = s.senders
      ∧ (s.gather env turn).state.1.forwarders = s.forwarders := by
  cases turn with
  | received content a => exact absurd rfl (hturn content a)
  | neighborUp peer =>
    rw [gather, Exec.state_map, neighborUp, state_log]
    exact ⟨rfl, rfl⟩
  | neighborDown peer fails now =>
    rw [gather]
    rcases log_cases env [Utf8.sliceTo (env.keys.toStr peer) 16] s with h | h
    · simp only [h, Exec.map, Exec.ok_bind]
      rcases s.tracker.markOffline fails now (env.keys.toStr peer) with ⟨_ | affected, tracker⟩ <;>
        exact ⟨rfl, rfl⟩
    · simp only [h]
      exact ⟨rfl, rfl⟩
  | announceTick => exact ⟨rfl, rfl⟩
  | pruneTick fails now => exact ⟨rfl, rfl⟩
  | other => exact ⟨rfl, rfl⟩
  | recvGroup gid content now => exact ⟨rfl, rfl⟩

variable {Ok : String → String → Prop}

/-- What a turn gathers leaves listed those that were and those that its message announces. -/
theorem gather_only (hs : s.tracker.Only Ok) (turn : Turn κ)
    (hann : ∀ p g, AnnouncedBy env (.turn turn) p g → Ok g p) :
    (s.gather env turn).state.1.tracker.Only Ok := by
  cases turn with
  | pruneTick fails now => exact hs.pruneStale fails now 300
  | received content a =>
    rcases received_cases env s content a with h | ⟨-, h⟩ | ⟨fromNode, groups, hl, h⟩
    · rw [h]
      exact hs
    · rw [h]
      exact hs
    · rw [h]
      refine Exec.state_forEach (I := fun p : Discovery κ × Introductions => p.1.tracker.Only Ok)
        (fun p group hm hp => ?_) hs
      rcases handleGroup_tracker env a fromNode p group with h | ⟨gid, hgid, h⟩
      · rwa [h]
      · rw [h]
        refine hp.upsertPeer (hann fromNode gid ⟨content, a, rfl, groups, hl, ?_⟩) _ _
        rw [← hgid]
        exact List.fst_mem_of_mem_zipIdx hm
  | neighborUp peer =>
    rw [gather, Exec.state_map, neighborUp, state_log]
    exact hs
  | neighborDown peer fails now =>
    rw [gather]
    dsimp only
    refine Exec.state_bind (I := fun p : Discovery κ × Introductions => p.1.tracker.Only Ok)
      (by rwa [Exec.state_map, state_log]) fun p hp => ?_
    have hoff := hp.markOffline fails now (env.keys.toStr peer)
    rcases h : p.1.tracker.markOffline fails now (env.keys.toStr peer) with ⟨_ | affected, tracker⟩
    · rw [h] at hoff
      exact hoff
    · rw [h] at hoff
      exact hoff
  | announceTick => exact hs
  | other => exact hs
  | recvGroup gid content now => exact hs

theorem boot_only {rows : PeerTable}
    (h : ∀ r ∈ rows, r.isOnline = true → Ok r.groupId r.peerId) :
    (boot rows : Discovery κ).tracker.Only Ok :=
  (PeerTracker.only_new h).loadCache _

theorem lifeStep_only {act : LifeAct κ} (hs : s.tracker.Only Ok)
    (hann : ∀ p g, AnnouncedBy env act p g → Ok g p) (h : lifeStep env s act = some s') :
    s'.tracker.Only Ok := by
  cases act with
  | turn turn =>
    rcases step_cases h with ⟨-, hb⟩ | ⟨gid, content, now, forwarders, rfl, rfl, -⟩
    · rw [hb.tracker]
      exact gather_only hs turn hann
    · exact hs
  | restart =>
    obtain rfl := Option.some.inj h
    exact boot_only hs.rows

theorem lifeRun_only {acts : List (LifeAct κ)} (hs : s.tracker.Only Ok)
    (hann : ∀ act ∈ acts, ∀ p g, AnnouncedBy env act p g → Ok g p)
    (h : lifeRun env s acts = some s') : s'.tracker.Only Ok := by
  induction acts generalizing s with
  | nil =>
    obtain rfl := Machine.run_nil.1 h
    exact hs
  | cons act acts ih =>
    obtain ⟨m, hm, h⟩ := Machine.run_cons.1 h
    rw [List.forall_mem_cons] at hann
    exact ih (lifeStep_only hs hann.1 hm) hann.2 h

end Discovery

end XaeroFlux
