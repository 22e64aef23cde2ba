import XaeroFlux.Proofs.Relay

/-!
# One subscription a group

A message's loop subscribes to a group only where the map has no sender for it, and puts the sender
in the map with the forwarder it spawns; so the subscriptions that succeed, the map and the
forwarders spawned are the same groups in the same order (`Opens`), each once. At the end of the
loop every group listed has been tried (`Tried`).
-/

namespace XaeroFlux

namespace Discovery

variable {κ : Type} {env : DiscoveryEnv κ} {s s' s'' : Discovery κ} {a : Answers}
  {p gid g : String} {i : ℕ} {Listed Listed' : String → Prop} {new new' : List (Effect κ)}

def groupTopic (env : DiscoveryEnv κ) (g : String) : Digest := Topic.id env.blake3 (.group g)

/-- The key a node id parses to, if it does. -/
def peersOf (env : DiscoveryEnv κ) (p : String) : List κ := (env.keys.fromStr p).toOption.toList

theorem peersOf_of_spells {k : κ} (h : Spells env k p) : peersOf env p = [k] := by
  unfold Spells at h
  rw [peersOf, h]
  rfl

/-- The topics whose subscription succeeded. -/
def opened (effects : List (Effect κ)) : List Digest :=
  effects.filterMap fun
    | .subscribe topic _ true => some topic
    | _ => none

@[simp] theorem opened_nil : opened ([] : List (Effect κ)) = [] := rfl

@[simp] theorem opened_append (es es' : List (Effect κ)) :
    opened (es ++ es') = opened es ++ opened es' :=
  List.filterMap_append

theorem mem_opened {es : List (Effect κ)} {topic : Digest} :
    topic ∈ opened es ↔ ∃ peers, .subscribe topic peers true ∈ es := by
  simp only [opened, List.mem_filterMap]
  constructor
  · intro h
    obtain ⟨e, he, htopic⟩ := h
    split at htopic
    · rename_i peers
      obtain rfl := Option.some.inj htopic
      exact ⟨peers, he⟩
    · cases htopic
  · intro h
    obtain ⟨peers, he⟩ := h
    exact ⟨_, he, rfl⟩

/-- A stretch of the task that handles groups among those listed: what it asked of gossip, and the
groups it has subscribed to. -/
structure Opens (env : DiscoveryEnv κ) (p : String) (Listed : String → Prop)
    (new : List (Effect κ)) (s s' : Discovery κ) : Prop where
  effects : s'.effects = s.effects ++ new
  subscribed : ∃ gs, s'.senders = s.senders ++ gs ∧ s'.forwarders = s.forwarders ++ gs
    ∧ opened new = gs.map (groupTopic env) ∧ ∀ g ∈ gs, Listed g
  nodup : s.senders.Nodup → s'.senders.Nodup
  subscribes : ∀ topic peers ok, .subscribe topic peers ok ∈ new →
    peers = peersOf env p ∧ ∃ g, Listed g ∧ topic = groupTopic env g
  joins : ∀ g k ok, .joinPeers g k ok ∈ new → Listed g ∧ Spells env k p

/-- What became of a group listed: it has a sender, and the peer was passed to its topic; or its
subscription was refused. -/
structure Tried (env : DiscoveryEnv κ) (p : String) (s s' : Discovery κ) (new : List (Effect κ))
    (g : String) : Prop where
  known : g ∈ s'.senders → ∀ k, Spells env k p →
    (∃ ok, .joinPeers g k ok ∈ new) ∨ .subscribe (groupTopic env g) [k] true ∈ new
  refused : g ∉ s'.senders → .subscribe (groupTopic env g) (peersOf env p) false ∈ new
  tried : g ∉ s.senders → ∃ ok, .subscribe (groupTopic env g) (peersOf env p) ok ∈ new

/-! ## Stretches one after the other -/

/-- Asks nothing of a group's topic. -/
def isQuiet : Effect κ → Bool
  | .subscribe .. | .joinPeers .. => false
  | _ => true

theorem opens_quiet (heffects : s'.effects = s.effects ++ new) (hsenders : s'.senders = s.senders)
    (hforwarders : s'.forwarders = s.forwarders) (hquiet : ∀ e ∈ new, isQuiet e = true) :
    Opens env p Listed new s s' where
  effects := heffects
  subscribed := by
    refine ⟨[], by rw [hsenders, List.append_nil], by rw [hforwarders, List.append_nil], ?_,
      by simp⟩
    rw [List.map_nil, opened, List.filterMap_eq_nil_iff]
    intro e he
    have hq := hquiet e he
    cases e <;> first | rfl | cases hq
  nodup h := hsenders ▸ h
  subscribes _ _ _ h := by cases hquiet _ h
  joins _ _ _ h := by cases hquiet _ h

theorem Opens.mono (h : Opens env p Listed new s s') (hl : ∀ g, Listed g → Listed' g) :
    Opens env p Listed' new s s' where
  effects := h.effects
  subscribed := by
    obtain ⟨gs, hs, hf, ho, hgs⟩ := h.subscribed
    exact ⟨gs, hs, hf, ho, fun g hg => hl g (hgs g hg)⟩
  nodup := h.nodup
  subscribes topic peers ok he := by
    obtain ⟨hpeers, g, hg, htopic⟩ := h.subscribes topic peers ok he
    exact ⟨hpeers, g, hl g hg, htopic⟩
  joins g k ok he := (h.joins g k ok he).imp_left (hl g)

theorem Opens.trans (h : Opens env p Listed new s s') (h' : Opens env p Listed new' s' s'') :
    Opens env p Listed (new ++ new') s s'' where
  effects := by rw [h'.effects, h.effects, List.append_assoc]
  subscribed := by
    obtain ⟨gs, hs, hf, ho, hgs⟩ := h.subscribed
    obtain ⟨gs', hs', hf', ho', hgs'⟩ := h'.subscribed
    refine ⟨gs ++ gs', by rw [hs', hs, List.append_assoc], by rw [hf', hf, List.append_assoc],
      ?_, ?_⟩
    · rw [opened_append, ho, ho', List.map_append]
    · intro g hg
      exact (List.mem_append.1 hg).elim (hgs g) (hgs' g)
  nodup hn := h'.nodup (h.nodup hn)
  subscribes topic peers ok he :=
    (List.mem_append.1 he).elim (h.subscribes topic peers ok) (h'.subscribes topic peers ok)
  joins g k ok he := (List.mem_append.1 he).elim (h.joins g k ok) (h'.joins g k ok)

/-- A group that has a sender by the end of a stretch had one before, or was subscribed to. -/
theorem Opens.subscribe_mem (h : Opens env p Listed new s s') (hg : g ∈ s'.senders)
    (hn : g ∉ s.senders) : .subscribe (groupTopic env g) (peersOf env p) true ∈ new := by
  obtain ⟨gs, hs, -, ho, -⟩ := h.subscribed
  rw [hs, List.mem_append] at hg
  have hmem : groupTopic env g ∈ opened new := by
    rw [ho]
    exact List.mem_map_of_mem (hg.resolve_left hn)
  obtain ⟨peers, hpeers⟩ := mem_opened.1 hmem
  rwa [(h.subscribes _ _ _ hpeers).1] at hpeers

theorem Opens.senders_subset (h : Opens env p Listed new s s') (hg : g ∈ s.senders) :
    g ∈ s'.senders := by
  obtain ⟨gs, hs, -⟩ := h.subscribed
  rw [hs]
  exact List.mem_append_left _ hg

theorem Opens.unlisted (h : Opens env p Listed new s s') (hg : ¬ Listed g) :
    (g ∈ s'.senders ↔ g ∈ s.senders) ∧ (g ∈ s'.forwarders ↔ g ∈ s.forwarders) := by
  obtain ⟨gs, hs, hf, -, hgs⟩ := h.subscribed
  have hnot : g ∉ gs := fun hm => hg (hgs g hm)
  rw [hs, hf, List.mem_append, List.mem_append]
  exact ⟨or_iff_left hnot, or_iff_left hnot⟩

/-- A group tried stays tried in what comes after. -/
theorem Tried.trans_opens (ht : Tried env p s s' new g) (h : Opens env p Listed new' s' s'') :
    Tried env p s s'' (new ++ new') g where
  known hg k hk := by
    by_cases hs' : g ∈ s'.senders
    · refine (ht.known hs' k hk).imp (fun hj => ?_) (List.mem_append_left _)
      obtain ⟨ok, hj⟩ := hj
      exact ⟨ok, List.mem_append_left _ hj⟩
    · have hsub := h.subscribe_mem hg hs'
      rw [peersOf_of_spells hk] at hsub
      exact .inr (List.mem_append_right _ hsub)
  refused hg := List.mem_append_left _ (ht.refused fun hs' => hg (h.senders_subset hs'))
  tried hg := by
    obtain ⟨ok, he⟩ := ht.tried hg
    exact ⟨ok, List.mem_append_left _ he⟩

/-- A group tried has been tried since before. -/
theorem Opens.trans_tried (h : Opens env p Listed new s s') (ht : Tried env p s' s'' new' g) :
    Tried env p s s'' (new ++ new') g where
  known hg k hk := by
    refine (ht.known hg k hk).imp (fun hj => ?_) (List.mem_append_right _)
    obtain ⟨ok, hj⟩ := hj
    exact ⟨ok, List.mem_append_right _ hj⟩
  refused hg := List.mem_append_right _ (ht.refused hg)
  tried hg := by
    by_cases hs' : g ∈ s'.senders
    · exact ⟨true, List.mem_append_left _ (h.subscribe_mem hs' hg)⟩
    · obtain ⟨ok, he⟩ := ht.tried hs'
      exact ⟨ok, List.mem_append_right _ he⟩

/-! ## A message -/

theorem joinGroup_opens (env : DiscoveryEnv κ) (a : Answers) (p gid : String) (i : ℕ)
    (s : Discovery κ) :
    (s.joinGroup env a p gid i).Ends
      (fun s' => ∃ new, Opens env p (· = gid) new s s' ∧ Tried env p s s' new gid)
      (fun s' => ∃ new, Opens env p (· = gid) new s s') := by
  simp only [joinGroup]
  by_cases hg : gid ∈ s.senders
  · rw [if_pos hg]
    rcases hp : env.keys.fromStr p with e | pk
    · -- the sender is there, and no peer to add
      refine ⟨[], opens_quiet (List.append_nil _).symm rfl rfl (by simp), ?_, fun h => absurd hg h,
        fun h => absurd hg h⟩
      intro _ k hk
      cases hp.symm.trans hk
    · have hopens : Opens env p (· = gid) [.joinPeers gid pk (a.joined i)] s
          (s.emit (.joinPeers gid pk (a.joined i))) := by
        refine ⟨rfl, ⟨[], by simp [emit], by simp [emit], rfl, by simp⟩, fun h => h, by simp, ?_⟩
        intro g k ok h
        obtain ⟨rfl, rfl, -⟩ := Effect.joinPeers.inj (List.mem_singleton.1 h)
        exact ⟨rfl, hp⟩
      have htried : Tried env p s (s.emit (.joinPeers gid pk (a.joined i)))
          [.joinPeers gid pk (a.joined i)] gid := by
        refine ⟨fun _ k hk => .inl ⟨a.joined i, ?_⟩, fun h => absurd hg h, fun h => absurd hg h⟩
        obtain rfl := Except.ok.inj (hp.symm.trans hk)
        exact List.mem_singleton_self _
      dsimp only [Except.toOption]
      split_ifs
      · exact log_ends (fun _ => ⟨_, hopens, htried⟩) ⟨_, hopens⟩
      · exact ⟨_, hopens, htried⟩
  · rw [if_neg hg]
    have hsubscribes (ok : Bool) (topic : Digest) (peers : List κ) (ok' : Bool)
        (h : Effect.subscribe topic peers ok'
          ∈ [.subscribe (groupTopic env gid) (peersOf env p) ok]) :
        peers = peersOf env p ∧ ∃ g, g = gid ∧ topic = groupTopic env g := by
      obtain ⟨rfl, rfl, -⟩ := Effect.subscribe.inj (List.mem_singleton.1 h)
      exact ⟨rfl, gid, rfl, rfl⟩
    cases ha : a.subscribed i
    · have hopens : Opens env p (· = gid) [.subscribe (groupTopic env gid) (peersOf env p) false] s
          (s.emit (.subscribe (groupTopic env gid) (peersOf env p) false)) :=
        ⟨rfl, ⟨[], by simp [emit], by simp [emit], rfl, by simp⟩, fun h => h, hsubscribes false,
          by simp⟩
      have htried : Tried env p s (s.emit (.subscribe (groupTopic env gid) (peersOf env p) false))
          [.subscribe (groupTopic env gid) (peersOf env p) false] gid :=
        ⟨fun h => absurd h hg, fun _ => List.mem_singleton_self _,
          fun _ => ⟨false, List.mem_singleton_self _⟩⟩
      exact log_ends (fun _ => ⟨_, hopens, htried⟩) ⟨_, hopens⟩
    · have hnodup : s.senders.Nodup → (s.senders ++ [gid]).Nodup := fun h => by
        rw [List.nodup_append]
        refine ⟨h, List.nodup_singleton _, fun g hg' g' hgid heq => hg ?_⟩
        rwa [← List.mem_singleton.1 hgid, ← heq]
      have hopens : Opens env p (· = gid) [.subscribe (groupTopic env gid) (peersOf env p) true] s
          { s.emit (.subscribe (groupTopic env gid) (peersOf env p) true) with
            senders := s.senders ++ [gid], forwarders := s.forwarders ++ [gid] } :=
        ⟨rfl, ⟨[gid], rfl, rfl, rfl, by simp⟩, hnodup, hsubscribes true, by simp⟩
      have htried : Tried env p s
          { s.emit (.subscribe (groupTopic env gid) (peersOf env p) true) with
            senders := s.senders ++ [gid], forwarders := s.forwarders ++ [gid] }
          [.subscribe (groupTopic env gid) (peersOf env p) true] gid := by
        refine ⟨fun _ k hk => .inr ?_, fun h => ?_, fun _ => ⟨true, List.mem_singleton_self _⟩⟩
        · rw [peersOf_of_spells hk]
          exact List.mem_singleton_self _
        · exact absurd (List.mem_append_right _ (List.mem_singleton_self gid)) h
      exact log_ends (fun _ => ⟨_, hopens, htried⟩) ⟨_, hopens⟩

theorem trackPeer_opens (env : DiscoveryEnv κ) (Listed : String → Prop) (a : Answers)
    (p gid : String) (i : ℕ) (q : Discovery κ × Introductions) :
    ∃ new, Opens env p Listed new q.1 (trackPeer env a p gid i q).state.1 := by
  unfold trackPeer
  rcases q.1.tracker.upsertPeer (a.fails i) (a.clock i) gid p with ⟨_ | isNew, tracker⟩
  · exact ⟨[], opens_quiet (List.append_nil _).symm rfl rfl (by simp)⟩
  · refine ⟨[.track gid p], ?_⟩
    rw [Exec.state_map, state_log]
    exact opens_quiet rfl rfl rfl (by simp [isQuiet])

theorem handleGroup_opens (env : DiscoveryEnv κ) (a : Answers) (p : String)
    (q : Discovery κ × Introductions) (group : Json × ℕ)
    (hl : ∀ gid, group.1 = .str gid → Listed gid) :
    (handleGroup env a p q group).Ends
      (fun q' => ∃ new, Opens env p Listed new q.1 q'.1
        ∧ ∀ gid, group.1 = .str gid → Tried env p q.1 q'.1 new gid)
      (fun q' => ∃ new, Opens env p Listed new q.1 q'.1) := by
  unfold handleGroup
  split
  · rename_i gid hgid
    have hstr := Json.asStr_eq_some.1 hgid
    have hjoin := joinGroup_opens env a p gid group.2 q.1
    have hmono {new : List (Effect κ)} {s' : Discovery κ} (h : Opens env p (· = gid) new q.1 s') :
        Opens env p Listed new q.1 s' := h.mono fun g hg => hg ▸ hl gid hstr
    rcases hj : q.1.joinGroup env a p gid group.2 with m | m <;> rw [hj] at hjoin
    · obtain ⟨new, hopens, htried⟩ := hjoin
      obtain ⟨new', hopens'⟩ := trackPeer_opens env Listed a p gid group.2 (m, q.2)
      have htrans := (hmono hopens).trans hopens'
      rw [Exec.map, Exec.ok_bind]
      rcases ht : trackPeer env a p gid group.2 (m, q.2) with q' | q' <;>
        rw [ht] at htrans hopens' <;> rw [Exec.state] at htrans hopens'
      · refine ⟨_, htrans, fun gid' hgid' => ?_⟩
        obtain rfl := Json.str.inj (hstr.symm.trans hgid')
        exact htried.trans_opens hopens'
      · exact ⟨_, htrans⟩
    · obtain ⟨new, hopens⟩ := hjoin
      exact ⟨new, hmono hopens⟩
  · rename_i hnone
    exact ⟨[], opens_quiet (List.append_nil _).symm rfl rfl (by simp),
      fun gid hgid => absurd hgid (Json.ne_str_of_asStr hnone gid)⟩

/-- The loop's invariant: the groups done have been tried. -/
theorem forEach_opens (env : DiscoveryEnv κ) (a : Answers) (p : String) (s : Discovery κ)
    (groups : List Json) :
    (Exec.forEach (handleGroup env a p) groups.zipIdx (s, [])).Ends
      (fun q => ∃ new, Opens env p (Json.str · ∈ groups) new s q.1
        ∧ ∀ g, Json.str g ∈ groups → Tried env p s q.1 new g)
      (fun q => ∃ new, Opens env p (Json.str · ∈ groups) new s q.1) := by
  have hloop : (Exec.forEach (handleGroup env a p) groups.zipIdx (s, [])).Ends
      (fun q => ∃ new, Opens env p (Json.str · ∈ groups) new s q.1
        ∧ ∀ item ∈ groups.zipIdx, ∀ g, item.1 = .str g → Tried env p s q.1 new g)
      (fun q => ∃ new, Opens env p (Json.str · ∈ groups) new s q.1) := by
    refine Exec.ends_forEach (I := fun (pre : List (Json × ℕ))
      (q : Discovery κ × Introductions) =>
      ∃ new, Opens env p (Json.str · ∈ groups) new s q.1
        ∧ ∀ item ∈ pre, ∀ g, item.1 = .str g → Tried env p s q.1 new g) ?_
      ⟨[], opens_quiet (List.append_nil _).symm rfl rfl (by simp), by simp⟩
    intro pre group suf q hsplit hq
    obtain ⟨new, hopens, hpre⟩ := hq
    have hlisted : ∀ gid, group.1 = .str gid → Json.str gid ∈ groups := by
      intro gid hgid
      rw [(split_of_zipIdx hsplit).1, ← hgid]
      exact List.mem_append_right _ List.mem_cons_self
    refine (handleGroup_opens env a p q group hlisted).mono (fun q' hq' => ?_) fun q' hq' => ?_
    · obtain ⟨new', hopens', htried⟩ := hq'
      refine ⟨_, hopens.trans hopens', fun item hitem g hg => ?_⟩
      rcases List.mem_append.1 hitem with hitem | hitem
      · exact (hpre item hitem g hg).trans_opens hopens'
      · rw [List.mem_singleton.1 hitem] at hg
        exact hopens.trans_tried (htried g hg)
    · obtain ⟨new', hopens'⟩ := hq'
      exact ⟨_, hopens.trans hopens'⟩
  refine hloop.mono (fun q hq => ?_) fun q hq => hq
  obtain ⟨new, hopens, htried⟩ := hq
  refine ⟨new, hopens, fun g hg => ?_⟩
  rw [← List.zipIdx_map_fst 0 groups] at hg
  obtain ⟨item, hitem, hstr⟩ := List.mem_map.1 hg
  exact htried item hitem g hstr

/-- The broadcasts after it ask nothing of a group's topic. -/
theorem Broadcasts.opens {x : Exec (Discovery κ × Introductions)} (hb : Broadcasts x s')
    (env : DiscoveryEnv κ) (p : String) (Listed : String → Prop) :
    ∃ new, Opens env p Listed new x.state.1 s' := by
  obtain ⟨sent, -, -, heffects⟩ := hb.sent
  refine ⟨_, opens_quiet heffects hb.senders hb.forwarders fun e he => ?_⟩
  obtain ⟨intro, -, rfl⟩ := List.mem_map.1 he
  rfl

theorem received_opens {content : ByteArray} {groups : List Json}
    (hl : listing env content = some (p, groups))
    (h : s.step env (.received content a) = some s') :
    ∃ new, Opens env p (Json.str · ∈ groups) new s s'
      ∧ (s'.alive = true → ∀ g, Json.str g ∈ groups → Tried env p s s' new g) := by
  rcases step_cases h with ⟨-, hb⟩ | ⟨gid, content', now, forwarders, hturn, -⟩
  · obtain ⟨sent, hsent⟩ := hb.opens env p (Json.str · ∈ groups)
    have halive := hb.alive
    rcases received_cases env s content a with hg | ⟨hnone, -⟩ | ⟨p', groups', hl', hg⟩
    · rw [hg] at hsent halive
      exact ⟨sent, hsent, fun ha => absurd (halive ha).1 Bool.false_ne_true⟩
    · rw [hnone] at hl
      cases hl
    · obtain ⟨rfl, rfl⟩ := Prod.mk.inj (Option.some.inj (hl.symm.trans hl'))
      have hloop := forEach_opens env a p s groups
      rw [hg] at hsent halive
      rcases hx : Exec.forEach (handleGroup env a p) groups.zipIdx (s, []) with q | q <;>
        rw [hx] at hloop hsent halive <;> rw [Exec.state] at hsent
      · obtain ⟨new, hopens, htried⟩ := hloop
        exact ⟨_, hopens.trans hsent, fun _ g hg => (htried g hg).trans_opens hsent⟩
      · obtain ⟨new, hopens⟩ := hloop
        exact ⟨_, hopens.trans hsent, fun ha => absurd (halive ha).1 Bool.false_ne_true⟩
  · cases hturn

/-! ## A run -/

/-- A turn that is no message listing groups asks nothing of a group's topic. -/
theorem gather_opens (env : DiscoveryEnv κ) (s : Discovery κ) {turn : Turn κ}
    (hturn : ∀ content a, turn = .received content a → listing env content = none) :
    ∃ new, Opens env p Listed new s (s.gather env turn).state.1 := by
  have hsame : Opens env p Listed [] s s :=
    opens_quiet (List.append_nil _).symm rfl rfl (by simp)
  cases turn with
  | received content a =>
    rcases received_cases env s content a with h | ⟨-, h⟩ | ⟨p', groups, hl, -⟩
    · rw [h]
      exact ⟨[], hsame⟩
    · rw [h]
      exact ⟨[], hsame⟩
    · rw [hturn content a rfl] at hl
      cases hl
  | announceTick =>
    exact ⟨[.announce env.nodeId], opens_quiet rfl rfl rfl (by simp [isQuiet])⟩
  | neighborUp peer =>
    rw [gather, Exec.state_map, neighborUp, state_log]
    exact ⟨[], hsame⟩
  | neighborDown peer fails now =>
    refine ⟨[], ?_⟩
    rw [gather]
    rcases log_cases env [Utf8.sliceTo (env.keys.toStr peer) 16] s with h | h
    · simp only [h, Exec.map, Exec.ok_bind]
      rcases s.tracker.markOffline fails now (env.keys.toStr peer) with ⟨_ | affected, tracker⟩ <;>
        exact opens_quiet (List.append_nil _).symm rfl rfl (by simp)
    · simp only [h]
      exact hsame
  | pruneTick fails now => exact ⟨[], opens_quiet (List.append_nil _).symm rfl rfl (by simp)⟩
  | other => exact ⟨[], hsame⟩
  | recvGroup gid content now => exact ⟨[], hsame⟩

/-- A turn opens subscriptions, those a message lists if it is one, or is the turn of a forwarder,
which may end. -/
theorem step_opens {turn : Turn κ} (h : s.step env turn = some s') :
    (∃ new p, Opens env p (fun g => ∃ content a groups, turn = .received content a
        ∧ listing env content = some (p, groups) ∧ .str g ∈ groups) new s s')
      ∨ ∃ forwarders, s' = { s with forwarders := forwarders }
        ∧ forwarders.Sublist s.forwarders := by
  by_cases hmsg : ∃ content a l, turn = .received content a ∧ listing env content = some l
  · obtain ⟨content, a, ⟨p, groups⟩, rfl, hl⟩ := hmsg
    obtain ⟨new, hopens, -⟩ := received_opens hl h
    exact .inl ⟨new, p, hopens.mono fun g hg => ⟨content, a, groups, rfl, hl, hg⟩⟩
  · have hturn : ∀ content a, turn = .received content a → listing env content = none := by
      intro content a ht
      rcases hl : listing env content with _ | l
      · rfl
      · exact absurd ⟨content, a, l, ht, hl⟩ hmsg
    rcases step_cases h with ⟨-, hb⟩ | ⟨gid, content, now, forwarders, -, rfl, hend⟩
    · obtain ⟨new, hnew⟩ := gather_opens (p := "") env s hturn
      obtain ⟨sent, hsent⟩ := hb.opens env "" _
      exact .inl ⟨_, "", hnew.trans hsent⟩
    · refine .inr ⟨forwarders, rfl, ?_⟩
      rcases hend with rfl | ⟨-, rfl⟩
      · exact List.Sublist.refl _
      · exact List.erase_sublist

/-- How many forwarders a run spawns for a group: a turn that spawns some ends none. -/
def spawns (env : DiscoveryEnv κ) (g : String) : Discovery κ → List (Turn κ) → ℕ
  | _, [] => 0
  | s, turn :: turns =>
    match s.step env turn with
    | some s' => s'.forwarders.count g - s.forwarders.count g + spawns env g s' turns
    | none => 0

/-- A forwarder is spawned with the entry in the map. -/
theorem count_of_step {turn : Turn κ} (h : s.step env turn = some s') (g : String) :
    s'.senders.count g
      = s.senders.count g + (s'.forwarders.count g - s.forwarders.count g) := by
  rcases step_opens h with ⟨new, p, hopens⟩ | ⟨forwarders, rfl, hsub⟩
  · obtain ⟨gs, hsenders, hforwarders, -⟩ := hopens.subscribed
    rw [hsenders, hforwarders, List.count_append, List.count_append]
    omega
  · have hle := hsub.count_le g
    show s.senders.count g = s.senders.count g + (forwarders.count g - s.forwarders.count g)
    omega

theorem spawns_of_run (g : String) : ∀ {turns : List (Turn κ)} {s : Discovery κ},
    run env s turns = some s' → s'.senders.count g = s.senders.count g + spawns env g s turns
  | [], s, h => by
    obtain rfl := Machine.run_nil.1 h
    rfl
  | turn :: turns, s, h => by
    obtain ⟨m, hm, h⟩ := Machine.run_cons.1 h
    have hcount := count_of_step hm g
    have ih := spawns_of_run g h
    simp only [spawns, hm]
    omega

/-- The groups subscribed to are those of the map, each once, and a forwarder running is one of
theirs. -/
structure OncePerGroup (env : DiscoveryEnv κ) (s : Discovery κ) : Prop where
  nodup : s.senders.Nodup
  opened : opened s.effects = s.senders.map (groupTopic env)
  forwarders : s.forwarders.Sublist s.senders

theorem OncePerGroup.opens (hs : OncePerGroup env s) (h : Opens env p Listed new s s') :
    OncePerGroup env s' := by
  obtain ⟨gs, hsenders, hforwarders, hopened, -⟩ := h.subscribed
  refine ⟨h.nodup hs.nodup, ?_, ?_⟩
  · rw [h.effects, opened_append, hs.opened, hopened, hsenders, List.map_append]
  · rw [hforwarders, hsenders]
    exact hs.forwarders.append (List.Sublist.refl gs)

theorem OncePerGroup.step {turn : Turn κ} (hs : OncePerGroup env s)
    (h : s.step env turn = some s') : OncePerGroup env s' := by
  rcases step_opens h with ⟨new, p, hopens⟩ | ⟨forwarders, rfl, hsub⟩
  · exact hs.opens hopens
  · exact ⟨hs.nodup, hs.opened, hsub.trans hs.forwarders⟩

/-- In every run of a process each group is subscribed to, with success, once at most, and at most
one forwarder spawned for it; a message tries each group it lists, unless it panics the task, and
leaves the subscriptions of all others alone; and no other turn subscribes to any. -/
theorem subscriptions_once {tracker : PeerTracker} {turns : List (Turn κ)}
    (h : run env (start tracker) turns = some s) :
    OncePerGroup env s
      ∧ (∀ g, spawns env g (start tracker) turns ≤ 1)
      ∧ (∀ content a p groups s', listing env content = some (p, groups) →
        s.step env (.received content a) = some s' →
        ∃ new, Opens env p (Json.str · ∈ groups) new s s'
          ∧ (∀ g, Json.str g ∉ groups → (g ∈ s'.senders ↔ g ∈ s.senders)
            ∧ (g ∈ s'.forwarders ↔ g ∈ s.forwarders))
          ∧ (s'.alive = true → ∀ g, Json.str g ∈ groups → Tried env p s s' new g))
      ∧ ∀ turn s', (∀ content a, turn = .received content a → listing env content = none) →
        s.step env turn = some s' → s'.senders = s.senders
          ∧ opened s'.effects = opened s.effects ∧ s'.forwarders.Sublist s.forwarders := by
  have honce : OncePerGroup env s :=
    Machine.run_invariant (fun _ _ _ hs hstep => OncePerGroup.step hs hstep)
      ⟨List.nodup_nil, rfl, List.Sublist.refl _⟩ h
  refine ⟨honce, fun g => ?_, fun content a p groups s' hl hstep => ?_,
    fun turn s' hturn hstep => ?_⟩
  · have hspawns := spawns_of_run g h
    have hle := List.nodup_iff_count_le_one.1 honce.nodup g
    omega
  · obtain ⟨new, hopens, htried⟩ := received_opens hl hstep
    exact ⟨new, hopens, fun g hg => hopens.unlisted hg, htried⟩
  · rcases step_opens hstep with ⟨new, p, hopens⟩ | ⟨forwarders, rfl, hsub⟩
    · obtain ⟨gs, hsenders, hforwarders, hopened, hgs⟩ := hopens.subscribed
      obtain rfl : gs = [] := by
        refine List.eq_nil_iff_forall_not_mem.2 fun g hg => ?_
        obtain ⟨content, a, groups, ht, hl, -⟩ := hgs g hg
        rw [hturn content a ht] at hl
        cases hl
      rw [List.append_nil] at hsenders hforwarders
      refine ⟨hsenders, ?_, hforwarders ▸ List.Sublist.refl _⟩
      rw [hopens.effects, opened_append, hopened, List.map_nil, List.append_nil]
    · exact ⟨rfl, rfl, hsub⟩

theorem subscriptions_once_joinRust : ∃ s' new,
    (boot .empty).step hiEnv (.received joinRust.toVec fine) = some s'
      ∧ Opens hiEnv "peer" (Json.str · ∈ [Json.str "rust"]) new (boot .empty) s'
      ∧ Tried hiEnv "peer" (boot .empty) s' new "rust" := by
  have hl : listing hiEnv joinRust.toVec = some ("peer", [.str "rust"]) := by
    rw [listing, json_toVec]
    rfl
  have hrun : run hiEnv (start ((PeerTracker.new .empty).loadCache PeerTracker.noFault).2) []
      = some (boot .empty) := rfl
  obtain ⟨new, hopens, -, htried⟩ := (subscriptions_once hrun).2.2.1 joinRust.toVec fine "peer"
    [.str "rust"] _ hl (step_joinRust fine)
  exact ⟨_, new, step_joinRust fine, hopens, htried (by decide +kernel) "rust" (by simp)⟩

end Discovery

end XaeroFlux
