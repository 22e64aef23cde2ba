import XaeroFlux.Proofs.Lifetime

/-!
# Relaying

A group is tracked after its topic is subscribed to, whether that went well or not. Where it always
does, a group on the roster has a sender and a forwarder (`relays_throughout`); a forwarder ends
only over an id that no log statement can cut, and such a group never gets as far as the roster.
-/

namespace XaeroFlux

namespace Discovery

variable {κ : Type} {env : DiscoveryEnv κ} {s s' : Discovery κ} {a : Answers}
  {fromNode gid g : String} {i : ℕ}

/-- The group has a sender, and a forwarder that can log what it forwards. -/
def Relayed (env : DiscoveryEnv κ) (s : Discovery κ) (g : String) : Prop :=
  g ∈ s.senders ∧ g ∈ s.forwarders ∧ (env.info = true → (short g).isSome = true)

/-- The groups tracked are relayed. -/
def Tracked (env : DiscoveryEnv κ) (s : Discovery κ) : Prop :=
  s.tracker.Only fun g _ => Relayed env s g

/-- The groups subscribed to are relayed, as they are while the task has not panicked. -/
def Forwarded (env : DiscoveryEnv κ) (s : Discovery κ) : Prop := ∀ g ∈ s.senders, Relayed env s g

/-- No subscription is given up. -/
structure Extends (s s' : Discovery κ) : Prop where
  senders : s.senders ⊆ s'.senders
  forwarders : s.forwarders ⊆ s'.forwarders

theorem Extends.of_eq (hs : s'.senders = s.senders) (hf : s'.forwarders = s.forwarders) :
    Extends s s' :=
  ⟨fun _ h => hs ▸ h, fun _ h => hf ▸ h⟩

theorem Extends.relayed (h : Extends s s') (hg : Relayed env s g) : Relayed env s' g :=
  ⟨h.senders hg.1, h.forwarders hg.2.1, hg.2.2⟩

theorem Forwarded.of_eq (h : Forwarded env s) (hs : s'.senders = s.senders)
    (hf : s'.forwarders = s.forwarders) : Forwarded env s' := by
  intro g hg
  rw [hs] at hg
  exact (Extends.of_eq hs hf).relayed (h g hg)

theorem Extends.tracked (h : Extends s s') (htracker : s'.tracker = s.tracker)
    (hs : Tracked env s) : Tracked env s' := by
  unfold Tracked
  rw [htracker]
  exact hs.mono fun g _ hg => h.relayed hg

/-! ## The loop over a message's groups -/

theorem log_ends {cuts : List (Option String)} {Q J : Discovery κ → Prop}
    (hQ : (env.info = true → cuts.all Option.isSome = true) → Q s) (hJ : J s) :
    (s.log env cuts).Ends Q J := by
  unfold log
  split_ifs with h
  · refine hQ fun hi => ?_
    simpa [logs, hi] using h
  · exact hJ

theorem joinGroup_ends (fromNode : String) (hf : Forwarded env s)
    (hsub : gid ∉ s.senders → a.subscribed i = true) :
    (s.joinGroup env a fromNode gid i).Ends
      (fun s' => s'.tracker = s.tracker ∧ Extends s s' ∧ Forwarded env s' ∧ gid ∈ s'.senders)
      (fun s' => s'.tracker = s.tracker ∧ Extends s s') := by
  simp only [joinGroup]
  by_cases hg : gid ∈ s.senders
  · rw [if_pos hg]
    rcases (env.keys.fromStr fromNode).toOption with _ | pk
    · exact ⟨rfl, .of_eq rfl rfl, hf, hg⟩
    · cases a.joined i
      · exact ⟨rfl, .of_eq rfl rfl, hf, hg⟩
      · exact log_ends (fun _ => ⟨rfl, .of_eq rfl rfl, hf, hg⟩) ⟨rfl, .of_eq rfl rfl⟩
  · have hext : ∀ effects, Extends s
        { s with senders := s.senders ++ [gid], forwarders := s.forwarders ++ [gid],
                 effects := effects } := fun _ =>
      ⟨fun _ h => List.mem_append_left _ h, fun _ h => List.mem_append_left _ h⟩
    rw [if_neg hg, hsub hg]
    refine log_ends (fun hcut => ⟨rfl, hext _, fun g hg' => ?_, ?_⟩) ⟨rfl, hext _⟩
    · rcases List.mem_append.1 hg' with hg' | hg'
      · exact (hext _).relayed (hf g hg')
      · rw [List.mem_singleton.1 hg']
        refine ⟨List.mem_append_right _ List.mem_cons_self,
          List.mem_append_right _ List.mem_cons_self, fun hi => ?_⟩
        have := hcut hi
        rw [List.all_cons, Bool.and_eq_true] at this
        exact this.1
    · exact List.mem_append_right _ List.mem_cons_self

theorem trackPeer_ends {p : Discovery κ × Introductions} (hp : Tracked env p.1)
    (hg : Relayed env p.1 gid) :
    (trackPeer env a fromNode gid i p).Ends
      (fun p' => Tracked env p'.1 ∧ p'.1.senders = p.1.senders ∧ p'.1.forwarders = p.1.forwarders)
      (fun p' => Tracked env p'.1) := by
  have hup := PeerTracker.Only.upsertPeer hp (p := fromNode) hg (a.fails i) (a.clock i)
  unfold trackPeer
  rcases h : p.1.tracker.upsertPeer (a.fails i) (a.clock i) gid fromNode
    with ⟨_ | isNew, tracker⟩ <;> rw [h] at hup
  · exact ⟨hup, rfl, rfl⟩
  · exact .map (log_ends (fun _ => ⟨hup, rfl, rfl⟩) hup)

theorem handleGroup_ends {p : Discovery κ × Introductions} (hp : Tracked env p.1)
    (hf : Forwarded env p.1) {group : Json × ℕ}
    (hsub : ∀ gid, group.1 = .str gid → gid ∉ p.1.senders → a.subscribed group.2 = true) :
    (handleGroup env a fromNode p group).Ends
      (fun p' => Tracked env p'.1 ∧ Forwarded env p'.1 ∧ p.1.senders ⊆ p'.1.senders
        ∧ ∀ gid, group.1 = .str gid → gid ∈ p'.1.senders)
      (fun p' => Tracked env p'.1) := by
  unfold handleGroup
  split
  · rename_i gid hgid
    have hstr := Json.asStr_eq_some.1 hgid
    have hjoin := joinGroup_ends fromNode hf (hsub gid hstr)
    refine Exec.Ends.bind (Q := fun q : Discovery κ × Introductions =>
      q.1.tracker = p.1.tracker ∧ Extends p.1 q.1 ∧ Forwarded env q.1 ∧ gid ∈ q.1.senders)
      (.map (hjoin.mono (fun m hm => hm) fun m hm => hm.2.tracked hm.1 hp)) fun q hq => ?_
    obtain ⟨htracker, hext, hf', hgid'⟩ := hq
    refine (trackPeer_ends (hext.tracked htracker hp) (hf' gid hgid')).mono (fun p' hp' => ?_)
      fun p' hp' => hp'
    obtain ⟨htracked, hsenders, hforwarders⟩ := hp'
    refine ⟨htracked, hf'.of_eq hsenders hforwarders, ?_, fun gid' hgid'' => ?_⟩
    · rw [hsenders]
      exact hext.senders
    · obtain rfl := Json.str.inj (hstr.symm.trans hgid'')
      rw [hsenders]
      exact hgid'
  · rename_i hnone
    exact ⟨hp, hf, fun g hg => hg, fun gid hgid => absurd hgid (Json.ne_str_of_asStr hnone gid)⟩

theorem split_of_zipIdx {α : Type} {as : List α} {pre suf : List (α × ℕ)} {item : α × ℕ}
    (h : as.zipIdx = pre ++ item :: suf) :
    as = pre.map Prod.fst ++ item.1 :: suf.map Prod.fst ∧ item.2 = pre.length := by
  refine ⟨?_, ?_⟩
  · rw [← List.zipIdx_map_fst 0 as, h]
    simp
  · have hget : as.zipIdx[pre.length]? = some item := by
      rw [h, List.getElem?_append_right (Nat.le_refl _)]
      simp
    rw [List.getElem?_zipIdx, Option.map_eq_some_iff] at hget
    obtain ⟨b, -, rfl⟩ := hget
    simp

/-- The loop's invariant: the groups done are subscribed to, so one that is not is there for the
first time. -/
structure Subscribing (env : DiscoveryEnv κ) (s : Discovery κ) (pre : List (Json × ℕ))
    (p : Discovery κ × Introductions) : Prop where
  tracked : Tracked env p.1
  forwarded : Forwarded env p.1
  senders : s.senders ⊆ p.1.senders
  done : ∀ item ∈ pre, ∀ gid, item.1 = .str gid → gid ∈ p.1.senders

theorem forEach_subscribing (hs : Tracked env s) (hf : Forwarded env s) {groups : List Json}
    (hsub : ∀ pre gid post, groups = pre ++ .str gid :: post → gid ∉ s.senders →
      Json.str gid ∉ pre → a.subscribed pre.length = true) :
    (Exec.forEach (handleGroup env a fromNode) groups.zipIdx (s, [])).Ends
      (Subscribing env s groups.zipIdx) (fun p => Tracked env p.1) := by
  refine Exec.ends_forEach (I := Subscribing env s) ?_ ⟨hs, hf, fun _ h => h, by simp⟩
  intro pre group suf p hsplit hp
  obtain ⟨hgroups, hi⟩ := split_of_zipIdx hsplit
  have hsub' : ∀ gid, group.1 = .str gid → gid ∉ p.1.senders → a.subscribed group.2 = true := by
    intro gid hgid hnew
    rw [hgid] at hgroups
    rw [hi, ← List.length_map Prod.fst]
    refine hsub _ gid _ hgroups (fun h => hnew (hp.senders h)) fun h => ?_
    obtain ⟨item, hitem, hstr⟩ := List.mem_map.1 h
    exact hnew (hp.done item hitem gid hstr)
  refine (handleGroup_ends hp.tracked hp.forwarded hsub').mono (fun p' hp' => ?_) fun p' hp' => hp'
  obtain ⟨htracked, hforwarded, hgrow, hgroup⟩ := hp'
  refine ⟨htracked, hforwarded, fun g hg => hgrow (hp.senders hg), fun item hitem gid hgid => ?_⟩
  rcases List.mem_append.1 hitem with hitem | hitem
  · exact hgrow (hp.done item hitem gid hgid)
  · rw [List.mem_singleton.1 hitem] at hgid
    exact hgroup gid hgid

/-! ## A turn -/

theorem gather_received_tracked (hs : Tracked env s) (hf : Forwarded env s) {content : ByteArray}
    (hact : KeepsRelaying env s (.turn (.received content a))) :
    (s.gather env (.received content a)).Ends
      (fun p => Tracked env p.1 ∧ Forwarded env p.1) (fun p => Tracked env p.1) := by
  rcases received_cases env s content a with h | ⟨-, h⟩ | ⟨fromNode, groups, hl, h⟩
  · rw [h]
    exact hs
  · rw [h]
    exact ⟨hs, hf⟩
  · rw [h]
    refine (forEach_subscribing hs hf fun pre gid post hgroups hnew hfirst => ?_).mono
      (fun p hp => ⟨hp.tracked, hp.forwarded⟩) fun p hp => hp
    rw [hgroups] at hl
    exact hact.subscribed content a fromNode pre gid post rfl hl hnew hfirst

/-- The groups tracked are relayed, and so are those subscribed to unless the task has panicked. -/
structure Relaying (env : DiscoveryEnv κ) (s : Discovery κ) : Prop where
  tracked : Tracked env s
  forwarded : s.alive = true → Forwarded env s

theorem Relaying.relays (h : Relaying env s) : Relays s := by
  intro g hg
  obtain ⟨p, hp⟩ := (PeerTracker.mem_getActiveGroups s.tracker).1 hg
  obtain ⟨hsender, hforwarder, -⟩ := h.tracked.cache g p hp
  exact ⟨hsender, hforwarder⟩

theorem relaying_boot {rows : PeerTable} (hrows : ∀ r ∈ rows, r.isOnline = false) :
    Relaying env (boot rows) := by
  refine ⟨boot_only fun r hr ho => ?_, fun _ g hg => ?_⟩
  · rw [hrows r hr] at ho
    simp at ho
  · simp [boot, start] at hg

/-- A forwarder that ends is that of no group relayed. -/
theorem Relaying.recvGroup {content : ByteArray} {now : UInt64} (h : Relaying env s)
    (hnone : forwardGroup env.toEnv gid content now = none) :
    Relaying env { s with forwarders := s.forwarders.erase gid } := by
  have hkeep : ∀ g, Relayed env s g →
      Relayed env { s with forwarders := s.forwarders.erase gid } g := by
    intro g hg
    obtain ⟨hsender, hforwarder, hcut⟩ := hg
    refine ⟨hsender, (List.mem_erase_of_ne ?_).2 hforwarder, hcut⟩
    rintro rfl
    rw [← forwardGroup_isSome env.toEnv, hnone] at hcut
    simp at hcut
  exact ⟨h.tracked.mono fun g _ hg => hkeep g hg, fun ha g hg => hkeep g (h.forwarded ha g hg)⟩

theorem Relaying.received {content : ByteArray} (hs : Relaying env s) (ha : s.alive = true)
    (hact : KeepsRelaying env s (.turn (.received content a)))
    (hb : Broadcasts (s.gather env (.received content a)) s') : Relaying env s' := by
  have hg := gather_received_tracked hs.tracked (hs.forwarded ha) hact
  refine ⟨?_, fun ha' => ?_⟩
  · exact (Extends.of_eq hb.senders hb.forwarders).tracked hb.tracker (hg.state fun p hp => hp.1)
  · obtain ⟨p, hp⟩ := Exec.isOk_iff.1 (hb.alive ha').1
    have hsenders := hb.senders
    have hforwarders := hb.forwarders
    rw [hp] at hg hsenders hforwarders
    exact hg.2.of_eq hsenders hforwarders

theorem Relaying.step {act : LifeAct κ} (hs : Relaying env s) (hact : KeepsRelaying env s act)
    (h : lifeStep env s act = some s') : Relaying env s' := by
  cases act with
  | restart =>
    obtain rfl := Option.some.inj h
    exact relaying_boot (hact.restarted rfl)
  | turn turn =>
    rcases step_cases h with ⟨ha, hb⟩ | ⟨gid, content, now, forwarders, rfl, rfl, hend⟩
    · rcases turn.received_or with ⟨content, a, rfl⟩ | hturn
      · exact hs.received ha hact hb
      · obtain ⟨hsenders, hforwarders⟩ := gather_subscriptions env s hturn
        have hsenders' := hb.senders.trans hsenders
        have hforwarders' := hb.forwarders.trans hforwarders
        refine ⟨?_, fun _ => (hs.forwarded ha).of_eq hsenders' hforwarders'⟩
        have honly : s'.tracker.Only fun g _ => Relayed env s g := by
          refine lifeStep_only hs.tracked (fun p g hann => ?_) h
          obtain ⟨content, a, hact, -⟩ := hann
          exact absurd (LifeAct.turn.inj hact) (hturn content a)
        exact honly.mono fun g _ hg => (Extends.of_eq hsenders' hforwarders').relayed hg
    · rcases hend with rfl | ⟨hnone, rfl⟩
      · exact hs
      · exact hs.recvGroup hnone

/-- While what it subscribes to it gets, and no row is online at a restart, the task relays each
group that it advertises. -/
theorem relays_throughout {rows : PeerTable} (hrows : ∀ r ∈ rows, r.isOnline = false)
    {acts : List (LifeAct κ)}
    (hacts : Machine.EachStep (lifeStep env) (boot rows) acts fun _ => KeepsRelaying env) :
    Machine.Throughout (lifeStep env) (boot rows) acts fun _ => Relays := by
  have hrelaying : Machine.Throughout (lifeStep env) (boot rows) acts fun _ => Relaying env :=
    Machine.throughout_of_eachStep (relaying_boot hrows)
      (fun _ _ _ _ _ hs h hact => hs.step hact h) hacts
  intro pre suf s hsplit hrun
  exact (hrelaying pre suf s hsplit hrun).relays

/-- Gossip takes no subscription. -/
def refused : Answers := { fine with subscribed := fun _ => false }

theorem step_joinRust (a : Answers) : (boot .empty).step hiEnv (.received joinRust.toVec a) =
    some (settle ((boot .empty).groupsExchange hiEnv a joinRust)) := by
  rw [step, handleReceived, json_toVec]
  rfl

theorem refused_not_relayed :
    ¬ Machine.Throughout (lifeStep hiEnv) (boot .empty) [.turn (.received joinRust.toVec refused)]
      fun _ => Relays := by
  intro h
  have hrelays := h _ [] _ (List.append_nil _).symm
    (Machine.run_cons.2 ⟨_, step_joinRust refused, rfl⟩)
  have hactive := hrelays "rust" (by decide +kernel)
  revert hactive
  decide +kernel

theorem relays_throughout_joinRust :
    Machine.Throughout (lifeStep hiEnv) (boot .empty) [.turn (.received joinRust.toVec fine)]
      fun _ => Relays := by
  refine relays_throughout (by simp)
    (Machine.eachStep_cons.2 ⟨⟨?_, ?_⟩, fun _ _ => Machine.eachStep_nil⟩)
  · intro content a fromNode pre gid post hact _ _ _
    obtain ⟨rfl, rfl⟩ := Turn.received.inj (LifeAct.turn.inj hact)
    rfl
  · intro hact
    simp at hact

end Discovery

end XaeroFlux
