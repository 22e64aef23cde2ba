import XaeroFlux.Proofs.Lifetime

/-!
# The rosters advertised

What a turn introduces it reads off the tracker first, and `groups_exchange` does so in a loop that
goes on tracking. But the loop tracks one peer, that of the message, and notes a group with that
peer in it already, so what it noted is the roster still when it is broadcast (`Noting`).
-/

namespace XaeroFlux

namespace Discovery

variable {κ : Type} {env : DiscoveryEnv κ} {s s' s₀ : Discovery κ} {a : Answers}
  {fromNode gid g : String} {p p' : Discovery κ × Introductions}

@[simp] theorem introduced_append (es es' : List (Effect κ)) :
    introduced (es ++ es') = introduced es ++ introduced es' :=
  List.filterMap_append

@[simp] theorem introduced_introduction (intros : Introductions) :
    introduced (intros.map (introduction (κ := κ))) =
      intros.map fun i => peerIntroductionJson i.1 i.2 := by
  simp [introduced, introduction, List.filterMap_map, Function.comp_def]

/-- Nothing is introduced yet, and what is to be is as the tracker has it. -/
structure Gathered (s₀ : Discovery κ) (p : Discovery κ × Introductions) : Prop where
  agrees : p.1.tracker.Agrees
  introduced : introduced p.1.effects = introduced s₀.effects
  live : ∀ i ∈ p.2, i.2 = p.1.tracker.getPeers i.1 ∧ 1 < i.2.length

/-! ## The loop over a message's groups -/

/-- The peer tracked in the group, and the group's introduction noted. -/
structure Tracks (fromNode gid : String) (p p' : Discovery κ × Introductions) : Prop where
  tracker : ∃ now, p'.1.tracker = p.1.tracker.apply (.upsertPeer gid fromNode now)
  introduced : introduced p'.1.effects = introduced p.1.effects
  notes : p'.2 = p.2 ++ if 1 < (p'.1.tracker.getPeers gid).length
    then [(gid, p'.1.tracker.getPeers gid)] else []

section Tracks

variable (ht : Tracks fromNode gid p p')

include ht

theorem Tracks.mem : fromNode ∈ p'.1.tracker.getPeers gid := by
  obtain ⟨now, h⟩ := ht.tracker
  rw [h, PeerTracker.apply, PeerTracker.getPeers_upsertPeer, if_pos rfl]
  split_ifs with hm
  · exact hm
  · exact List.mem_append_right _ List.mem_cons_self

/-- A roster with the peer in it stays as it is. -/
theorem Tracks.getPeers_of_mem (hm : fromNode ∈ p.1.tracker.getPeers g) :
    p'.1.tracker.getPeers g = p.1.tracker.getPeers g := by
  obtain ⟨now, h⟩ := ht.tracker
  rw [h, PeerTracker.apply, PeerTracker.getPeers_upsertPeer]
  split_ifs with hg hm'
  · rw [hg]
  · rw [hg] at hm
    exact absurd hm hm'
  · rfl

theorem Tracks.mem_notes {i : String × List String} :
    i ∈ p'.2 ↔ i ∈ p.2 ∨ 1 < (p'.1.tracker.getPeers gid).length
      ∧ i = (gid, p'.1.tracker.getPeers gid) := by
  rw [ht.notes, List.mem_append]
  split_ifs with h
  · simp [h]
  · simp [h]

end Tracks

/-- The loop's invariant: the peer of the message is in every group noted. -/
structure Noting (fromNode : String) (s₀ : Discovery κ) (p : Discovery κ × Introductions) : Prop
    extends Gathered s₀ p where
  mem : ∀ i ∈ p.2, fromNode ∈ i.2

theorem Noting.track (h : Noting fromNode s₀ p) (ht : Tracks fromNode gid p p') :
    Noting fromNode s₀ p' := by
  refine ⟨⟨?_, ht.introduced.trans h.introduced, fun i hi => ?_⟩, fun i hi => ?_⟩
  · obtain ⟨now, htracker⟩ := ht.tracker
    rw [htracker]
    exact h.agrees.apply _
  · rcases ht.mem_notes.1 hi with hi | ⟨hlen, rfl⟩
    · obtain ⟨hlive, hlen⟩ := h.live i hi
      have hm := h.mem i hi
      rw [hlive] at hm
      exact ⟨hlive.trans (ht.getPeers_of_mem hm).symm, hlen⟩
    · exact ⟨rfl, hlen⟩
  · rcases ht.mem_notes.1 hi with hi | ⟨-, rfl⟩
    · exact h.mem i hi
    · exact ht.mem

/-- The peer is in the group, and the group, unless the peer is alone, is noted. -/
def Noted (fromNode g : String) (p : Discovery κ × Introductions) : Prop :=
  fromNode ∈ p.1.tracker.getPeers g ∧
    (1 < (p.1.tracker.getPeers g).length → (g, p.1.tracker.getPeers g) ∈ p.2)

theorem Tracks.noted (ht : Tracks fromNode gid p p') : Noted fromNode gid p' :=
  ⟨ht.mem, fun hlen => ht.mem_notes.2 (.inr ⟨hlen, rfl⟩)⟩

theorem Noted.track (h : Noted fromNode g p) (ht : Tracks fromNode gid p p') :
    Noted fromNode g p' := by
  obtain ⟨hm, hnote⟩ := h
  rw [Noted, ht.getPeers_of_mem hm]
  exact ⟨hm, fun hlen => ht.mem_notes.2 (.inl (hnote hlen))⟩

theorem trackPeer_tracks (env : DiscoveryEnv κ) (ha : a.fails = fun _ => PeerTracker.noFault)
    (fromNode gid : String) (i : ℕ) (p : Discovery κ × Introductions) :
    Tracks fromNode gid p (trackPeer env a fromNode gid i p).state := by
  obtain ⟨isNew, hsome⟩ := p.1.tracker.upsertPeer_noFault (a.clock i) (g := gid) (p := fromNode)
  have htracker := trackPeer_tracker env a fromNode gid i p
  rw [ha] at htracker
  refine ⟨⟨a.clock i, htracker⟩, ?_, ?_⟩
  · unfold trackPeer
    rcases h : p.1.tracker.upsertPeer (a.fails i) (a.clock i) gid fromNode with ⟨_ | isNew, tracker⟩
    · rfl
    · simp [emit, introduced]
  · rw [htracker]
    unfold trackPeer
    rw [ha]
    rcases h : p.1.tracker.upsertPeer PeerTracker.noFault (a.clock i) gid fromNode
      with ⟨_ | isNew, tracker⟩
    · rw [h] at hsome
      simp at hsome
    · simp

/-- The tracker, what was introduced and what is noted are as they were. -/
structure Idle (p p' : Discovery κ × Introductions) : Prop where
  tracker : p'.1.tracker = p.1.tracker
  introduced : introduced p'.1.effects = introduced p.1.effects
  notes : p'.2 = p.2

theorem Noting.idle (h : Noting fromNode s₀ p) (hi : Idle p p') : Noting fromNode s₀ p' := by
  refine ⟨⟨?_, hi.introduced.trans h.introduced, ?_⟩, ?_⟩
  · rw [hi.tracker]
    exact h.agrees
  · rw [hi.tracker, hi.notes]
    exact h.live
  · rw [hi.notes]
    exact h.mem

theorem Idle.tracks {q : Discovery κ × Introductions} (hi : Idle p q)
    (ht : Tracks fromNode gid q p') : Tracks fromNode gid p p' := by
  obtain ⟨now, htracker⟩ := ht.tracker
  refine ⟨⟨now, ?_⟩, ht.introduced.trans hi.introduced, ?_⟩
  · rw [htracker, hi.tracker]
  · rw [ht.notes, hi.notes]

/-- A group has the peer tracked in it, unless it is no string or its topic cannot be logged. -/
theorem handleGroup_tracks (env : DiscoveryEnv κ) (ha : a.fails = fun _ => PeerTracker.noFault)
    (fromNode : String) (p : Discovery κ × Introductions) (group : Json × ℕ) :
    (handleGroup env a fromNode p group).Ends
      (fun p' => (∃ gid, group.1 = .str gid ∧ Tracks fromNode gid p p') ∨
        (∀ gid, group.1 ≠ .str gid) ∧ p' = p)
      (fun p' => (∃ gid, Tracks fromNode gid p p') ∨ Idle p p') := by
  unfold handleGroup
  split
  · rename_i gid hgid
    obtain ⟨htracker, hintro⟩ := joinGroup_frame env a fromNode gid group.2 p.1
    rcases h : p.1.joinGroup env a fromNode gid group.2 with m | m <;>
      rw [h] at htracker hintro <;> rw [Exec.state] at htracker hintro
    · have hidle : Idle p (m, p.2) := ⟨htracker, hintro, rfl⟩
      have ht := hidle.tracks (trackPeer_tracks env ha fromNode gid group.2 (m, p.2))
      rw [Exec.map, Exec.ok_bind]
      rcases h : trackPeer env a fromNode gid group.2 (m, p.2) with p' | p' <;> rw [h] at ht
      · exact .inl ⟨gid, Json.asStr_eq_some.1 hgid, ht⟩
      · exact .inl ⟨gid, ht⟩
    · exact .inr ⟨htracker, hintro, rfl⟩
  · rename_i hnone
    exact .inr ⟨Json.ne_str_of_asStr hnone, rfl⟩

/-- At the end of the loop every group listed is noted, and at a panic those noted are live. -/
theorem forEach_noting (env : DiscoveryEnv κ) (fromNode : String)
    (ha : a.fails = fun _ => PeerTracker.noFault) (hs : s.tracker.Agrees) (groups : List Json) :
    (Exec.forEach (handleGroup env a fromNode) groups.zipIdx (s, [])).Ends
      (fun p => Noting fromNode s p ∧ ∀ g, Json.str g ∈ groups → Noted fromNode g p)
      (Noting fromNode s) := by
  have hstart : Noting fromNode s (s, []) := ⟨⟨hs, rfl, by simp⟩, by simp⟩
  have hloop : (Exec.forEach (handleGroup env a fromNode) groups.zipIdx (s, [])).Ends
      (fun p => Noting fromNode s p
        ∧ ∀ item ∈ groups.zipIdx, ∀ g, item.1 = .str g → Noted fromNode g p)
      (Noting fromNode s) := by
    refine Exec.ends_forEach (I := fun (pre : List (Json × ℕ)) p => Noting fromNode s p
      ∧ ∀ item ∈ pre, ∀ g, item.1 = .str g → Noted fromNode g p) ?_ ⟨hstart, by simp⟩
    intro pre group suf p _ hp
    obtain ⟨hp, hpre⟩ := hp
    refine (handleGroup_tracks env ha fromNode p group).mono (fun p' h => ?_) fun p' h => ?_
    · rcases h with ⟨gid, hgid, ht⟩ | ⟨hne, rfl⟩
      · refine ⟨hp.track ht, fun item hitem g hg => ?_⟩
        rcases List.mem_append.1 hitem with hitem | hitem
        · exact (hpre item hitem g hg).track ht
        · rw [List.mem_singleton.1 hitem, hgid] at hg
          obtain rfl := Json.str.inj hg
          exact ht.noted
      · refine ⟨hp, fun item hitem g hg => ?_⟩
        rcases List.mem_append.1 hitem with hitem | hitem
        · exact hpre item hitem g hg
        · rw [List.mem_singleton.1 hitem] at hg
          exact absurd hg (hne g)
    · rcases h with ⟨gid, ht⟩ | hi
      · exact hp.track ht
      · exact hp.idle hi
  refine hloop.mono (fun p hp => ⟨hp.1, fun g hg => ?_⟩) fun _ hp => hp
  rw [← List.zipIdx_map_fst 0 groups] at hg
  obtain ⟨item, hitem, hstr⟩ := List.mem_map.1 hg
  exact hp.2 item hitem g hstr

/-! ## A turn -/

theorem introductionsOf_live {tracker : PeerTracker} {groups : List String}
    {i : String × List String} (hi : i ∈ introductionsOf tracker groups) :
    i.2 = tracker.getPeers i.1 ∧ 1 < i.2.length := by
  obtain ⟨g, -, h⟩ := List.mem_filterMap.1 hi
  obtain ⟨hlen, h⟩ := Option.ite_none_right_eq_some.1 h
  obtain rfl := Option.some.inj h
  exact ⟨rfl, hlen⟩

theorem Gathered.nothing (hs : s.tracker.Agrees) : Gathered s (s, []) :=
  ⟨hs, rfl, by simp⟩

theorem gather_gathered (hs : s.tracker.Agrees) {turn : Turn κ} (hturn : turn.NoFault) :
    Gathered s (s.gather env turn).state := by
  cases turn with
  | announceTick =>
    exact ⟨hs, by simp [gather, emit, introduced], fun i hi => introductionsOf_live hi⟩
  | pruneTick fails now =>
    rw [Turn.NoFault] at hturn
    subst hturn
    exact ⟨hs.apply (.pruneStale 300 now), rfl, by simp [gather]⟩
  | received content a =>
    rcases received_cases env s content a with h | ⟨-, h⟩ | ⟨fromNode, groups, -, h⟩
    · rw [h]
      exact .nothing hs
    · rw [h]
      exact .nothing hs
    · rw [h]
      exact ((forEach_noting env fromNode hturn hs groups).state fun p hp => hp.1).toGathered
  | neighborUp peer =>
    rw [gather, Exec.state_map, neighborUp, state_log]
    exact .nothing hs
  | neighborDown peer fails now =>
    rw [Turn.NoFault] at hturn
    subst hturn
    rw [gather]
    rcases log_cases env [Utf8.sliceTo (env.keys.toStr peer) 16] s with h | h
    · simp only [h, Exec.map, Exec.ok_bind]
      have hoff := hs.apply (.markOffline (env.keys.toStr peer) now)
      rw [PeerTracker.apply] at hoff
      rcases hm : s.tracker.markOffline PeerTracker.noFault now (env.keys.toStr peer)
        with ⟨_ | affected, tracker⟩ <;> rw [hm] at hoff
      · exact ⟨hoff, rfl, by simp⟩
      · exact ⟨hoff, rfl, fun i hi => introductionsOf_live hi⟩
    · simp only [h]
      exact .nothing hs
  | other => exact .nothing hs
  | recvGroup gid content now => exact .nothing hs

/-- A message handled to its end has noted the groups that it lists. -/
theorem gather_noted (hs : s.tracker.Agrees) {content : ByteArray}
    (ha : a.fails = fun _ => PeerTracker.noFault) (hann : Announces env content fromNode g)
    (hok : (s.gather env (.received content a)).isOk) :
    Noted fromNode g (s.gather env (.received content a)).state := by
  obtain ⟨groups, hl, hg⟩ := hann
  rcases received_cases env s content a with h | ⟨hl', -⟩ | ⟨fromNode', groups', hl', h⟩
  · rw [h] at hok
    simp at hok
  · rw [hl] at hl'
    simp at hl'
  · rw [hl] at hl'
    obtain ⟨rfl, rfl⟩ := Prod.mk.inj (Option.some.inj hl')
    have hends := forEach_noting env fromNode ha hs groups
    rw [h] at hok ⊢
    obtain ⟨p, hp⟩ := Exec.isOk_iff.1 hok
    rw [hp] at hends ⊢
    exact hends.2 g hg

/-- What a turn introduces is noted, and all that is noted unless the turn panics. -/
theorem step_introduces (hs : s.tracker.Agrees) {turn : Turn κ} (hturn : turn.NoFault)
    (h : s.step env turn = some s') :
    ∃ sent : Introductions,
      introduced s'.effects =
          introduced s.effects ++ sent.map (fun i => peerIntroductionJson i.1 i.2)
        ∧ s'.tracker = (s.gather env turn).state.1.tracker
        ∧ (∀ i ∈ sent, i ∈ (s.gather env turn).state.2)
        ∧ (s'.alive = true → (s.gather env turn).isOk = true
          ∧ sent = (s.gather env turn).state.2) := by
  rcases step_cases h with ⟨-, hb⟩ | ⟨gid, content, now, forwarders, rfl, rfl, -⟩
  · have hg : Gathered s (s.gather env turn).state := gather_gathered hs hturn
    by_cases ha : s'.alive = true
    · obtain ⟨hok, heffects⟩ := hb.alive ha
      refine ⟨_, ?_, hb.tracker, fun i hi => hi, fun _ => ⟨hok, rfl⟩⟩
      rw [heffects, introduced_append, hg.introduced, introduced_introduction]
    · obtain ⟨sent, hsent, -, heffects⟩ := hb.sent
      refine ⟨sent, ?_, hb.tracker, fun i hi => hsent.subset hi, fun ha' => absurd ha' ha⟩
      rw [heffects, introduced_append, hg.introduced, introduced_introduction]
  · exact ⟨[], by simp, rfl, by simp, fun _ => ⟨rfl, rfl⟩⟩

/-! ## A run -/

variable {rows : PeerTable} {acts : List (LifeAct κ)} {turn : Turn κ}

theorem agrees_of_run (hrun : lifeRun env (boot rows) acts = some s)
    (hacts : ∀ act ∈ acts, act.NoFault) : s.tracker.Agrees := by
  refine Machine.run_induction (P := fun acts s => (∀ act ∈ acts, act.NoFault) → s.tracker.Agrees)
    ?_ ?_ hrun hacts
  · exact fun _ => PeerTracker.agrees_loadCache _
  · intro acts s act s' _ ih h hacts
    rw [List.forall_mem_append, List.forall_mem_singleton] at hacts
    have hs := ih hacts.1
    cases act with
    | turn turn =>
      rcases step_cases h with ⟨-, hb⟩ | ⟨gid, content, now, forwarders, rfl, rfl, -⟩
      · rw [hb.tracker]
        exact (gather_gathered hs hacts.2).agrees
      · exact hs
    | restart =>
      obtain rfl := Option.some.inj h
      exact PeerTracker.agrees_loadCache _

theorem ofRoster_of_agrees {t : PeerTracker} (ht : t.Agrees) {i : String × List String}
    (hi : i.2 = t.getPeers i.1 ∧ 1 < i.2.length) : OfRoster t i := by
  refine ⟨hi.2, ?_, hi.1, fun p => ?_⟩
  · rw [hi.1]
    exact ht.nodup i.1
  · rw [hi.1, ht.listed, PeerTracker.seen_online]

/-- Who is not listed stays so until announced. -/
theorem not_mem_of_run {m : Discovery κ} {p g : String} (hm : m.tracker.Agrees)
    (hp : p ∉ m.tracker.getPeers g) (hann : ∀ act ∈ acts, ¬ AnnouncedBy env act p g)
    (hrun : lifeRun env m acts = some s) : p ∉ s.tracker.getPeers g := by
  have hm' : m.tracker.Only fun g' p' => ¬ (g' = g ∧ p' = p) := by
    refine ⟨fun r hr ho h => hp ?_, fun g' p' hp' h => hp ?_⟩
    · obtain ⟨rfl, rfl⟩ := h
      exact (hm.listed _ _).2 ⟨r.lastSeen, PeerTracker.seen_eq_some.2 ⟨r, hr, rfl, rfl, ho⟩⟩
    · obtain ⟨rfl, rfl⟩ := h
      exact hp'
  intro h
  refine (lifeRun_only hm' (fun act hact p' g' ha h => ?_) hrun).cache g p h ⟨rfl, rfl⟩
  obtain ⟨rfl, rfl⟩ := h
  exact hann act hact ha

/-- In every run over a database that does as it is asked, what a turn introduces is the roster of
the group at the broadcast, and so no one who was off it and was not announced since; and a
`groups_exchange` that is handled has the groups it lists introduced, with the peer it names. -/
theorem advertised_live (hrun : lifeRun env (boot rows) acts = some s)
    (hacts : ∀ act ∈ acts, act.NoFault) (hturn : turn.NoFault) (h : s.step env turn = some s') :
    ∃ sent : Introductions,
      introduced s'.effects =
          introduced s.effects ++ sent.map (fun i => peerIntroductionJson i.1 i.2)
        ∧ s'.tracker = (s.gather env turn).state.1.tracker
        ∧ (∀ i ∈ sent, OfRoster s'.tracker i)
        ∧ (∀ pre post m p g, acts ++ [.turn turn] = pre ++ post →
          lifeRun env (boot rows) pre = some m → p ∉ m.tracker.getPeers g →
            (∀ act ∈ post, ¬ AnnouncedBy env act p g) → ∀ i ∈ sent, i.1 = g → p ∉ i.2)
        ∧ ∀ content a p g, turn = .received content a → Announces env content p g →
          s'.alive = true → 1 < (s'.tracker.getPeers g).length → ∃ i ∈ sent, i.1 = g ∧ p ∈ i.2 := by
  have hs := agrees_of_run hrun hacts
  have hg : Gathered s (s.gather env turn).state := gather_gathered hs hturn
  obtain ⟨sent, heffects, htracker, hsent, hall⟩ := step_introduces hs hturn h
  have hroster : ∀ i ∈ sent, OfRoster s'.tracker i := by
    intro i hi
    rw [htracker]
    exact ofRoster_of_agrees hg.agrees (hg.live i (hsent i hi))
  refine ⟨sent, heffects, htracker, hroster, ?_, ?_⟩
  · intro pre post m p g hsplit hm hp hann i hi hig hmem
    have hrun' : lifeRun env (boot rows) (pre ++ post) = some s' := by
      rw [← hsplit]
      exact Machine.run_concat.2 ⟨s, hrun, h⟩
    obtain ⟨m', hm', hpost⟩ := Machine.run_append.1 hrun'
    obtain rfl : m = m' := Option.some.inj (hm.symm.trans hm')
    have hpre : ∀ act ∈ pre, act.NoFault := by
      intro act hact
      have hmem : act ∈ acts ++ [.turn turn] := by
        rw [hsplit]
        exact List.mem_append_left _ hact
      rcases List.mem_append.1 hmem with hact | hact
      · exact hacts act hact
      · rw [List.mem_singleton.1 hact]
        exact hturn
    refine not_mem_of_run (agrees_of_run hm hpre) hp hann hpost ?_
    rw [← hig, ← (hroster i hi).eq]
    exact hmem
  · intro content a p g hreceived hann halive hlen
    obtain ⟨hok, hsent⟩ := hall halive
    subst hreceived
    obtain ⟨hp, hnote⟩ := gather_noted hs hturn hann hok
    rw [htracker] at hlen
    refine ⟨(g, _), ?_, rfl, hp⟩
    rw [hsent]
    exact hnote hlen

/-- A peer is online in `rust` already when the task starts. -/
def oldRows : PeerTable := Keyed.empty.insert ⟨"rust", "old", 1, 1, true⟩ (by simp [Keyed.Has])

theorem advertised_live_joinRust :
    ∃ s', (boot oldRows).step hiEnv (.received joinRust.toVec fine) = some s'
      ∧ peerIntroductionJson "rust" ["old", "peer"] ∈ introduced s'.effects := by
  have hmsg : (joinRust.get "msg_type").bind Json.asStr = some "groups_exchange" := by decide
  have hstep : (boot oldRows).step hiEnv (.received joinRust.toVec fine)
      = some (settle ((boot oldRows).groupsExchange hiEnv fine joinRust)) := by
    simp only [step, boot, start, if_true, handleReceived, json_toVec, hmsg]
  have hpeers : (settle ((boot oldRows).groupsExchange hiEnv fine joinRust)).tracker.getPeers "rust"
      = ["old", "peer"] := by decide +kernel
  have halive : (settle ((boot oldRows).groupsExchange hiEnv fine joinRust)).alive = true := by
    decide +kernel
  have hann : Announces hiEnv joinRust.toVec "peer" "rust" := by
    refine ⟨[.str "rust"], ?_, List.mem_cons_self⟩
    simp only [listing, json_toVec, hmsg, if_true]
    rfl
  have hrun : lifeRun hiEnv (boot oldRows) [] = some (boot oldRows) := rfl
  have hturn : (Turn.received joinRust.toVec fine : Turn Unit).NoFault := rfl
  obtain ⟨sent, heffects, -, hroster, -, hsent⟩ := advertised_live hrun (by simp) hturn hstep
  obtain ⟨i, hi, hig, -⟩ := hsent _ fine "peer" "rust" rfl hann halive (by rw [hpeers]; decide)
  refine ⟨_, hstep, ?_⟩
  rw [heffects]
  refine List.mem_append_right _ (List.mem_map.2 ⟨i, hi, ?_⟩)
  rw [(hroster i hi).eq, hig, hpeers]

end Discovery

end XaeroFlux
