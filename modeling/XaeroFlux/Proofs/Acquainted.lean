import XaeroFlux.Proofs.Advertised

/-!
# Every two peers of a group are introduced

A peer comes onto a group's roster by a message that announces it there, and a message handled has
the whole roster introduced. So the last of two peers to come onto a roster has them introduced to
each other, with no tick in between; of two that were on it when the task started, the tick does it.
-/

namespace XaeroFlux

namespace Discovery

variable {κ : Type} {env : DiscoveryEnv κ} {rows : PeerTable} {acts : List (LifeAct κ)}
  {act : LifeAct κ} {s s' : Discovery κ} {g p q : String}

/-- By some moment of the run an introduction of the group with both peers in it was broadcast, of
the roster at that moment. -/
def Acquainted (env : DiscoveryEnv κ) (rows : PeerTable) (acts : List (LifeAct κ)) (g p q : String) :
    Prop :=
  ∃ pre post m, acts = pre ++ post ∧ lifeRun env (boot rows) pre = some m
    ∧ p ∈ m.tracker.getPeers g ∧ q ∈ m.tracker.getPeers g
    ∧ peerIntroductionJson g (m.tracker.getPeers g) ∈ introduced m.effects

theorem Acquainted.concat (h : Acquainted env rows acts g p q) :
    Acquainted env rows (acts ++ [act]) g p q := by
  obtain ⟨pre, post, m, rfl, h⟩ := h
  exact ⟨pre, post ++ [act], m, by simp, h⟩

/-- An introduction broadcast by the step that leads to the state. -/
theorem acquainted_of_sent (hrun : lifeRun env (boot rows) acts = some s')
    (hp : p ∈ s'.tracker.getPeers g) (hq : q ∈ s'.tracker.getPeers g) {before : List Json}
    {sent : Introductions}
    (heffects : introduced s'.effects = before ++ sent.map fun i => peerIntroductionJson i.1 i.2)
    (hsent : (g, s'.tracker.getPeers g) ∈ sent) : Acquainted env rows acts g p q := by
  refine ⟨acts, [], s', by simp, hrun, hp, hq, ?_⟩
  rw [heffects]
  exact List.mem_append_right _ (List.mem_map_of_mem hsent)

/-- Two peers, so more than one. -/
theorem one_lt_length {peers : List String} (hpq : p ≠ q) (hp : p ∈ peers) (hq : q ∈ peers) :
    1 < peers.length := by
  rcases peers with _ | ⟨a, _ | ⟨b, peers⟩⟩
  · simp at hp
  · rw [List.mem_singleton] at hp hq
    exact absurd (hp.trans hq.symm) hpq
  · simp

/-- Who was not listed before the step was announced by it. -/
theorem announced_of_new (hs : s.tracker.Agrees) (h : lifeStep env s act = some s')
    (hp : p ∉ s.tracker.getPeers g) (hp' : p ∈ s'.tracker.getPeers g) :
    AnnouncedBy env act p g := by
  by_contra hann
  have hrun : lifeRun env s [act] = some s' := Machine.run_cons.2 ⟨s', h, rfl⟩
  refine not_mem_of_run hs hp (fun a ha => ?_) hrun hp'
  rwa [List.mem_singleton.1 ha]

/-- A step that brings one of the two peers onto the roster introduces them. -/
theorem acquainted_of_new (hrun : lifeRun env (boot rows) acts = some s) (hs : s.tracker.Agrees)
    (hact : act.NoFault) (h : lifeStep env s act = some s') (halive : s'.alive = true)
    (hpq : p ≠ q) (hp : p ∈ s'.tracker.getPeers g) (hq : q ∈ s'.tracker.getPeers g)
    {x : String} (hx : x ∉ s.tracker.getPeers g) (hx' : x ∈ s'.tracker.getPeers g) :
    Acquainted env rows (acts ++ [act]) g p q := by
  obtain ⟨content, a, rfl, hann⟩ := announced_of_new hs h hx hx'
  have hturn : (Turn.received content a : Turn κ).NoFault := hact
  obtain ⟨sent, heffects, htracker, -, hall⟩ := step_introduces hs hturn h
  obtain ⟨hok, hsent⟩ := hall halive
  obtain ⟨-, hnote⟩ := gather_noted hs hturn hann hok
  rw [← htracker] at hnote
  refine acquainted_of_sent (Machine.run_concat.2 ⟨s, hrun, h⟩) hp hq heffects ?_
  rw [hsent]
  exact hnote (one_lt_length hpq hp hq)

/-- A tick introduces the peers of every roster. -/
theorem acquainted_of_tick (hrun : lifeRun env (boot rows) acts = some s)
    (hs : s.tracker.Agrees) (h : lifeStep env s (.turn .announceTick) = some s')
    (halive : s'.alive = true) (hpq : p ≠ q) (hp : p ∈ s'.tracker.getPeers g)
    (hq : q ∈ s'.tracker.getPeers g) :
    Acquainted env rows (acts ++ [.turn .announceTick]) g p q := by
  have hturn : (Turn.announceTick : Turn κ).NoFault := trivial
  obtain ⟨sent, heffects, htracker, -, hall⟩ := step_introduces hs hturn h
  obtain ⟨-, hsent⟩ := hall halive
  refine acquainted_of_sent (Machine.run_concat.2 ⟨s, hrun, h⟩) hp hq heffects ?_
  have hsame : s'.tracker = s.tracker := htracker
  rw [hsent, hsame]
  rw [hsame] at hp hq
  refine List.mem_filterMap.2 ⟨g, (PeerTracker.mem_getActiveGroups s.tracker).2 ⟨p, hp⟩, ?_⟩
  exact if_pos (one_lt_length hpq hp hq)

/-- What a step leaves: every two peers of a roster are acquainted, or both are listed since the
start, with no tick yet. -/
theorem acquainted_or_old (hrun : lifeRun env (boot rows) acts = some s)
    (hacts : ∀ act ∈ acts, act.NoFault)
    (halive : Machine.Throughout (lifeStep env) (boot rows) acts fun _ m => m.alive = true) :
    ∀ g p q, p ≠ q → p ∈ s.tracker.getPeers g → q ∈ s.tracker.getPeers g →
      Acquainted env rows acts g p q ∨ .turn .announceTick ∉ acts
        ∧ p ∈ (boot (κ := κ) rows).tracker.getPeers g
        ∧ q ∈ (boot (κ := κ) rows).tracker.getPeers g := by
  revert hacts halive
  refine Machine.run_induction (P := fun acts s => (∀ act ∈ acts, act.NoFault) →
    Machine.Throughout (lifeStep env) (boot rows) acts (fun _ m => m.alive = true) →
      ∀ g p q, p ≠ q → p ∈ s.tracker.getPeers g → q ∈ s.tracker.getPeers g →
        Acquainted env rows acts g p q ∨ .turn .announceTick ∉ acts
          ∧ p ∈ (boot (κ := κ) rows).tracker.getPeers g
          ∧ q ∈ (boot (κ := κ) rows).tracker.getPeers g) ?_ ?_ hrun
  · exact fun _ _ g p q _ hp hq => .inr ⟨by simp, hp, hq⟩
  intro acts s act s' hrun ih hstep hacts halive g p q hpq hp hq
  rw [List.forall_mem_append, List.forall_mem_singleton] at hacts
  have hs := agrees_of_run hrun hacts.1
  have hrun' := Machine.run_concat.2 ⟨s, hrun, hstep⟩
  have hnow : s'.alive = true := halive _ [] s' (by simp) hrun'
  by_cases hp₀ : p ∈ s.tracker.getPeers g
  · by_cases hq₀ : q ∈ s.tracker.getPeers g
    · -- both were listed before the step
      rcases ih hacts.1 halive.of_append g p q hpq hp₀ hq₀ with hacq | ⟨htick, hold⟩
      · exact .inl hacq.concat
      · by_cases hact : act = .turn .announceTick
        · subst hact
          exact .inl (acquainted_of_tick hrun hs hstep hnow hpq hp hq)
        · refine .inr ⟨fun hmem => ?_, hold⟩
          rcases List.mem_append.1 hmem with hmem | hmem
          · exact htick hmem
          · exact hact (List.mem_singleton.1 hmem).symm
    · exact .inl (acquainted_of_new hrun hs hacts.2 hstep hnow hpq hp hq hq₀ hq)
  · exact .inl (acquainted_of_new hrun hs hacts.2 hstep hnow hpq hp hq hp₀ hp)

/-- In a run without faults of the database in which no turn panics, two peers that a group's roster
lists have been introduced to each other, unless both were on it when the task first started and
it has not ticked yet. -/
theorem acquainted (hrun : lifeRun env (boot rows) acts = some s)
    (hacts : ∀ act ∈ acts, act.NoFault)
    (halive : Machine.Throughout (lifeStep env) (boot rows) acts fun _ m => m.alive = true)
    (hpq : p ≠ q) (hp : p ∈ s.tracker.getPeers g) (hq : q ∈ s.tracker.getPeers g)
    (hnew : .turn .announceTick ∈ acts ∨ p ∉ (boot (κ := κ) rows).tracker.getPeers g
      ∨ q ∉ (boot (κ := κ) rows).tracker.getPeers g) :
    Acquainted env rows acts g p q := by
  refine (acquainted_or_old hrun hacts halive g p q hpq hp hq).resolve_right fun h => ?_
  obtain ⟨htick, hp₀, hq₀⟩ := h
  rcases hnew with hmem | hp₁ | hq₁
  · exact htick hmem
  · exact hp₁ hp₀
  · exact hq₁ hq₀

theorem acquainted_joinRust : Acquainted hiEnv oldRows [.turn (.received joinRust.toVec fine)]
    "rust" "old" "peer" := by
  have hmsg : (joinRust.get "msg_type").bind Json.asStr = some "groups_exchange" := by decide
  have hstep : lifeStep hiEnv (boot oldRows) (.turn (.received joinRust.toVec fine))
      = some (settle ((boot oldRows).groupsExchange hiEnv fine joinRust)) := by
    simp only [lifeStep, step, boot, start, if_true, handleReceived, json_toVec, hmsg]
  have hpeers : (settle ((boot oldRows).groupsExchange hiEnv fine joinRust)).tracker.getPeers "rust"
      = ["old", "peer"] := by decide +kernel
  have halive : (settle ((boot oldRows).groupsExchange hiEnv fine joinRust)).alive = true := by
    decide +kernel
  have hrun := Machine.run_cons.2 ⟨_, hstep, Machine.run_nil.2 rfl⟩
  refine acquainted hrun ?_ ?_ (by decide) (by rw [hpeers]; simp) (by rw [hpeers]; simp)
    (.inr (.inr (by decide +kernel)))
  · intro act hact
    rw [List.mem_singleton.1 hact]
    rfl
  · intro pre suf m hsplit hm
    rcases pre with _ | ⟨act, pre⟩
    · obtain rfl := Machine.run_nil.1 hm
      rfl
    · -- the whole run
      obtain ⟨hact, hnil⟩ := List.cons.inj hsplit
      obtain ⟨rfl, -⟩ := List.append_eq_nil_iff.1 hnil.symm
      rw [← hact] at hm
      obtain rfl := Option.some.inj (hrun.symm.trans hm)
      exact halive

end Discovery

end XaeroFlux
