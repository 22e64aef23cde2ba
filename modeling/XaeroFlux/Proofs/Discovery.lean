import XaeroFlux.Discovery

/-!
# Which messages end the discovery task

While the task is alive every group it is subscribed to has an id that can be cut (`Cuttable`):
subscribing to any other panics. So whether a message panics the task is a matter of the message
alone (`handleReceived_isOk`).
-/

namespace XaeroFlux

namespace Discovery

variable {κ : Type} {env : DiscoveryEnv κ}

/-- The id of every group subscribed to can be cut. -/
def Cuttable (s : Discovery κ) : Prop := ∀ g ∈ s.senders, (short g).isSome

section Log

variable {cuts : List (Option String)} {s s' : Discovery κ}

theorem log_isOk (hi : env.info = true) :
    (s.log env cuts).isOk ↔ ∀ c ∈ cuts, c.isSome := by
  unfold log
  split_ifs with h <;> simpa [logs, hi] using h

@[simp] theorem state_log (cuts : List (Option String)) (s : Discovery κ) :
    (s.log env cuts).state = s := by
  unfold log
  split_ifs <;> rfl

theorem log_eq_ok (h : s.log env cuts = .ok s') : s' = s := by
  unfold log at h
  split_ifs at h
  exact (Exec.ok.inj h).symm

end Log

section Group

variable {a : Answers} {fromNode gid : String} {i : ℕ}

/-- Joining a group panics exactly on an id that cannot be cut. -/
theorem joinGroup_isOk (hi : env.info = true) (hf : (short fromNode).isSome) {s : Discovery κ}
    (hs : s.Cuttable) : (s.joinGroup env a fromNode gid i).isOk ↔ (short gid).isSome := by
  simp only [joinGroup]
  by_cases hg : gid ∈ s.senders
  · have hcut := hs gid hg
    rcases (env.keys.fromStr fromNode).toOption with _ | pk
    · simp [hg, hcut]
    · cases hj : a.joined i <;> simp [hg, log_isOk hi, hf, hcut]
  · cases hj : a.subscribed i <;> simp [hg, log_isOk hi, hf]

theorem joinGroup_keep (hi : env.info = true) {s s' : Discovery κ} (hs : s.Cuttable)
    (h : s.joinGroup env a fromNode gid i = .ok s') : s'.Cuttable := by
  simp only [joinGroup] at h
  by_cases hg : gid ∈ s.senders
  · rw [if_pos hg] at h
    split at h
    · split_ifs at h
      · rw [log_eq_ok h]
        exact hs
      · rw [← Exec.ok.inj h]
        exact hs
    · rw [← Exec.ok.inj h]
      exact hs
  · rw [if_neg hg] at h
    split_ifs at h
    · have hcut := (log_isOk hi).1 (Exec.isOk_iff.2 ⟨_, h⟩) (short gid) (by simp)
      rw [log_eq_ok h]
      intro g hg'
      rcases List.mem_append.1 hg' with hg' | hg'
      · exact hs g hg'
      · rwa [List.mem_singleton.1 hg']
    · rw [log_eq_ok h]
      exact hs

theorem trackPeer_isOk (hi : env.info = true) (hf : (short fromNode).isSome)
    (hg : (short gid).isSome) (p : Discovery κ × Introductions) :
    (trackPeer env a fromNode gid i p).isOk := by
  unfold trackPeer
  split
  · rename_i isNew tracker _
    cases isNew <;> simp [log_isOk hi, hf, hg]
  · rfl

theorem trackPeer_keep (hg : (short gid).isSome) {p p' : Discovery κ × Introductions}
    (hs : p.1.Cuttable) (hp : ∀ intro ∈ p.2, (short intro.1).isSome)
    (h : trackPeer env a fromNode gid i p = .ok p') :
    p'.1.Cuttable ∧ ∀ intro ∈ p'.2, (short intro.1).isSome := by
  unfold trackPeer at h
  split at h
  · obtain ⟨s, hl, rfl⟩ := Exec.map_eq_ok.1 h
    rw [log_eq_ok hl]
    refine ⟨hs, fun intro hm => ?_⟩
    rcases List.mem_append.1 hm with hm | hm
    · exact hp intro hm
    · split_ifs at hm
      · rw [List.mem_singleton.1 hm]
        exact hg
      · simp at hm
  · rw [← Exec.ok.inj h]
    exact ⟨hs, hp⟩

def LoopCuttable (p : Discovery κ × Introductions) : Prop :=
  p.1.Cuttable ∧ ∀ intro ∈ p.2, (short intro.1).isSome

theorem handleGroup_isOk (hi : env.info = true) (hf : (short fromNode).isSome)
    {p : Discovery κ × Introductions} (hp : LoopCuttable p) (group : Json × ℕ) :
    (handleGroup env a fromNode p group).isOk ↔
      ∀ gid, group.1.asStr = some gid → (short gid).isSome := by
  unfold handleGroup
  split
  · rename_i gid hgid
    simp only [hgid, Option.some.injEq, forall_eq']
    rw [Exec.isOk_bind, ← joinGroup_isOk hi hf hp.1 (a := a) (i := group.2)]
    constructor
    · rintro ⟨q, hq, -⟩
      obtain ⟨s, hs, -⟩ := Exec.map_eq_ok.1 hq
      exact Exec.isOk_iff.2 ⟨s, hs⟩
    · intro h
      obtain ⟨s, hs⟩ := Exec.isOk_iff.1 h
      exact ⟨(s, p.2), Exec.map_eq_ok.2 ⟨s, hs, rfl⟩,
        trackPeer_isOk hi hf ((joinGroup_isOk hi hf hp.1).1 h) _⟩
  · rename_i hnone
    simp [hnone]

theorem handleGroup_keep (hi : env.info = true) (hf : (short fromNode).isSome)
    {p p' : Discovery κ × Introductions} (hp : LoopCuttable p) {group : Json × ℕ}
    (h : handleGroup env a fromNode p group = .ok p') : LoopCuttable p' := by
  unfold handleGroup at h
  split at h
  · rename_i gid hgid
    obtain ⟨q, hq, h⟩ := Exec.bind_eq_ok.1 h
    obtain ⟨s, hs, rfl⟩ := Exec.map_eq_ok.1 hq
    have hg := (joinGroup_isOk hi hf hp.1).1 (Exec.isOk_iff.2 ⟨s, hs⟩)
    exact trackPeer_keep (p := (s, p.2)) hg (joinGroup_keep hi hp.1 hs) hp.2 h
  · rw [← Exec.ok.inj h]
    exact hp

end Group

/-! ## A message -/

/-- The strings a `groups_exchange` names are such that a log statement can cut them. -/
def CutsWell (json : Json) : Prop :=
  ∀ fromNode, (json.get "node_id").bind Json.asStr = some fromNode → (short fromNode).isSome ∧
    ∀ groups, (json.get "local_groups").bind Json.asArray = some groups →
      ∀ group ∈ groups, ∀ gid, group.asStr = some gid → (short gid).isSome

section Message

variable {a : Answers}

/-- A log statement that cuts one string passes exactly if it can be cut. -/
theorem log_bind_isOk (hi : env.info = true) {cut : String} {s : Discovery κ}
    {f : Discovery κ → Exec (Discovery κ)} :
    ((s.log env [short cut]).bind f).isOk ↔ (short cut).isSome ∧ (f s).isOk := by
  rw [Exec.isOk_bind]
  constructor
  · rintro ⟨m, hm, h⟩
    have hf := (log_isOk hi).1 (Exec.isOk_iff.2 ⟨m, hm⟩) (short cut) (by simp)
    rw [log_eq_ok hm] at h
    exact ⟨hf, h⟩
  · rintro ⟨hf, h⟩
    have hok : (s.log env [short cut]).isOk := (log_isOk hi).2 (by simp [hf])
    obtain ⟨m, hm⟩ := Exec.isOk_iff.1 hok
    exact ⟨m, hm, by rwa [log_eq_ok hm]⟩

theorem broadcastIntroduction_isOk (hi : env.info = true) (s : Discovery κ)
    (intro : String × List String) :
    (broadcastIntroduction env s intro).isOk ↔ (short intro.1).isSome := by
  rw [broadcastIntroduction, log_bind_isOk hi]
  simp

theorem broadcastIntroduction_keep {s s' : Discovery κ} {intro : String × List String}
    (hs : s.Cuttable) (h : broadcastIntroduction env s intro = .ok s') : s'.Cuttable := by
  obtain ⟨m, hm, h⟩ := Exec.bind_eq_ok.1 h
  rw [← Exec.ok.inj h, log_eq_ok hm]
  exact hs

/-- The loop over a message's groups panics exactly on a group id that cannot be cut. -/
theorem forEach_handleGroup_isOk (hi : env.info = true) {fromNode : String}
    (hf : (short fromNode).isSome) {s : Discovery κ} (hs : s.Cuttable) (groups : List Json) :
    (Exec.forEach (handleGroup env a fromNode) groups.zipIdx (s, [])).isOk ↔
      ∀ group ∈ groups, ∀ gid, group.asStr = some gid → (short gid).isSome := by
  have hstart : LoopCuttable (s, []) := ⟨hs, by simp⟩
  rw [Exec.isOk_forEach (fun p g p' hp h => handleGroup_keep hi hf hp h)
    (fun p g hp => handleGroup_isOk hi hf hp g) hstart]
  conv_rhs => rw [← List.zipIdx_map_fst 0 groups]
  simp only [List.forall_mem_map]

theorem groupsExchange_isOk (hi : env.info = true) {s : Discovery κ} (hs : s.Cuttable)
    (json : Json) : (s.groupsExchange env a json).isOk ↔ CutsWell json := by
  unfold groupsExchange CutsWell
  split
  · rename_i hnone
    simp [hnone]
  rename_i fromNode hnode
  simp only [hnode, Option.some.injEq, forall_eq', log_bind_isOk hi]
  refine and_congr_right fun hf => ?_
  split
  · rename_i hnone
    simp [hnone]
  rename_i groups hgroups
  simp only [hgroups, Option.some.injEq, forall_eq', log_bind_isOk hi, hf, true_and]
  rw [← forEach_handleGroup_isOk hi hf hs groups (a := a)]
  split
  · rename_i m introductions hloop
    have hl : LoopCuttable (m, introductions) := Exec.forEach_eq_ok
      (fun p g p' hp h => handleGroup_keep hi hf hp h) (⟨hs, by simp⟩ : LoopCuttable (s, [])) hloop
    simp only [hloop, Exec.isOk_ok, iff_true]
    rw [Exec.isOk_forEach (I := fun _ => True) (fun _ _ _ _ _ => trivial)
      (fun m intro _ => broadcastIntroduction_isOk hi m intro) trivial]
    exact hl.2
  · rename_i hloop
    rw [hloop]
    rfl

theorem groupsExchange_keep (hi : env.info = true) {s s' : Discovery κ} (hs : s.Cuttable)
    {json : Json} (h : s.groupsExchange env a json = .ok s') : s'.Cuttable := by
  unfold groupsExchange at h
  split at h
  · rw [← Exec.ok.inj h]
    exact hs
  rename_i fromNode _
  obtain ⟨m, hm, h₁⟩ := Exec.bind_eq_ok.1 h
  have hf := (log_isOk hi).1 (Exec.isOk_iff.2 ⟨m, hm⟩) _ List.mem_cons_self
  rw [log_eq_ok hm] at h₁
  split at h₁
  · rw [← Exec.ok.inj h₁]
    exact hs
  obtain ⟨m, hm, h₂⟩ := Exec.bind_eq_ok.1 h₁
  rw [log_eq_ok hm] at h₂
  split at h₂
  · rename_i m introductions hloop
    have hl : LoopCuttable (m, introductions) := Exec.forEach_eq_ok
      (fun p g p' hp h => handleGroup_keep hi hf hp h) (⟨hs, by simp⟩ : LoopCuttable (s, [])) hloop
    exact Exec.forEach_eq_ok (fun _ _ _ hm h => broadcastIntroduction_keep hm h) hl.1 h₂
  · simp at h₂

/-- A message on the discovery topic panics the task exactly if it is a `groups_exchange` that
names a string no log statement can cut. -/
theorem handleReceived_isOk (hi : env.info = true) {s : Discovery κ} (hs : s.Cuttable)
    (content : ByteArray) : (s.handleReceived env a content).isOk ↔
      ∀ json, env.json content = some json →
        (json.get "msg_type").bind Json.asStr = some "groups_exchange" → CutsWell json := by
  unfold handleReceived
  split
  · rename_i json hj
    simp only [hj, Option.some.injEq, forall_eq']
    split_ifs with hm
    · simp [hm, groupsExchange_isOk hi hs]
    · simp [hm]
  · rename_i hj
    simp [hj]

theorem handleReceived_keep (hi : env.info = true) {s s' : Discovery κ} (hs : s.Cuttable)
    {content : ByteArray} (h : s.handleReceived env a content = .ok s') : s'.Cuttable := by
  unfold handleReceived at h
  split at h
  · split_ifs at h
    · exact groupsExchange_keep hi hs h
    · rw [← Exec.ok.inj h]
      exact hs
  · rw [← Exec.ok.inj h]
    exact hs

end Message

/-! ## Every reachable state -/

theorem senders_foldl_emit (f : (String × List String) → Effect κ) :
    ∀ (intros : Introductions) (s : Discovery κ),
      (intros.foldl (fun s intro => s.emit (f intro)) s).senders = s.senders
  | [], _ => rfl
  | intro :: intros, s => senders_foldl_emit f intros (s.emit (f intro))

theorem settle_keep {x : Exec (Discovery κ)} (h : ∀ s, x = .ok s → s.Cuttable)
    (ha : (settle x).alive = true) : (settle x).Cuttable := by
  cases x with
  | ok s => exact h s rfl
  | panic s => simp [settle] at ha

/-- A step leaves the task dead or all its groups' ids such that they can be cut. -/
theorem step_cuttable (hi : env.info = true) {s s' : Discovery κ} {turn : Turn κ}
    (hs : s.alive = true → s.Cuttable) (h : s.step env turn = some s') :
    s'.alive = true → s'.Cuttable := by
  cases turn with
  | announceTick =>
    obtain ⟨ha, h⟩ := Option.ite_none_right_eq_some.1 h
    obtain rfl := Option.some.inj h
    intro _
    rw [Cuttable, announceTick, senders_foldl_emit]
    exact hs ha
  | pruneTick fails now =>
    obtain ⟨ha, h⟩ := Option.ite_none_right_eq_some.1 h
    obtain rfl := Option.some.inj h
    exact fun _ => hs ha
  | received content a =>
    obtain ⟨ha, h⟩ := Option.ite_none_right_eq_some.1 h
    obtain rfl := Option.some.inj h
    exact settle_keep fun m hm => handleReceived_keep hi (hs ha) hm
  | neighborUp peer =>
    obtain ⟨ha, h⟩ := Option.ite_none_right_eq_some.1 h
    obtain rfl := Option.some.inj h
    exact settle_keep fun m hm => by rw [log_eq_ok hm]; exact hs ha
  | neighborDown peer fails now =>
    obtain ⟨ha, h⟩ := Option.ite_none_right_eq_some.1 h
    obtain rfl := Option.some.inj h
    refine settle_keep fun m hm => ?_
    obtain ⟨m', hm', h'⟩ := Exec.bind_eq_ok.1 hm
    rw [log_eq_ok hm'] at h'
    split at h'
    · refine Exec.forEach_eq_ok (fun _ _ _ hm h => broadcastIntroduction_keep hm h) ?_ h'
      exact hs ha
    · rw [← Exec.ok.inj h']
      exact hs ha
  | other =>
    obtain ⟨ha, h⟩ := Option.ite_none_right_eq_some.1 h
    obtain rfl := Option.some.inj h
    exact hs
  | recvGroup gid content now =>
    obtain ⟨-, h⟩ := Option.ite_none_right_eq_some.1 h
    split at h <;> obtain rfl := Option.some.inj h <;> exact hs

/-- In every reachable state of the task, with `info` logged, a message on the discovery topic
panics it exactly if it names a string that cannot be cut, and a message on a group's topic panics
its forwarder exactly if the group's id cannot be. -/
theorem received_isOk_iff (hi : env.info = true) {tracker : PeerTracker} {turns : List (Turn κ)}
    {s : Discovery κ} (h : run env (start tracker) turns = some s) :
    (s.alive = true → ∀ a content, (s.handleReceived env a content).isOk ↔
        ∀ json, env.json content = some json →
          (json.get "msg_type").bind Json.asStr = some "groups_exchange" → CutsWell json)
      ∧ ∀ gid ∈ s.forwarders, ∀ content now,
        (forwardGroup env.toEnv gid content now).isSome ↔ (short gid).isSome := by
  refine ⟨fun ha a content => handleReceived_isOk hi ?_ content, fun gid _ content now => ?_⟩
  · exact Machine.run_invariant (I := fun s => s.alive = true → s.Cuttable)
      (fun _ _ _ hs h => step_cuttable hi hs h) (by simp [start, Cuttable]) h ha
  · rw [forwardGroup_isSome]
    simp [hi]

def hiEnv : DiscoveryEnv Unit where
  toEnv := { nodeId := "me", reader := .compact, blake3 := fun _ => Digest.hi, info := true }
  json := Json.fromSlice
  keys := .only "d75a980182b10ab7d54bfed3c964073a0ee172f3daa62325af021a68f707511a"

def fine : Answers where
  subscribed _ := true
  joined _ := true
  clock _ := 1
  fails _ _ := false

def joinRust : Json :=
  .obj [("msg_type", .str "groups_exchange"), ("node_id", .str "peer"),
    ("local_groups", .arr [.str "rust"])]

/-- A node id whose sixteenth byte is inside a character. -/
def cutInside : Json :=
  .obj [("msg_type", .str "groups_exchange"), ("node_id", .str "aaaaaaaaaaaaaaaé"),
    ("local_groups", .arr [])]

theorem json_toVec (j : Json) : hiEnv.json j.toVec = some j := Json.fromSlice_toVec j

theorem cutInside_panics :
    ¬ ∀ turns s, run hiEnv (start (.new .empty)) turns = some s → s.alive = true →
      ∀ a content, (s.handleReceived hiEnv a content).isOk := by
  intro h
  have hok := h [] _ rfl rfl fine cutInside.toVec
  have hcuts := (handleReceived_isOk rfl (by simp [start, Cuttable]) cutInside.toVec).1 hok
    cutInside
    (json_toVec cutInside) (by decide)
  have hcut := (hcuts "aaaaaaaaaaaaaaaé" (by decide)).1
  revert hcut
  decide

theorem received_isOk_iff_joinRust :
    ∃ s, run hiEnv (start (.new .empty)) [.received joinRust.toVec fine] = some s
      ∧ "rust" ∈ s.forwarders ∧ ∀ gid ∈ s.forwarders, ∀ content now,
        (forwardGroup hiEnv.toEnv gid content now).isSome ↔ (short gid).isSome := by
  have hrun : run hiEnv (start (.new .empty)) [.received joinRust.toVec fine]
      = some (settle ((start (.new .empty)).handleReceived hiEnv fine joinRust.toVec)) := by
    simp only [run, Machine.run, step, start, if_true, Option.bind_some]
  refine ⟨_, hrun, ?_, (received_isOk_iff rfl hrun).2⟩
  have hmsg : (joinRust.get "msg_type").bind Json.asStr = some "groups_exchange" := by decide
  simp only [handleReceived, json_toVec, hmsg, if_true]
  decide +kernel

end Discovery

end XaeroFlux
