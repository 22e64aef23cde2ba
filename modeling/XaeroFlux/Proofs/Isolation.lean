import XaeroFlux.Isolation
import XaeroFlux.Proofs.Lifetime

/-!
# Isolation of meshes

A node's topics are those of its key and of the groups announced to it (`Peer.Grows`). Labels of
different topics differ, so where Blake3 does not collide and no group is announced in two meshes,
a message reaches a node of its own key only (`isolated`). A group announced in both has one topic
for both: what is published there in one mesh is handed over in the other.
-/

namespace XaeroFlux

/-! ## The groups a discovery task subscribes to -/

namespace Discovery

variable {κ : Type} {env : DiscoveryEnv κ}

section Received

variable {a : Answers} {fromNode : String} {base groups : List String}

def SendersIn (base groups : List String) (s : Discovery κ) : Prop :=
  ∀ g ∈ s.senders, g ∈ base ∨ g ∈ groups

theorem joinGroup_sendersIn {gid : String} {i : ℕ} (hg : gid ∈ groups) {s : Discovery κ}
    (hs : SendersIn base groups s) :
    SendersIn base groups (s.joinGroup env a fromNode gid i).state := by
  simp only [joinGroup]
  by_cases hm : gid ∈ s.senders
  · rw [if_pos hm]
    split
    · split_ifs <;> simpa
    · exact hs
  · rw [if_neg hm]
    split_ifs
    · rw [state_log]
      intro g hg'
      rcases List.mem_append.1 hg' with hg' | hg'
      · exact hs g hg'
      · exact .inr (List.mem_singleton.1 hg' ▸ hg)
    · simpa

theorem trackPeer_senders {gid : String} {i : ℕ} (p : Discovery κ × Introductions) :
    (trackPeer env a fromNode gid i p).state.1.senders = p.1.senders := by
  unfold trackPeer
  split <;> simp [emit]

theorem handleGroup_sendersIn {p : Discovery κ × Introductions} {group : Json × ℕ}
    (hg : ∀ gid, group.1.asStr = some gid → gid ∈ groups) (hp : SendersIn base groups p.1) :
    SendersIn base groups (handleGroup env a fromNode p group).state.1 := by
  unfold handleGroup
  split
  · rename_i gid hgid
    refine Exec.state_bind
      (I := fun p : Discovery κ × Introductions => SendersIn base groups p.1) ?_ ?_
    · rw [Exec.state_map]
      exact joinGroup_sendersIn (hg gid hgid) hp
    · intro q hq
      unfold SendersIn
      rw [trackPeer_senders]
      exact hq
  · exact hp

end Received

theorem announced_of_listing {content : ByteArray} {fromNode gid : String} {groups : List Json}
    (hl : listing env content = some (fromNode, groups)) (hg : Json.str gid ∈ groups) :
    gid ∈ announcedGroups env content := by
  unfold announcedGroups
  rw [hl, List.mem_filterMap]
  exact ⟨.str gid, hg, rfl⟩

theorem gather_received_senders (a : Answers) (content : ByteArray) (s : Discovery κ) :
    SendersIn s.senders (announcedGroups env content)
      (s.gather env (.received content a)).state.1 := by
  have hself : SendersIn s.senders (announcedGroups env content) s := fun g hg => .inl hg
  rcases received_cases env s content a with h | ⟨-, h⟩ | ⟨fromNode, groups, hl, h⟩
  · rw [h]
    exact hself
  · rw [h]
    exact hself
  · rw [h]
    refine Exec.state_forEach (I := fun p : Discovery κ × Introductions =>
      SendersIn s.senders (announcedGroups env content) p.1) (fun p group hm hp => ?_) hself
    refine handleGroup_sendersIn (fun gid hgid => announced_of_listing hl ?_) hp
    rw [← Json.asStr_eq_some.1 hgid]
    exact List.fst_mem_of_mem_zipIdx hm

/-- A turn subscribes only to groups that the message it handles announces. -/
theorem step_senders {s s' : Discovery κ} {turn : Turn κ} (h : s.step env turn = some s') :
    ∀ g ∈ s'.senders, g ∈ s.senders ∨
      ∃ content a, turn = .received content a ∧ g ∈ announcedGroups env content := by
  intro g hg
  rcases step_cases h with ⟨-, hb⟩ | ⟨gid, content, now, forwarders, rfl, rfl, -⟩
  · rw [hb.senders] at hg
    rcases turn.received_or with ⟨content, a, rfl⟩ | hturn
    · exact (gather_received_senders a content s g hg).imp_right fun hg => ⟨content, a, rfl, hg⟩
    · rw [(gather_subscriptions env s hturn).1] at hg
      exact .inl hg
  · exact .inl hg

end Discovery

/-! ## A node -/

namespace Peer

variable {ι κ : Type} {env : DiscoveryEnv κ} {p p' : Peer ι κ}

/-- What a step of a node can add: groups among `new`, and takings of `origin`'s messages. -/
structure Grows (p p' : Peer ι κ) (origin : ι) (new : List String) : Prop where
  kept : ∀ g ∈ p.joined, g ∈ p'.joined
  joined : ∀ g ∈ p'.joined, g ∈ p.joined ∨ g ∈ new
  senders : ∀ g ∈ p'.discovery.senders, g ∈ p'.joined
  reading : p'.reading = p.reading ∨ p'.reading = origin
  taken : ∀ x ∈ p'.taken, x ∈ p.taken ∨ x.1 = origin

/-- The node is on record as having joined the groups it is subscribed to. -/
def Recorded (p : Peer ι κ) : Prop := ∀ g ∈ p.discovery.senders, g ∈ p.joined

theorem topics_subset {p : Peer ι κ} {k : String} (hp : p.Recorded) {t : Topic}
    (h : t ∈ p.topics k) : t ∈ p.everTopics k := by
  simp only [topics, everTopics, List.mem_cons, List.mem_map] at h ⊢
  rcases h with h | h | ⟨g, hg, h⟩
  · exact .inl h
  · exact .inr (.inl h)
  · exact .inr (.inr ⟨g, hp g hg, h⟩)

theorem everTopics_mono {p p' : Peer ι κ} {k : String} (hp : ∀ g ∈ p.joined, g ∈ p'.joined)
    {t : Topic} (h : t ∈ p.everTopics k) : t ∈ p'.everTopics k := by
  simp only [everTopics, List.mem_cons, List.mem_map] at h ⊢
  rcases h with h | h | ⟨g, hg, h⟩
  · exact .inl h
  · exact .inr (.inl h)
  · exact .inr (.inr ⟨g, hp g hg, h⟩)

theorem mem_take {origin : ι} {takes : List Take} {x : ι × Take}
    (h : x ∈ (p.take origin takes).taken) : x ∈ p.taken ∨ x.1 = origin := by
  rcases List.mem_append.1 h with h | h
  · exact .inl h
  · obtain ⟨t, -, rfl⟩ := List.mem_map.1 h
    exact .inr rfl

theorem grows_turn (hp : p.Recorded) {t : Discovery.Turn κ} {d : Discovery κ}
    (h : Discovery.step env p.discovery t = some d) {new : List String}
    (hnew : ∀ content a, t = .received content a → ∀ g ∈ announcedGroups env content, g ∈ new)
    (origin : ι) (takes : List Take) :
    Grows p ((p.setDiscovery d).take origin takes) origin new where
  kept g hg := List.mem_append_left _ hg
  joined g hg := by
    rcases List.mem_append.1 hg with hg | hg
    · exact .inl hg
    · rcases Discovery.step_senders h g hg with hg | ⟨content, a, ht, hg⟩
      · exact .inl (hp g hg)
      · exact .inr (hnew content a ht g hg)
  senders g hg := List.mem_append_right _ hg
  reading := .inl rfl
  taken _ hx := mem_take hx

/-- A node subscribes to new groups only by what comes on its discovery topic. -/
theorem receive_grows (hp : p.Recorded) {origin : ι} {content : ByteArray} {a : Answers}
    {now : UInt64} {topic : Topic} (h : p.receive env origin content a now topic = some p') :
    ∃ new, Grows p p' origin new ∧
      (new ≠ [] → (∃ k, topic = .discovery k) ∧ new = announcedGroups env content) := by
  unfold receive at h
  split at h
  · obtain ⟨node, -, rfl⟩ := Option.map_eq_some_iff.1 h
    exact ⟨[], ⟨fun _ hg => hg, fun _ hg => .inl hg, hp, .inr rfl, fun _ hx => .inl hx⟩, by simp⟩
  · rename_i k
    obtain ⟨d, hd, rfl⟩ := Option.map_eq_some_iff.1 h
    refine ⟨announcedGroups env content, grows_turn hp hd ?_ _ _, fun _ => ⟨⟨k, rfl⟩, rfl⟩⟩
    rintro content a ⟨⟩ g hg
    exact hg
  · obtain ⟨d, hd, rfl⟩ := Option.map_eq_some_iff.1 h
    exact ⟨[], grows_turn hp hd (by rintro content a ⟨⟩) _ _, by simp⟩

theorem act_grows (hp : p.Recorded) {a : Act} (h : p.act env a = some p') :
    Grows p p' p.reading [] := by
  obtain ⟨-, h⟩ := Option.ite_none_right_eq_some.1 h
  obtain ⟨node, -, rfl⟩ := Option.map_eq_some_iff.1 h
  exact ⟨fun _ hg => hg, fun _ hg => .inl hg, hp, .inl rfl, fun _ hx => mem_take hx⟩

theorem turn_grows (hp : p.Recorded) {t : Discovery.Turn κ} (h : p.turn env t = some p') :
    Grows p p' p.reading [] := by
  obtain ⟨hl, h⟩ := Option.ite_none_right_eq_some.1 h
  obtain ⟨d, hd, rfl⟩ := Option.map_eq_some_iff.1 h
  have hnone : ∀ content a, t = .received content a → ∀ g ∈ announcedGroups env content,
      g ∈ ([] : List String) := by
    rintro content a rfl
    simp [Discovery.Turn.isLocal] at hl
  simpa [take] using grows_turn hp hd hnone p.reading []

theorem restart_grows : Grows p p.restart p.reading [] :=
  ⟨fun _ hg => hg, fun _ hg => .inl hg, by simp [restart, Discovery.start], .inl rfl,
    fun _ hx => .inl hx⟩

theorem Grows.refl (hp : p.Recorded) (origin : ι) : Grows p p origin [] :=
  ⟨fun _ hg => hg, fun _ hg => .inl hg, hp, .inl rfl, fun _ hx => .inl hx⟩

end Peer

/-! ## The network -/

namespace World

variable {ι κ : Type} [DecidableEq ι] {env : DiscoveryEnv κ} {nodeId key : ι → String}

variable (key) in
/-- Meshes of different keys have no group in common and nothing of each other. -/
structure Sound (w : World ι κ) : Prop where
  recorded : ∀ i, (w.peers i).Recorded
  apart : ∀ i j, key i ≠ key j → ∀ g ∈ (w.peers i).joined, g ∉ (w.peers j).joined
  published : ∀ m ∈ w.published, m.topic ∈ (w.peers m.origin).everTopics (key m.origin)
  reading : ∀ i, key (w.peers i).reading = key i
  isolated : Isolated key w

theorem peers_set (w : World ι κ) (i j : ι) (p : Peer ι κ) :
    (w.set i p).peers j = if j = i then p else w.peers j :=
  Function.update_apply ..

/-- What a step of one node does to the whole, where it takes a message of its own key. -/
theorem Sound.set {w : World ι κ} (hw : Sound key w) {i origin : ι} {p : Peer ι κ}
    {new : List String} (hp : Peer.Grows (w.peers i) p origin new) (ho : key origin = key i)
    (hnew : ∀ g ∈ new, ∀ j, key j ≠ key i → g ∉ (w.peers j).joined) : Sound key (w.set i p) where
  recorded j := by
    rw [peers_set]
    split_ifs
    · exact hp.senders
    · exact hw.recorded j
  apart j k hjk g hgj hgk := by
    rw [peers_set] at hgj hgk
    split_ifs at hgj hgk with hj hk hk
    · exact hjk (by rw [hj, hk])
    · subst hj
      rcases hp.joined g hgj with hg | hg
      · exact hw.apart j k hjk g hg hgk
      · exact hnew g hg k hjk.symm hgk
    · subst hk
      rcases hp.joined g hgk with hg | hg
      · exact hw.apart j k hjk g hgj hg
      · exact hnew g hg j hjk hgj
    · exact hw.apart j k hjk g hgj hgk
  published m hm := by
    have hold := hw.published m hm
    rw [peers_set]
    split_ifs with ho
    · rw [ho] at hold ⊢
      exact Peer.everTopics_mono hp.kept hold
    · exact hold
  reading j := by
    rw [peers_set]
    split_ifs with hj
    · subst hj
      rcases hp.reading with h | h
      · rw [h, hw.reading]
      · rw [h, ho]
    · exact hw.reading j
  isolated j x hx := by
    rw [peers_set] at hx
    split_ifs at hx with hj
    · subst hj
      rcases hp.taken x hx with hx | hx
      · exact hw.isolated j x hx
      · rw [hx, ho]
    · exact hw.isolated j x hx

omit [DecidableEq ι] in
theorem Sound.key_eq {w : World ι κ} (hw : Sound key w) {i j : ι} {t : Topic}
    (hi : t ∈ (w.peers i).everTopics (key i)) (hj : t ∈ (w.peers j).everTopics (key j)) :
    key i = key j := by
  by_contra hne
  simp only [Peer.everTopics, List.mem_cons, List.mem_map] at hi hj
  rcases hi with rfl | rfl | ⟨g, hg, rfl⟩
  · simp [hne] at hj
  · simp [hne] at hj
  · obtain ⟨g', hg', h⟩ : ∃ g' ∈ (w.peers j).joined, Topic.group g' = .group g := by simpa using hj
    obtain rfl := Topic.group.inj h
    exact hw.apart i j hne g' hg hg'

theorem Sound.step {w w' : World ι κ} {a : WorldAct ι κ} (hw : Sound key w)
    (hb : NoCollision env key w) (ha : Apart env key w a) (h : step env nodeId key w a = some w') :
    Sound key w' := by
  cases a with
  | publish m =>
    obtain ⟨hm, h⟩ := Option.ite_none_right_eq_some.1 h
    obtain rfl := Option.some.inj h
    refine ⟨hw.recorded, hw.apart, fun m' hm' => ?_, hw.reading, hw.isolated⟩
    rcases List.mem_append.1 hm' with hm' | hm'
    · exact hw.published m' hm'
    · rw [List.mem_singleton.1 hm']
      exact Peer.topics_subset (hw.recorded _) hm
  | deliver i m topic a now =>
    obtain ⟨⟨hm, ht, hid⟩, h⟩ := Option.ite_none_right_eq_some.1 h
    obtain ⟨p, hp, rfl⟩ := Option.map_eq_some_iff.1 h
    have hti := Peer.topics_subset (hw.recorded i) ht
    have hto := hw.published m hm
    obtain rfl := Topic.eq_of_id_eq (hb m.origin i _ hto _ hti) hid
    obtain ⟨new, hg, hnew⟩ := Peer.receive_grows (hw.recorded i) hp
    refine hw.set hg (hw.key_eq hto hti) fun g hg j hj => ?_
    obtain ⟨⟨k, hk⟩, rfl⟩ := hnew (List.ne_nil_of_mem hg)
    rw [hk] at ha
    exact ha g hg j hj
  | act i a =>
    obtain ⟨p, hp, rfl⟩ := Option.map_eq_some_iff.1 h
    exact hw.set (Peer.act_grows (hw.recorded i) hp) (hw.reading i) (by simp)
  | turn i t =>
    obtain ⟨p, hp, rfl⟩ := Option.map_eq_some_iff.1 h
    exact hw.set (Peer.turn_grows (hw.recorded i) hp) (hw.reading i) (by simp)
  | restart i =>
    obtain rfl := Option.some.inj h
    exact hw.set Peer.restart_grows (hw.reading i) (by simp)

theorem step_grows {w w' : World ι κ} {a : WorldAct ι κ} (hw : ∀ i, (w.peers i).Recorded)
    (h : step env nodeId key w a = some w') (j : ι) :
    ∃ origin new, Peer.Grows (w.peers j) (w'.peers j) origin new := by
  have hset : ∀ i p origin new, Peer.Grows (w.peers i) p origin new →
      ∃ origin new, Peer.Grows (w.peers j) ((w.set i p).peers j) origin new := by
    intro i p origin new hp
    rw [peers_set]
    split_ifs with hj
    · exact ⟨origin, new, hj ▸ hp⟩
    · exact ⟨origin, [], .refl (hw j) origin⟩
  cases a with
  | publish m =>
    obtain rfl := Option.some.inj (Option.ite_none_right_eq_some.1 h).2
    exact ⟨j, [], .refl (hw j) j⟩
  | deliver i m topic a now =>
    obtain ⟨p, hp, rfl⟩ := Option.map_eq_some_iff.1 (Option.ite_none_right_eq_some.1 h).2
    obtain ⟨new, hg, -⟩ := Peer.receive_grows (hw i) hp
    exact hset i p _ new hg
  | act i a =>
    obtain ⟨p, hp, rfl⟩ := Option.map_eq_some_iff.1 h
    exact hset i p _ [] (Peer.act_grows (hw i) hp)
  | turn i t =>
    obtain ⟨p, hp, rfl⟩ := Option.map_eq_some_iff.1 h
    exact hset i p _ [] (Peer.turn_grows (hw i) hp)
  | restart i =>
    obtain rfl := Option.some.inj h
    exact hset i _ _ [] Peer.restart_grows

/-- A collision among the topics of an earlier state is one among the topics of a later one. -/
theorem noCollision_of_run {w w' : World ι κ} (hw : ∀ i, (w.peers i).Recorded) :
    ∀ {as : List (WorldAct ι κ)}, run env nodeId key w as = some w' → NoCollision env key w' →
      NoCollision env key w
  | [], h, hb => by rwa [Machine.run_nil.1 h]
  | a :: as, h, hb => by
    obtain ⟨m, hm, h⟩ := Machine.run_cons.1 h
    have hg := step_grows hw hm
    have hmr : ∀ i, (m.peers i).Recorded := fun i => by
      obtain ⟨_, _, hi⟩ := hg i
      exact hi.senders
    have hmono : ∀ i t, t ∈ (w.peers i).everTopics (key i) →
        t ∈ (m.peers i).everTopics (key i) := by
      intro i t ht
      obtain ⟨_, _, hi⟩ := hg i
      exact Peer.everTopics_mono hi.kept ht
    exact fun i j t ht t' ht' =>
      noCollision_of_run hmr h hb i j t (hmono i t ht) t' (hmono j t' ht')

/-- The induction is from the front: that nothing collides in an earlier state is known of the
last state only. -/
theorem Sound.run {w' : World ι κ} (hb : NoCollision env key w') :
    ∀ {as : List (WorldAct ι κ)} {w : World ι κ}, Sound key w →
      run env nodeId key w as = some w' →
      Machine.EachStep (World.step env nodeId key) w as (fun _ => Apart env key) → Sound key w'
  | [], w, hw, h, _ => by rwa [← Machine.run_nil.1 h]
  | a :: as, w, hw, h, ha => by
    have hbw := noCollision_of_run hw.recorded h hb
    obtain ⟨m, hm, h⟩ := Machine.run_cons.1 h
    obtain ⟨ha, has⟩ := Machine.eachStep_cons.1 ha
    exact Sound.run hb (hw.step hbw ha hm) h (has m hm)

omit [DecidableEq ι] in
theorem sound_start (events : ι → EventTable) (rows : ι → PeerTable) :
    Sound key (start events rows : World ι κ) := by
  constructor <;> simp [start, Peer.Recorded, Discovery.start, Isolated]

/-- In a run of nodes of any keys, where no group announced to a node was joined by a node of
another key, no node takes a message of a mesh with another key. -/
theorem isolated {events : ι → EventTable} {rows : ι → PeerTable} {as : List (WorldAct ι κ)}
    {w : World ι κ} (h : run env nodeId key (start events rows) as = some w)
    (hb : NoCollision env key w)
    (ha : Machine.EachStep (step env nodeId key) (start events rows) as
      fun _ => Apart env key) : Isolated key w :=
  (Sound.run hb (sound_start events rows) h ha).isolated

/-! Three nodes, the last in a mesh of its own. -/

def projectKey : Fin 3 → String
  | 0 | 1 => "project-alpha"
  | 2 => "project-beta"

def projectId : Fin 3 → String
  | 0 => "peer1"
  | 1 => "peer2"
  | 2 => "peer3"

/-- Blake3, on the labels of these meshes and on `hi`. -/
def projectBlake3 (bytes : ByteArray) : Digest :=
  if bytes = (Topic.discovery "project-alpha").label.toUTF8 then
    #v[0xe7, 0xdf, 0x04, 0xf3, 0xe6, 0xe4, 0x57, 0xef, 0x99, 0x4d, 0x03, 0x0c, 0x60, 0xa4, 0xab, 0xd3,
      0x07, 0x05, 0x92, 0xaf, 0x3b, 0x06, 0x6d, 0xb9, 0x71, 0xa3, 0x80, 0xfe, 0xe2, 0x7b, 0x4a, 0x37]
  else if bytes = (Topic.discovery "project-beta").label.toUTF8 then
    #v[0xd4, 0x75, 0x6b, 0x94, 0x88, 0x0d, 0x10, 0x17, 0x95, 0x1d, 0x9f, 0x5e, 0x40, 0x5b, 0x18, 0xc3,
      0xbb, 0xf1, 0xcc, 0x28, 0x26, 0x56, 0x30, 0xea, 0x7b, 0xf1, 0x4f, 0xec, 0xd2, 0xc6, 0x63, 0xb5]
  else if bytes = (Topic.events "project-alpha").label.toUTF8 then
    #v[0xde, 0x70, 0x54, 0x43, 0x64, 0x0d, 0x62, 0xfd, 0x93, 0x87, 0xa4, 0x04, 0x7d, 0xc0, 0x25, 0xb5,
      0xd6, 0x7d, 0x19, 0x0a, 0x8a, 0xba, 0xb4, 0x32, 0x7d, 0xf2, 0x06, 0x82, 0xf5, 0x88, 0x8c, 0x02]
  else if bytes = (Topic.events "project-beta").label.toUTF8 then
    #v[0x88, 0x19, 0xdd, 0xd4, 0x86, 0x18, 0x9d, 0x65, 0x96, 0x38, 0x70, 0x25, 0xa0, 0x6e, 0xf4, 0x33,
      0x63, 0x84, 0x00, 0xdf, 0xb6, 0x61, 0x4b, 0x7a, 0xba, 0x7a, 0x12, 0xd3, 0x19, 0x9c, 0xb3, 0xc0]
  else if bytes = (Topic.group "rust").label.toUTF8 then
    #v[0x76, 0xba, 0x7e, 0xfd, 0x53, 0xfd, 0x77, 0x29, 0xc3, 0xaf, 0xa4, 0xb7, 0xa1, 0x39, 0x78, 0x27,
      0x03, 0x37, 0x10, 0xe8, 0xe2, 0x98, 0xf9, 0xc1, 0x0d, 0x9c, 0xbe, 0x78, 0x11, 0xf7, 0x38, 0x48]
  else Digest.hi

open Discovery in
def projectEnv : DiscoveryEnv Unit where
  toEnv := { hiEnv.toEnv with blake3 := projectBlake3 }
  json bytes := if bytes = joinRust.toVec then some joinRust else none
  keys := hiEnv.keys

def send (i j : Fin 3) (topic : Topic) (content : ByteArray) : List (WorldAct (Fin 3) Unit) :=
  [.publish ⟨i, topic, content⟩, .deliver j ⟨i, topic, content⟩ topic Discovery.fine 1]

def joinAlpha : List (WorldAct (Fin 3) Unit) :=
  send 0 1 (.discovery "project-alpha") Discovery.joinRust.toVec

/-- In the mesh of the last, a peer announces that group too, and it gets what the second sends. -/
def sharedGroup : List (WorldAct (Fin 3) Unit) :=
  joinAlpha ++ send 2 2 (.discovery "project-beta") Discovery.joinRust.toVec
    ++ send 1 2 (.group "rust") "hi".toUTF8

def ownGroup : List (WorldAct (Fin 3) Unit) :=
  joinAlpha ++ send 1 0 (.discovery "project-alpha") Discovery.joinRust.toVec
    ++ send 1 0 (.group "rust") "hi".toUTF8

theorem sharedGroup_not_isolated :
    ¬ ∀ as w, run projectEnv projectId projectKey (start (fun _ => .empty) fun _ => .empty) as = some w →
      NoCollision projectEnv projectKey w → Isolated projectKey w := by
  intro h
  have hbad : ∃ w ∈ run projectEnv projectId projectKey (start (fun _ => .empty) fun _ => .empty)
      sharedGroup, NoCollision projectEnv projectKey w ∧ ¬ Isolated projectKey w := by
    decide +kernel
  obtain ⟨w, hw, hb, hi⟩ := hbad
  exact hi (h sharedGroup w hw hb)

theorem isolated_ownGroup :
    ∃ w, run projectEnv projectId projectKey (start (fun _ => .empty) fun _ => .empty) ownGroup
      = some w ∧ Isolated projectKey w ∧ (w.peers 0).taken.length = 2 := by
  have hgood : ∃ w ∈ run projectEnv projectId projectKey (start (fun _ => .empty) fun _ => .empty)
      ownGroup, NoCollision projectEnv projectKey w ∧ (w.peers 0).taken.length = 2 := by
    decide +kernel
  obtain ⟨w, hw, hb, hlen⟩ := hgood
  exact ⟨w, hw, isolated hw hb (by decide +kernel), hlen⟩

end World

end XaeroFlux
