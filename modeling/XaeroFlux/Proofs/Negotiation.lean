import XaeroFlux.Negotiation
import XaeroFlux.Proofs.Swarm

/-!
# What the negotiation tells

Every `IHave` broadcast is of a node that has the blob, and goes on having it; a registry is made of
nothing else. So the holders a node knows of have the blob (`holders_sound`), and none is forgotten.
-/

namespace XaeroFlux

namespace BlobSwarm

variable {κ : Type} {env : SwarmEnv κ} {s : BlobSwarm} {raw : ByteArray}

@[simp] theorem store_recordHolder (s : BlobSwarm) (hashHex holder : String) :
    (s.recordHolder hashHex holder).store = s.store := by
  unfold recordHolder
  split_ifs <;> rfl

@[simp] theorem store_onMessage (s : BlobSwarm) (raw : ByteArray) :
    (s.onMessage env raw).2.store = s.store := by
  unfold onMessage
  split
  · rfl
  · exact store_recordHolder ..
  · split <;> rfl

/-- A node replies with an announcement of a blob it has. -/
theorem onMessage_reply {reply : SwarmMessage} (h : (s.onMessage env raw).1 = .ok (some reply)) :
    ∃ hash, reply = s.announce hash ∧ s.has env hash := by
  unfold onMessage at h
  split at h
  · simp at h
  · simp at h
  · split at h
    · simp at h
    · rename_i hash _
      simp only [Except.ok.injEq] at h
      split_ifs at h with hhas
      exact ⟨hash, (Option.some.inj h).symm, hhas⟩

end BlobSwarm

namespace Negotiation

variable {ι κ : Type} {env : SwarmEnv κ} {nodeIds : ι → String} {s s' : Negotiation ι}

/-! ## The invariant -/

/-- Nothing is told of a node but the blobs it has. -/
structure Sound (env : SwarmEnv κ) (nodeIds : ι → String) (s : Negotiation ι) : Prop where
  nodeId : ∀ i, (s.nodes i).nodeId = nodeIds i
  sent : ∀ hashHex id, .iHave hashHex id ∈ s.sent →
    ∃ b hash, hashHex = hash.toHex ∧ id = nodeIds b ∧ (s.nodes b).has env hash
  holders : ∀ a hash, ∀ id ∈ (s.nodes a).holdersOf hash,
    ∃ b, b ≠ a ∧ id = nodeIds b ∧ (s.nodes b).has env hash

theorem Sound.send_query (h : Sound env nodeIds s) (i : ι) (hash : Digest) :
    Sound env nodeIds (s.send ((s.nodes i).query hash)) where
  nodeId := h.nodeId
  sent hashHex id hm := by
    rcases List.mem_append.1 hm with hm | hm
    · exact h.sent hashHex id hm
    · simp [BlobSwarm.query] at hm
  holders := h.holders

theorem Sound.send_announce (h : Sound env nodeIds s) {i : ι} {hash : Digest}
    (hhas : (s.nodes i).has env hash) {node : BlobSwarm} (hid : node.nodeId = nodeIds i) :
    Sound env nodeIds (s.send (node.announce hash)) where
  nodeId := h.nodeId
  sent hashHex id hm := by
    rcases List.mem_append.1 hm with hm | hm
    · exact h.sent hashHex id hm
    · obtain ⟨rfl, rfl⟩ := SwarmMessage.iHave.inj (List.mem_singleton.1 hm)
      exact ⟨i, hash, rfl, hid, hhas⟩
  holders := h.holders

theorem sound_start (stores : ι → Digest → Finset ℕ) :
    Sound env nodeIds (start stores nodeIds) where
  nodeId _ := rfl
  sent _ _ hm := by simp [start] at hm
  holders _ _ _ hm := by simp [start, BlobSwarm.new, BlobSwarm.holdersOf] at hm

variable [DecidableEq ι]

/-! ## What a step does -/

theorem step_deliver {i : ι} {m : SwarmMessage} (h : step env s (.deliver i m) = some s') :
    m ∈ s.sent ∧
      (s' = s.setNode i ((s.nodes i).onMessage env m.toVec).2
        ∨ ∃ hash, (s.nodes i).has env hash
          ∧ s' = (s.setNode i ((s.nodes i).onMessage env m.toVec).2).send
            ((s.nodes i).announce hash)) := by
  simp only [step] at h
  split_ifs at h with hm
  refine ⟨hm, ?_⟩
  split at h
  · rename_i reply node hreply
    obtain ⟨hash, rfl, hhas⟩ := BlobSwarm.onMessage_reply (congrArg Prod.fst hreply)
    refine .inr ⟨hash, hhas, ?_⟩
    rw [hreply]
    exact (Option.some.inj h).symm
  · rename_i node _ hnode
    refine .inl ?_
    rw [hnode]
    exact (Option.some.inj h).symm

/-- A message once broadcast can come at any time. -/
theorem exists_step_deliver {m : SwarmMessage} (hm : m ∈ s.sent) (i : ι) :
    ∃ s', step env s (.deliver i m) = some s' := by
  simp only [step, if_pos hm]
  split
  · exact ⟨_, rfl⟩
  · exact ⟨_, rfl⟩

/-- A node changed keeps the blobs that it and the others have, if it has no fewer. -/
theorem has_setNode {i : ι} {node : BlobSwarm}
    (hkeep : ∀ hash, (s.nodes i).has env hash → node.has env hash) {b : ι} {hash : Digest}
    (h : (s.nodes b).has env hash) : ((s.setNode i node).nodes b).has env hash := by
  by_cases hb : b = i
  · subst hb
    simpa [setNode] using hkeep hash h
  · simpa [setNode, hb] using h

/-- A change of a node that keeps its id and its blobs, and has no holders but sound ones. -/
theorem Sound.setNode (h : Sound env nodeIds s) {i : ι} {node : BlobSwarm}
    (hid : node.nodeId = nodeIds i) (hkeep : ∀ hash, (s.nodes i).has env hash → node.has env hash)
    (hholders : ∀ hash, ∀ id ∈ node.holdersOf hash,
      ∃ b, b ≠ i ∧ id = nodeIds b ∧ (s.nodes b).has env hash) :
    Sound env nodeIds (s.setNode i node) where
  nodeId j := by
    by_cases hj : j = i
    · subst hj
      simpa [Negotiation.setNode] using hid
    · simpa [Negotiation.setNode, hj] using h.nodeId j
  sent hashHex id hm := by
    obtain ⟨b, hash, hhex, hb, hhas⟩ := h.sent hashHex id hm
    exact ⟨b, hash, hhex, hb, has_setNode hkeep hhas⟩
  holders a hash id hm := by
    obtain ⟨b, hb, hid, hhas⟩ : ∃ b, b ≠ a ∧ id = nodeIds b ∧ (s.nodes b).has env hash := by
      by_cases ha : a = i
      · subst ha
        exact hholders hash id (by simpa [Negotiation.setNode] using hm)
      · exact h.holders a hash id (by simpa [Negotiation.setNode, ha] using hm)
    exact ⟨b, hb, hid, has_setNode hkeep hhas⟩

theorem Sound.deliver (h : Sound env nodeIds s) {i : ι} {m : SwarmMessage} (hm : m ∈ s.sent) :
    Sound env nodeIds (s.setNode i ((s.nodes i).onMessage env m.toVec).2) := by
  refine h.setNode ?_ (fun hash hhas => ?_) (fun hash id hid => ?_)
  · rw [BlobSwarm.nodeId_onMessage, h.nodeId]
  · rwa [BlobSwarm.has, BlobSwarm.store_onMessage]
  · rw [BlobSwarm.mem_holdersOf_onMessage, env.fromSlice_toVec, h.nodeId] at hid
    rcases hid with hid | ⟨hm', hne⟩
    · exact h.holders i hash id hid
    · -- the holder learnt of now sent the message itself
      obtain rfl := Except.ok.inj hm'
      obtain ⟨b, hash', hhex, rfl, hhas⟩ := h.sent _ _ hm
      obtain rfl := Digest.toHex_injective hhex
      exact ⟨b, fun hb => hne (congrArg nodeIds hb), rfl, hhas⟩

theorem Sound.step (h : Sound env nodeIds s) {a : Act ι} (hs : step env s a = some s') :
    Sound env nodeIds s' := by
  cases a with
  | query i hash =>
    obtain rfl := Option.some.inj hs
    exact h.send_query i hash
  | announce i hash =>
    simp only [Negotiation.step] at hs
    split_ifs at hs with hhas
    obtain rfl := Option.some.inj hs
    exact h.send_announce hhas (h.nodeId i)
  | deliver i m =>
    obtain ⟨hm, rfl | ⟨hash, hhas, rfl⟩⟩ := step_deliver hs
    · exact h.deliver hm
    · refine (h.deliver hm).send_announce (i := i) ?_ (h.nodeId i)
      exact has_setNode (fun hash hhas => by rwa [BlobSwarm.has, BlobSwarm.store_onMessage]) hhas
  | store i hash ranges =>
    simp only [Negotiation.step] at hs
    split_ifs at hs with hkeep
    obtain rfl := Option.some.inj hs
    refine h.setNode (h.nodeId i) (fun hash' hhas => ?_) (h.holders i)
    by_cases hh : hash' = hash
    · subst hh
      simpa [BlobSwarm.has] using hkeep hhas
    · simpa [BlobSwarm.has, hh] using hhas

/-! ## Nothing is forgotten -/

theorem mem_holdersOf_setNode {i : ι} {node : BlobSwarm}
    (hkeep : ∀ hash, ∀ id ∈ (s.nodes i).holdersOf hash, id ∈ node.holdersOf hash) {j : ι}
    {hash : Digest} {id : String} (h : id ∈ (s.nodes j).holdersOf hash) :
    id ∈ ((s.setNode i node).nodes j).holdersOf hash := by
  by_cases hj : j = i
  · subst hj
    simpa [setNode] using hkeep hash id h
  · simpa [setNode, hj] using h

theorem mem_holdersOf_step {a : Act ι} (hs : step env s a = some s') {j : ι} {hash : Digest}
    {id : String} (h : id ∈ (s.nodes j).holdersOf hash) : id ∈ (s'.nodes j).holdersOf hash := by
  cases a with
  | query i hash =>
    obtain rfl := Option.some.inj hs
    exact h
  | announce i hash =>
    simp only [step] at hs
    split_ifs at hs
    obtain rfl := Option.some.inj hs
    exact h
  | deliver i m =>
    have hkeep : ∀ hash, ∀ id ∈ (s.nodes i).holdersOf hash,
        id ∈ ((s.nodes i).onMessage env m.toVec).2.holdersOf hash := fun hash id h =>
      (BlobSwarm.mem_holdersOf_onMessage env).2 (.inl h)
    obtain ⟨-, rfl | ⟨_, -, rfl⟩⟩ := step_deliver hs
    · exact mem_holdersOf_setNode hkeep h
    · exact mem_holdersOf_setNode hkeep h
  | store i hash ranges =>
    simp only [step] at hs
    split_ifs at hs
    obtain rfl := Option.some.inj hs
    refine mem_holdersOf_setNode ?_ h
    exact fun _ _ h => h

/-- A node goes on having what it has. -/
theorem has_step {a : Act ι} (h : step env s a = some s') {i : ι} {hash : Digest}
    (hhas : (s.nodes i).has env hash) : (s'.nodes i).has env hash := by
  cases a with
  | query j hash' => rwa [← Option.some.inj h]
  | announce j hash' =>
    simp only [step] at h
    split_ifs at h
    rwa [← Option.some.inj h]
  | deliver j m =>
    have hkeep : ((s.setNode j ((s.nodes j).onMessage env m.toVec).2).nodes i).has env hash :=
      has_setNode (fun hash h => by rwa [BlobSwarm.has, BlobSwarm.store_onMessage]) hhas
    obtain ⟨-, rfl | ⟨_, -, rfl⟩⟩ := step_deliver h
    · exact hkeep
    · exact hkeep
  | store j hash' ranges =>
    simp only [step] at h
    split_ifs at h with hguard
    rw [← Option.some.inj h]
    refine has_setNode (fun hash hhas => ?_) hhas
    by_cases hh : hash = hash'
    · subst hh
      simpa [BlobSwarm.has] using hguard hhas
    · simpa [BlobSwarm.has, hh] using hhas

/-- An announcement processed is recorded, if it is of another node. -/
theorem mem_holdersOf_deliver {i : ι} {hash : Digest} {id : String}
    (hs : step env s (.deliver i (.iHave hash.toHex id)) = some s') (hid : id ≠ (s.nodes i).nodeId) :
    id ∈ (s'.nodes i).holdersOf hash := by
  have hnode : id ∈ ((s.nodes i).onMessage env (SwarmMessage.iHave hash.toHex id).toVec).2.holdersOf
      hash := by
    rw [BlobSwarm.mem_holdersOf_onMessage, env.fromSlice_toVec]
    exact .inr ⟨rfl, hid⟩
  obtain ⟨-, rfl | ⟨_, -, rfl⟩⟩ := step_deliver hs
  · simpa [setNode] using hnode
  · simpa [setNode, send] using hnode

/-- In every state reached the holders a node knows of a blob are other nodes that have it, and
those whose announcements of it came to the node are among them. -/
theorem holders_sound (hids : Function.Injective nodeIds) {stores : ι → Digest → Finset ℕ}
    {as : List (Act ι)} (h : run env (start stores nodeIds) as = some s) (a : ι) (hash : Digest) :
    (∀ id ∈ (s.nodes a).holdersOf hash,
        ∃ b, b ≠ a ∧ (s.nodes b).nodeId = id ∧ (s.nodes b).has env hash)
      ∧ ∀ b, b ≠ a → .deliver a (.iHave hash.toHex (nodeIds b)) ∈ as →
        nodeIds b ∈ (s.nodes a).holdersOf hash := by
  have hrun : Sound env nodeIds s ∧ ∀ b, b ≠ a →
      Act.deliver a (.iHave hash.toHex (nodeIds b)) ∈ as →
      nodeIds b ∈ (s.nodes a).holdersOf hash := by
    refine Machine.run_induction (P := fun as s => Sound env nodeIds s ∧ ∀ b, b ≠ a →
      Act.deliver a (.iHave hash.toHex (nodeIds b)) ∈ as →
      nodeIds b ∈ (s.nodes a).holdersOf hash) ?_ ?_ h
    · exact ⟨sound_start stores, fun b _ hm => absurd hm List.not_mem_nil⟩
    · intro as s act s' _ ⟨hsound, hknown⟩ hs
      refine ⟨hsound.step hs, fun b hb hm => ?_⟩
      rcases List.mem_append.1 hm with hm | hm
      · exact mem_holdersOf_step hs (hknown b hb hm)
      · obtain rfl := List.mem_singleton.1 hm
        refine mem_holdersOf_deliver hs ?_
        rw [hsound.nodeId]
        exact fun he => hb (hids he)
  obtain ⟨hsound, hknown⟩ := hrun
  refine ⟨fun id hid => ?_, hknown⟩
  obtain ⟨b, hb, rfl, hhas⟩ := hsound.holders a hash id hid
  exact ⟨b, hb, hsound.nodeId b, hhas⟩

/-- Two nodes, of which `alice` has every blob. -/
def names (b : Bool) : String := if b then "alice" else "bob"

def stores (b : Bool) (_ : Digest) : Finset ℕ := if b then {0} else ∅

def hiTold : List (Act Bool) :=
  [.announce true Digest.hi, .deliver false (.iHave Digest.hi.toHex "alice")]

theorem names_injective : Function.Injective names := by
  intro a b h
  cases a <;> cases b <;> simp_all [names]

theorem holders_sound_hiTold : ∃ s, run BlobSwarm.hiEnv (start stores names) hiTold = some s
    ∧ "alice" ∈ (s.nodes false).holdersOf Digest.hi := by
  have hannounce : step BlobSwarm.hiEnv (start stores names) (.announce true Digest.hi) =
      some ((start stores names).send (.iHave Digest.hi.toHex "alice")) := by
    have hhas : ((start stores names).nodes true).has BlobSwarm.hiEnv Digest.hi := by decide
    simp only [step, hhas, if_true]
    rfl
  obtain ⟨s, hs⟩ : ∃ s, step BlobSwarm.hiEnv
      ((start stores names).send (.iHave Digest.hi.toHex "alice"))
      (.deliver false (.iHave Digest.hi.toHex "alice")) = some s :=
    exists_step_deliver (List.mem_singleton.2 rfl) false
  have hrun : run BlobSwarm.hiEnv (start stores names) hiTold = some s :=
    Machine.run_cons.2 ⟨_, hannounce, Machine.run_cons.2 ⟨s, hs, rfl⟩⟩
  refine ⟨s, hrun, (holders_sound names_injective hrun false Digest.hi).2 true (by decide) ?_⟩
  exact List.mem_cons_of_mem _ List.mem_cons_self

end Negotiation

end XaeroFlux
