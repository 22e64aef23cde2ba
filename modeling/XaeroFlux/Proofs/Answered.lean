import XaeroFlux.Proofs.HolderRegistry
import XaeroFlux.Proofs.Negotiation

/-!
# Who answers

Where gossip brings every broadcast to every other node sooner or later, a registry is complete: it
lists exactly the other nodes that have told of the blob, by announcing it or because some node
asked when they had it (`holders_iff_tells`). What one node asks for, all come to know.
-/

namespace XaeroFlux

namespace Negotiation

variable {ι κ : Type} {env : SwarmEnv κ} {nodeIds : ι → String} {s s' s₀ : Negotiation ι}

def Act.node : Act ι → ι
  | .query i _ | .announce i _ | .deliver i _ | .store i _ _ => i

variable [DecidableEq ι] {as bs : List (Act ι)}

/-- What a node broadcasts comes to every other node later on. -/
def Reaches (env : SwarmEnv κ) (s₀ : Negotiation ι) (as : List (Act ι)) : Prop :=
  ∀ pre act suf s s' m, as = pre ++ act :: suf → run env s₀ pre = some s →
    step env s act = some s' → s'.sent = s.sent ++ [m] → ∀ i ≠ act.node, .deliver i m ∈ suf

/-- The node announces the blob, or is asked for it when it has it. -/
def Tells (env : SwarmEnv κ) (s₀ : Negotiation ι) (as : List (Act ι)) (b : ι) (hash : Digest) :
    Prop :=
  ∃ pre act suf s, as = pre ++ act :: suf ∧ run env s₀ pre = some s ∧ (s.nodes b).has env hash
    ∧ (act = .announce b hash ∨ ∃ asker, act = .deliver b (.whoHas hash.toHex asker))

theorem Tells.append {b : ι} {hash : Digest} (h : Tells env s₀ as b hash) (bs : List (Act ι)) :
    Tells env s₀ (as ++ bs) b hash := by
  obtain ⟨pre, act, suf, s, rfl, hs, hhas, hact⟩ := h
  exact ⟨pre, act, suf ++ bs, s, by simp, hs, hhas, hact⟩

theorem Tells.concat {b : ι} {hash : Digest} {act : Act ι} (hs : run env s₀ as = some s)
    (hhas : (s.nodes b).has env hash)
    (hact : act = .announce b hash ∨ ∃ asker, act = .deliver b (.whoHas hash.toHex asker)) :
    Tells env s₀ (as ++ [act]) b hash :=
  ⟨as, act, [], s, rfl, hs, hhas, hact⟩

/-! ## Nothing else is told -/

/-- A reply is to a question for a blob that the node has. -/
theorem onMessage_asked {node : BlobSwarm} {m reply : SwarmMessage}
    (h : (node.onMessage env m.toVec).1 = .ok (some reply)) :
    ∃ hashHex asker hash, m = .whoHas hashHex asker ∧ env.hashFromStr hashHex = .ok hash
      ∧ reply = node.announce hash ∧ node.has env hash := by
  unfold BlobSwarm.onMessage at h
  rw [env.fromSlice_toVec] at h
  rcases m with ⟨hashHex, holder⟩ | ⟨hashHex, asker⟩
  · simp at h
  · rcases hstr : env.hashFromStr hashHex with e | hash <;> simp only [hstr] at h
    · simp at h
    · simp only [Except.ok.injEq] at h
      split_ifs at h with hhas
      exact ⟨hashHex, asker, hash, rfl, hstr, (Option.some.inj h).symm, hhas⟩

/-- Whatever was sent or recorded so far was told. -/
structure Told (env : SwarmEnv κ) (nodeIds : ι → String) (s₀ : Negotiation ι) (as : List (Act ι))
    (s : Negotiation ι) : Prop where
  nodeId : ∀ i, (s.nodes i).nodeId = nodeIds i
  iHave : ∀ hashHex id, .iHave hashHex id ∈ s.sent →
    ∃ b hash, hashHex = hash.toHex ∧ id = nodeIds b ∧ Tells env s₀ as b hash
  whoHas : ∀ hashHex asker, .whoHas hashHex asker ∈ s.sent → ∃ hash : Digest, hashHex = hash.toHex
  holders : ∀ a hash, ∀ id ∈ (s.nodes a).holdersOf hash,
    ∃ b, b ≠ a ∧ id = nodeIds b ∧ Tells env s₀ as b hash

theorem step_deliver_asked {i : ι} {m : SwarmMessage} (h : step env s (.deliver i m) = some s') :
    m ∈ s.sent ∧
      (s' = s.setNode i ((s.nodes i).onMessage env m.toVec).2
        ∨ ∃ hashHex asker hash, m = .whoHas hashHex asker ∧ env.hashFromStr hashHex = .ok hash
          ∧ (s.nodes i).has env hash
          ∧ s' = (s.setNode i ((s.nodes i).onMessage env m.toVec).2).send
            ((s.nodes i).announce hash)) := by
  simp only [step] at h
  split_ifs at h with hm
  refine ⟨hm, ?_⟩
  split at h
  · rename_i reply node hreply
    obtain ⟨hashHex, asker, hash, hask, hstr, rfl, hhas⟩ := onMessage_asked (congrArg Prod.fst hreply)
    refine .inr ⟨hashHex, asker, hash, hask, hstr, hhas, ?_⟩
    rw [hreply]
    exact (Option.some.inj h).symm
  · rename_i node _ hnode
    refine .inl ?_
    rw [hnode]
    exact (Option.some.inj h).symm

theorem Told.start (stores : ι → Digest → Finset ℕ) :
    Told env nodeIds s₀ [] (start stores nodeIds) where
  nodeId _ := rfl
  iHave _ _ hm := by simp [Negotiation.start] at hm
  whoHas _ _ hm := by simp [Negotiation.start] at hm
  holders _ _ _ hm := by simp [Negotiation.start, BlobSwarm.new, BlobSwarm.holdersOf] at hm

theorem Told.append (h : Told env nodeIds s₀ as s) (bs : List (Act ι)) :
    Told env nodeIds s₀ (as ++ bs) s where
  nodeId := h.nodeId
  iHave hashHex id hm := by
    obtain ⟨b, hash, hhex, hid, htells⟩ := h.iHave hashHex id hm
    exact ⟨b, hash, hhex, hid, htells.append bs⟩
  whoHas := h.whoHas
  holders a hash id hid := by
    obtain ⟨b, hb, hid, htells⟩ := h.holders a hash id hid
    exact ⟨b, hb, hid, htells.append bs⟩

/-- A node announces what it tells. -/
theorem Told.send_announce (h : Told env nodeIds s₀ as s) {b : ι} {hash : Digest}
    (htells : Tells env s₀ as b hash) {node : BlobSwarm} (hid : node.nodeId = nodeIds b) :
    Told env nodeIds s₀ as (s.send (node.announce hash)) where
  nodeId := h.nodeId
  iHave hashHex id hm := by
    rcases List.mem_append.1 hm with hm | hm
    · exact h.iHave hashHex id hm
    · obtain ⟨rfl, rfl⟩ := SwarmMessage.iHave.inj (List.mem_singleton.1 hm)
      exact ⟨b, hash, rfl, hid, htells⟩
  whoHas hashHex asker hm := by
    rcases List.mem_append.1 hm with hm | hm
    · exact h.whoHas hashHex asker hm
    · simp [BlobSwarm.announce] at hm
  holders := h.holders

theorem Told.send_query (h : Told env nodeIds s₀ as s) (node : BlobSwarm) (hash : Digest) :
    Told env nodeIds s₀ as (s.send (node.query hash)) where
  nodeId := h.nodeId
  iHave hashHex id hm := by
    rcases List.mem_append.1 hm with hm | hm
    · exact h.iHave hashHex id hm
    · simp [BlobSwarm.query] at hm
  whoHas hashHex asker hm := by
    rcases List.mem_append.1 hm with hm | hm
    · exact h.whoHas hashHex asker hm
    · obtain ⟨rfl, rfl⟩ := SwarmMessage.whoHas.inj (List.mem_singleton.1 hm)
      exact ⟨hash, rfl⟩
  holders := h.holders

theorem Told.setNode (h : Told env nodeIds s₀ as s) {i : ι} {node : BlobSwarm}
    (hid : node.nodeId = nodeIds i) (hholders : ∀ hash, ∀ id ∈ node.holdersOf hash,
      ∃ b, b ≠ i ∧ id = nodeIds b ∧ Tells env s₀ as b hash) :
    Told env nodeIds s₀ as (s.setNode i node) where
  nodeId j := by
    by_cases hj : j = i
    · subst hj
      simpa [Negotiation.setNode] using hid
    · simpa [Negotiation.setNode, hj] using h.nodeId j
  iHave := h.iHave
  whoHas := h.whoHas
  holders a hash id hm := by
    by_cases ha : a = i
    · subst ha
      exact hholders hash id (by simpa [Negotiation.setNode] using hm)
    · exact h.holders a hash id (by simpa [Negotiation.setNode, ha] using hm)

theorem Told.deliver (h : Told env nodeIds s₀ as s) {i : ι} {m : SwarmMessage} (hm : m ∈ s.sent) :
    Told env nodeIds s₀ as (s.setNode i ((s.nodes i).onMessage env m.toVec).2) := by
  refine h.setNode ?_ (fun hash id hid => ?_)
  · rw [BlobSwarm.nodeId_onMessage, h.nodeId]
  · rw [BlobSwarm.mem_holdersOf_onMessage, env.fromSlice_toVec, h.nodeId] at hid
    rcases hid with hid | ⟨hm', hne⟩
    · exact h.holders i hash id hid
    · obtain rfl := Except.ok.inj hm'
      obtain ⟨b, hash', hhex, rfl, htells⟩ := h.iHave _ _ hm
      obtain rfl := Digest.toHex_injective hhex
      exact ⟨b, fun hb => hne (congrArg nodeIds hb), rfl, htells⟩

theorem Told.step (hstr : ∀ hash : Digest, env.hashFromStr hash.toHex = .ok hash)
    (h : Told env nodeIds s₀ as s) (hrun : run env s₀ as = some s) {a : Act ι}
    (hs : step env s a = some s') : Told env nodeIds s₀ (as ++ [a]) s' := by
  have hold := h.append [a]
  cases a with
  | query i hash =>
    obtain rfl := Option.some.inj hs
    exact hold.send_query (s.nodes i) hash
  | announce i hash =>
    simp only [Negotiation.step] at hs
    split_ifs at hs with hhas
    obtain rfl := Option.some.inj hs
    exact hold.send_announce (Tells.concat hrun hhas (.inl rfl)) (h.nodeId i)
  | deliver i m =>
    obtain ⟨hm, rfl | ⟨hashHex, asker, hash, rfl, hparse, hhas, rfl⟩⟩ := step_deliver_asked hs
    · exact hold.deliver hm
    · obtain ⟨hash', rfl⟩ := h.whoHas hashHex asker hm
      obtain rfl : hash' = hash := Except.ok.inj ((hstr hash').symm.trans hparse)
      exact (hold.deliver hm).send_announce (Tells.concat hrun hhas (.inr ⟨asker, rfl⟩)) (h.nodeId i)
  | store i hash ranges =>
    simp only [Negotiation.step] at hs
    split_ifs at hs
    obtain rfl := Option.some.inj hs
    exact hold.setNode (h.nodeId i) (hold.holders i)

theorem told_of_run (hstr : ∀ hash : Digest, env.hashFromStr hash.toHex = .ok hash)
    {stores : ι → Digest → Finset ℕ} (h : run env (start stores nodeIds) as = some s) :
    Told env nodeIds (start stores nodeIds) as s :=
  Machine.run_induction (Told.start stores) (fun _ _ _ _ hrun ht hs => ht.step hstr hrun hs) h

/-! ## All that is told comes -/

/-- A node that is asked for a blob it has broadcasts that it does. -/
theorem sent_of_asked (hstr : ∀ hash : Digest, env.hashFromStr hash.toHex = .ok hash) {b : ι}
    {hash : Digest} {asker : String} (hhas : (s.nodes b).has env hash)
    (hs : step env s (.deliver b (.whoHas hash.toHex asker)) = some s') :
    s'.sent = s.sent ++ [(s.nodes b).announce hash] := by
  have hreply : (s.nodes b).onMessage env (SwarmMessage.whoHas hash.toHex asker).toVec
      = (.ok (some ((s.nodes b).announce hash)), s.nodes b) := by
    simp only [BlobSwarm.onMessage, env.fromSlice_toVec, hstr, hhas, if_true]
  simp only [step, hreply] at hs
  split_ifs at hs
  obtain rfl := Option.some.inj hs
  rfl

/-- A run through one of its steps. -/
theorem run_through {pre suf : List (Act ι)} {act : Act ι} {m : Negotiation ι}
    (hm : run env s₀ pre = some m) (h : run env s₀ (pre ++ act :: suf) = some s) :
    ∃ m', step env m act = some m' ∧ run env m' suf = some s := by
  obtain ⟨m₀, hm₀, h⟩ := Machine.run_append.1 h
  obtain rfl := Option.some.inj (hm.symm.trans hm₀)
  exact Machine.run_cons.1 h

theorem sent_of_tells (hstr : ∀ hash : Digest, env.hashFromStr hash.toHex = .ok hash) {b : ι}
    {hash : Digest} {act : Act ι} (hhas : (s.nodes b).has env hash)
    (hact : act = .announce b hash ∨ ∃ asker, act = .deliver b (.whoHas hash.toHex asker))
    (hs : step env s act = some s') :
    act.node = b ∧ s'.sent = s.sent ++ [(s.nodes b).announce hash] := by
  rcases hact with rfl | ⟨asker, rfl⟩
  · simp only [step, hhas, if_true] at hs
    obtain rfl := Option.some.inj hs
    exact ⟨rfl, rfl⟩
  · exact ⟨rfl, sent_of_asked hstr hhas hs⟩

theorem mem_holdersOf_of_tells (hids : Function.Injective nodeIds)
    (hstr : ∀ hash : Digest, env.hashFromStr hash.toHex = .ok hash)
    {stores : ι → Digest → Finset ℕ} (h : run env (start stores nodeIds) as = some s)
    (hreach : Reaches env (start stores nodeIds) as) {a b : ι} (hb : b ≠ a) {hash : Digest}
    (htells : Tells env (start stores nodeIds) as b hash) :
    nodeIds b ∈ (s.nodes a).holdersOf hash := by
  obtain ⟨pre, act, suf, m, rfl, hm, hhas, hact⟩ := htells
  obtain ⟨m₁, hstep, hsuf⟩ := run_through hm h
  obtain ⟨hnode, hsent⟩ := sent_of_tells hstr hhas hact hstep
  -- the announcement comes to the node, and is recorded there
  have hcomes := hreach pre act suf m m₁ _ rfl hm hstep hsent a (hnode ▸ hb.symm)
  rw [BlobSwarm.announce, (told_of_run hstr hm).nodeId] at hcomes
  obtain ⟨suf₁, suf₂, rfl⟩ := List.append_of_mem hcomes
  obtain ⟨x, hx, hrest⟩ := Machine.run_append.1 hsuf
  obtain ⟨y, hy, hlast⟩ := Machine.run_cons.1 hrest
  have hpre : run env (start stores nodeIds) (pre ++ act :: suf₁) = some x :=
    Machine.run_append.2 ⟨m, hm, Machine.run_cons.2 ⟨m₁, hstep, hx⟩⟩
  have hne : nodeIds b ≠ (x.nodes a).nodeId := by
    rw [(told_of_run hstr hpre).nodeId]
    exact fun he => hb (hids he)
  exact Machine.run_invariant (I := fun s => nodeIds b ∈ (s.nodes a).holdersOf hash)
    (fun _ _ _ hmem hs => mem_holdersOf_step hs hmem) (mem_holdersOf_deliver hy hne) hlast

theorem tells_of_query {i b : ι} {hash : Digest} {pre suf : List (Act ι)} {m : Negotiation ι}
    (h : run env s₀ (pre ++ .query i hash :: suf) = some s) (hm : run env s₀ pre = some m)
    (hreach : Reaches env s₀ (pre ++ .query i hash :: suf)) (hb : b ≠ i)
    (hhas : (m.nodes b).has env hash) : Tells env s₀ (pre ++ .query i hash :: suf) b hash := by
  obtain ⟨m₁, hstep, hsuf⟩ := run_through hm h
  have hsent : m₁.sent = m.sent ++ [(m.nodes i).query hash] := by
    rw [← Option.some.inj hstep]
    rfl
  have hcomes := hreach pre _ suf m m₁ _ rfl hm hstep hsent b hb
  obtain ⟨suf₁, suf₂, rfl⟩ := List.append_of_mem hcomes
  obtain ⟨x, hx, -⟩ := Machine.run_append.1 hsuf
  have hhas' : (x.nodes b).has env hash :=
    Machine.run_invariant (I := fun s => (s.nodes b).has env hash)
      (fun _ _ _ hhas hs => has_step hs hhas) (has_step hstep hhas) hx
  refine ⟨pre ++ .query i hash :: suf₁, .deliver b ((m.nodes i).query hash), suf₂, x, by simp, ?_,
    hhas', .inr ⟨(m.nodes i).nodeId, rfl⟩⟩
  exact Machine.run_append.2 ⟨m, hm, Machine.run_cons.2 ⟨m₁, hstep, hx⟩⟩

/-- Where every broadcast comes to every other node: a registry lists exactly the other nodes that
announced the blob, or were asked for it while they had it; and once a node has asked, all others
that had the blob then are listed, by every node. -/
theorem holders_iff_tells (hids : Function.Injective nodeIds)
    (hstr : ∀ hash : Digest, env.hashFromStr hash.toHex = .ok hash)
    {stores : ι → Digest → Finset ℕ} (h : run env (start stores nodeIds) as = some s)
    (hreach : Reaches env (start stores nodeIds) as) (a : ι) (hash : Digest) :
    (∀ id, id ∈ (s.nodes a).holdersOf hash ↔
        ∃ b, b ≠ a ∧ id = nodeIds b ∧ Tells env (start stores nodeIds) as b hash)
      ∧ ∀ pre i suf m, as = pre ++ .query i hash :: suf →
        run env (start stores nodeIds) pre = some m →
        ∀ b, b ≠ i → b ≠ a → (m.nodes b).has env hash → nodeIds b ∈ (s.nodes a).holdersOf hash := by
  refine ⟨fun id => ⟨(told_of_run hstr h).holders a hash id, ?_⟩, ?_⟩
  · rintro ⟨b, hb, rfl, htells⟩
    exact mem_holdersOf_of_tells hids hstr h hreach hb htells
  · rintro pre i suf m rfl hm b hbi hba hhas
    exact mem_holdersOf_of_tells hids hstr h hreach hba (tells_of_query h hm hreach hbi hhas)

/-- `bob` asks for what `alice` has, and hears of it. -/
def hiAsked : List (Act Bool) :=
  [.query false Digest.hi, .deliver true (.whoHas Digest.hi.toHex "bob"),
    .deliver false (.iHave Digest.hi.toHex "alice")]

/-- What comes of the question. -/
theorem run_hiAsked : ∃ s, run BlobSwarm.spelledEnv (start stores names) hiAsked = some s
    ∧ Reaches BlobSwarm.spelledEnv (start stores names) hiAsked := by
  let s₁ : Negotiation Bool := (start stores names).send (.whoHas Digest.hi.toHex "bob")
  have h₁ : step BlobSwarm.spelledEnv (start stores names) (.query false Digest.hi) = some s₁ := rfl
  have hhas : (s₁.nodes true).has BlobSwarm.spelledEnv Digest.hi := by decide
  have hask : SwarmMessage.whoHas Digest.hi.toHex "bob" ∈ s₁.sent := List.mem_singleton.2 rfl
  obtain ⟨s₂, h₂⟩ : ∃ s₂, step BlobSwarm.spelledEnv s₁
      (.deliver true (.whoHas Digest.hi.toHex "bob")) = some s₂ := exists_step_deliver hask true
  have hsent₂ : s₂.sent = s₁.sent ++ [.iHave Digest.hi.toHex "alice"] :=
    sent_of_asked BlobSwarm.spelledFromStr_toHex hhas h₂
  have htell : SwarmMessage.iHave Digest.hi.toHex "alice" ∈ s₂.sent := by
    rw [hsent₂]
    exact List.mem_append_right _ (List.mem_singleton.2 rfl)
  obtain ⟨s₃, h₃⟩ : ∃ s₃, step BlobSwarm.spelledEnv s₂
      (.deliver false (.iHave Digest.hi.toHex "alice")) = some s₃ := exists_step_deliver htell false
  have hsent₃ : s₃.sent = s₂.sent := by
    obtain ⟨-, rfl | ⟨_, _, _, hask', -⟩⟩ := step_deliver_asked h₃
    · rfl
    · simp at hask'
  refine ⟨s₃, Machine.run_cons.2 ⟨s₁, h₁, Machine.run_cons.2 ⟨s₂, h₂,
    Machine.run_cons.2 ⟨s₃, h₃, rfl⟩⟩⟩, ?_⟩
  intro pre act suf s s' m heq hs hst hsent i hi
  rcases pre with _ | ⟨x₁, _ | ⟨x₂, _ | ⟨x₃, pre⟩⟩⟩
  · obtain ⟨rfl, rfl⟩ := List.cons.inj heq
    obtain rfl := Machine.run_nil.1 hs
    obtain rfl := Option.some.inj (h₁.symm.trans hst)
    obtain rfl := List.singleton_inj.1 hsent
    obtain rfl : i = true := by simpa [Act.node] using hi
    exact List.mem_cons_self
  · obtain ⟨rfl, htail⟩ := List.cons.inj heq
    obtain ⟨rfl, rfl⟩ := List.cons.inj htail
    obtain rfl := Option.some.inj (hs.symm.trans (Machine.run_cons.2 ⟨s₁, h₁, rfl⟩))
    obtain rfl := Option.some.inj (h₂.symm.trans hst)
    obtain rfl := List.singleton_inj.1 (List.append_cancel_left (hsent₂.symm.trans hsent))
    obtain rfl : i = false := by simpa [Act.node] using hi
    exact List.mem_cons_self
  · obtain ⟨rfl, htail⟩ := List.cons.inj heq
    obtain ⟨rfl, hrest⟩ := List.cons.inj htail
    obtain ⟨rfl, rfl⟩ := List.cons.inj hrest
    obtain rfl := Option.some.inj (hs.symm.trans
      (Machine.run_cons.2 ⟨s₁, h₁, Machine.run_cons.2 ⟨s₂, h₂, rfl⟩⟩))
    obtain rfl := Option.some.inj (h₃.symm.trans hst)
    have hlen := congrArg List.length (hsent₃.symm.trans hsent)
    simp at hlen
  · simp [hiAsked] at heq

theorem holders_iff_tells_hiAsked : ∃ s,
    run BlobSwarm.spelledEnv (start stores names) hiAsked = some s
      ∧ "alice" ∈ (s.nodes false).holdersOf Digest.hi := by
  obtain ⟨s, hs, hreach⟩ := run_hiAsked
  have hhas : ((start stores names).nodes true).has BlobSwarm.spelledEnv Digest.hi := by decide
  refine ⟨s, hs, (holders_iff_tells names_injective BlobSwarm.spelledFromStr_toHex hs hreach false
    Digest.hi).2 [] false _ _ rfl rfl true (by decide) (by decide) hhas⟩

end Negotiation

end XaeroFlux
