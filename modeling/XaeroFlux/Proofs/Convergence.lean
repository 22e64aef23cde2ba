import Mathlib.Algebra.Order.BigOperators.Group.Finset
import XaeroFlux.Proofs.Drain

/-!
# A mesh comes to rest

A broadcast puts a message before every other node, and a message costs its receiver three steps at
most, so a mesh in which nothing is submitted and nothing duplicated comes to rest after a bounded
number of steps (`Mesh.work`), whatever the order of the nodes' steps and of the deliveries. Short
of rest some node can go on or some message can be delivered (`settles`).
-/

namespace XaeroFlux

variable {ι : Type*}

/-- A step of an actor, or a delivery. -/
def MeshAct.Settles : MeshAct ι → Prop
  | .node _ act => act.Own ∨ act.receives ≠ none
  | .duplicate _ _ => False

def MeshAct.Works : MeshAct ι → Prop
  | .node _ act => act.Works
  | .duplicate _ _ => True

namespace Node

variable {env : Env} {s s' : Node} {content : ByteArray}

theorem work_recvGossip (c : ℕ) (h : step env s (.recvGossip content) = some s') :
    s'.work c ≤ s.work c + 2 := by
  obtain ⟨hs, ⟨e, -, -, rfl⟩ | ⟨-, rfl⟩⟩ := step_recvGossip h
  · simp only [work, hs, NetworkActor.work]
    omega
  · omega

theorem enabled_recvGossip (env : Env) (hs : s.network = .waiting) (content : ByteArray) :
    ∃ s', step env s (.recvGossip content) = some s' := by
  simp only [step, hs, if_true]
  rcases env.reader.fromSlice content with _ | e
  · exact ⟨s, rfl⟩
  · by_cases hne : e.source ≠ env.nodeId
    · exact ⟨_, if_pos hne⟩
    · exact ⟨s, if_neg hne⟩

end Node

variable [DecidableEq ι] {env : ι → Env} {m m' : Mesh ι} {i : ι} {act : Act}

namespace Mesh

/-- The steps left of a node and for the messages on the way to it. -/
def load (c : ℕ) (m : Mesh ι) (i : ι) : ℕ := (m.nodes i).work c + 3 * (m.inFlight i).length

theorem length_deliver {content : ByteArray} (h : content ∈ m.inFlight i) :
    ((m.deliver i content).inFlight i).length + 1 = (m.inFlight i).length := by
  have hpos := List.length_pos_of_mem h
  simp only [deliver, Function.update_self]
  rw [List.length_eraseP_of_mem h (by simp)]
  omega

/-- A step takes from its node's load, and a broadcast adds to the others'. -/
theorem load_step (c : ℕ) (ha : (MeshAct.node i act).Settles)
    (h : step env m (.node i act) = some m') :
    m'.load c i + (1 + c * act.broadcasts.toList.length) ≤ m.load c i
      ∧ ∀ j ≠ i, m'.load c j = m.load c j + 3 * act.broadcasts.toList.length := by
  obtain ⟨s, m₁, hs, hg, rfl⟩ := step_node h
  have hnodes := gossip_nodes hg
  obtain ⟨content, hmem, rfl, rfl⟩ | ⟨e, rfl, rfl⟩ | ⟨hrec, hbr, rfl⟩ := gossip_cases hg
  · have hwork := Node.work_recvGossip c hs
    have hlen := length_deliver hmem
    refine ⟨?_, fun j hj => ?_⟩
    · simp only [load, Function.update_self, Act.broadcasts, Option.toList_none, List.length_nil]
      omega
    · simp [load, deliver, hj, Act.broadcasts]
  · have hown : (Act.broadcast e true).Own := trivial
    have hwork := Node.work_step c hown hs
    refine ⟨?_, fun j hj => ?_⟩
    · simp only [load, spread, Function.update_self, if_true]
      omega
    · simp only [load, spread, Function.update_of_ne hj, if_neg hj, List.length_append,
        List.length_singleton, Act.broadcasts, Option.toList_some]
      omega
  · have hwork := Node.work_step c (ha.resolve_right (not_not.2 hrec)) hs
    refine ⟨?_, fun j hj => ?_⟩
    · simp only [load, Function.update_self]
      omega
    · simp [load, hj, hbr]

section Work

variable [Fintype ι]

/-- The steps left until rest. -/
def work (m : Mesh ι) : ℕ := ∑ i, m.load (3 * Fintype.card ι) i

theorem work_step {a : MeshAct ι} (ha : a.Settles) (h : step env m a = some m') :
    m'.work < m.work := by
  rcases a with ⟨i, act⟩ | ⟨i, content⟩
  · obtain ⟨hi, hj⟩ := load_step (3 * Fintype.card ι) ha h
    have hrest : ∑ j ∈ Finset.univ.erase i, m'.load (3 * Fintype.card ι) j
        = ∑ j ∈ Finset.univ.erase i, m.load (3 * Fintype.card ι) j
          + (Fintype.card ι - 1) * (3 * act.broadcasts.toList.length) := by
      rw [Finset.sum_congr rfl fun j hmem => hj j (Finset.ne_of_mem_erase hmem),
        Finset.sum_add_distrib, Finset.sum_const_nat fun _ _ => rfl,
        Finset.card_erase_of_mem (Finset.mem_univ i), Finset.card_univ]
    have hm' := Finset.add_sum_erase Finset.univ (m'.load (3 * Fintype.card ι)) (Finset.mem_univ i)
    have hm := Finset.add_sum_erase Finset.univ (m.load (3 * Fintype.card ι)) (Finset.mem_univ i)
    have hspread : (Fintype.card ι - 1) * (3 * act.broadcasts.toList.length)
        ≤ 3 * Fintype.card ι * act.broadcasts.toList.length := by
      rw [← Nat.mul_assoc, Nat.mul_comm _ 3]
      exact Nat.mul_le_mul_right _ (Nat.mul_le_mul_left 3 (Nat.sub_le _ 1))
    unfold work
    omega
  · exact ha.elim

end Work

theorem exists_step_own {s : Node} (ha : act.Own)
    (hs : Node.step (env i) (m.nodes i) act = some s) :
    ∃ m', step env m (.node i act) = some m' := by
  have hg : ∃ m₁, m.gossip i act = some m₁ := by
    unfold gossip
    split
    · exact ha.elim
    · exact ⟨_, rfl⟩
    · exact ⟨m, rfl⟩
  obtain ⟨m₁, hg⟩ := hg
  refine ⟨{ m₁ with nodes := Function.update m₁.nodes i s }, ?_⟩
  simp only [step, hs, hg, Option.map_some]

/-- Short of rest a node can go on, or be delivered a message. -/
theorem enabled (env : ι → Env) (h : ¬ m.Quiescent) :
    ∃ a m', (a.Settles ∧ a.Works) ∧ step env m a = some m' := by
  by_cases hidle : ∀ i, (m.nodes i).Idle
  · have hflight : ∃ i, m.inFlight i ≠ [] := by
      by_contra hnone
      exact h fun i => ⟨(hidle i).appRx, (hidle i).outboundRx, (hidle i).storage, (hidle i).network,
        not_not.1 (not_exists.1 hnone i)⟩
    obtain ⟨i, hi⟩ := hflight
    obtain ⟨content, hmem⟩ := List.exists_mem_of_ne_nil _ hi
    obtain ⟨s, hs⟩ := Node.enabled_recvGossip (env i) (hidle i).network content
    refine ⟨.node i (.recvGossip content),
      { m.deliver i content with nodes := Function.update m.nodes i s },
      ⟨.inr (by simp [Act.receives]), trivial⟩, ?_⟩
    have hg : m.gossip i (.recvGossip content) = some (m.deliver i content) :=
      if_pos ⟨content, hmem, rfl⟩
    simp only [step, hs, hg, Option.map_some]
    rfl
  · obtain ⟨i, hi⟩ := not_forall.1 hidle
    obtain ⟨act, s, ⟨hown, hworks⟩, hs⟩ := Node.enabled (env i) hi
    obtain ⟨m', hm'⟩ := exists_step_own hown hs
    exact ⟨.node i act, m', ⟨.inl hown, hworks⟩, hm'⟩

/-- From any state of any finite mesh, however many messages are on the way and wherever its nodes
are: with nothing submitted and nothing duplicated no run is longer than the work left, one that
cannot go on has left every queue, hand and message empty, and there is one that does so in which
nothing fails but an insert on its parameters. -/
theorem settles [Fintype ι] (env : ι → Env) (m : Mesh ι) :
    (∀ bs m', run env m bs = some m' → (∀ b ∈ bs, b.Settles) →
      bs.length + m'.work ≤ m.work
        ∧ ((∀ b, b.Settles → step env m' b = none) → m'.Quiescent))
      ∧ ∃ bs m', run env m bs = some m' ∧ (∀ b ∈ bs, b.Settles ∧ b.Works) ∧ m'.Quiescent := by
  refine ⟨fun bs m' hbs hsettles => ⟨?_, fun hstuck => ?_⟩, ?_⟩
  · exact Machine.length_le_of_lowers (fun _ _ _ => work_step) hbs hsettles
  · by_contra hne
    obtain ⟨b, m'', ⟨hb, -⟩, hstep⟩ := enabled env hne
    rw [hstuck b hb] at hstep
    simp at hstep
  · exact Machine.exists_run_to (fun _ _ _ ha => work_step ha.1) (fun _ => enabled env) m

end Mesh

end XaeroFlux
