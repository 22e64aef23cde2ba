import Mathlib.Data.List.Perm.Subperm
import XaeroFlux.Proofs.Once

/-!
# Stored events that can still be sent

The storage actor inserts a row and then queues the event; gossip sends it when the network actor
comes to it. While no broadcast fails and no process ends with an event on this way, what was
accepted is, in order, what was broadcast and what is on the way (`onItsWay_iff_outgoing`). A
failed broadcast and a restart drop events, and for a row in the table no re-submission makes up
for that: it is a duplicate.
-/

namespace XaeroFlux

variable (env : Env)

/-- The storage actor puts the event on the outbound queue if the app submits it now. -/
def Node.Requeues (s : Node) (e : Event) : Prop :=
  ∃ s', Node.run env { s with appRx := [], storage := .waiting }
    [.submit e, .recvApp, .insertApp e (some 1), .sendNetwork e] = some s'

def Node.Holds (s : Node) (e : Event) : Prop :=
  s.storage = .storing e ∨ s.storage = .sending e ∨ s.network = .storing e ∨
    s.network = .forwarding e ∨ s.network = .broadcasting e

/-- Broadcast, in the hands of an actor or between them, or queued again if re-submitted. -/
def Sendable (as : List Act) (s : Node) (e : Event) : Prop :=
  e ∈ broadcasted as ∨ s.Holds e ∨ e ∈ s.outboundRx ∨ s.Requeues env e

/-- On the way from the table to gossip, with what gossip got. -/
def outgoing (as : List Act) (s : Node) : List Event :=
  broadcasted as ++ (s.network.outHand ++ (s.outboundRx ++ s.storage.hand))

/-- `Sendable`, where an actor's hands hold what it is to pass on to gossip: not a re-submission it
is about to find stored. -/
def OnItsWay (as : List Act) (s : Node) (e : Event) : Prop :=
  e ∈ broadcasted as ∨ e ∈ s.network.outHand ∨ e ∈ s.outboundRx ∨ e ∈ s.storage.hand ∨
    s.Requeues env e

/-- The step drops no event on its way: gossip takes the broadcast, and a process ends only with
nothing left to broadcast. -/
def Act.DropsNone (s : Node) : Act → Prop
  | .broadcast _ ok => ok = true
  | .restart => s.network.outHand = [] ∧ s.outboundRx = [] ∧ s.storage.hand = []
  | _ => True

variable {env}

theorem Node.not_requeues {s : Node} {e : Event} (h : s.events.Has e.id) : ¬ s.Requeues env e := by
  rintro ⟨s', hs⟩
  obtain ⟨s₁, h₁, hs⟩ := Machine.run_cons.1 hs
  obtain ⟨s₂, h₂, hs⟩ := Machine.run_cons.1 hs
  obtain ⟨s₃, h₃, -⟩ := Machine.run_cons.1 hs
  obtain rfl := Node.step_submit h₁
  obtain ⟨e', rest, -, hq, rfl⟩ := Node.step_recvApp h₂
  obtain ⟨-, ⟨h0 | ⟨h0, -⟩, -⟩ | ⟨-, hk, -⟩⟩ := Node.step_insertApp h₃
  · simp at h0
  · simp at h0
  · exact hk h

/-- Every accepted event is on its way exactly if none was dropped. -/
theorem onItsWay_iff_outgoing {t : EventTable} {as : List Act} {s : Node} (hf : Flow env t as s) :
    (∀ e ∈ accepted as, OnItsWay env as s e) ↔ outgoing as s = accepted as := by
  have hn : (accepted as).Nodup :=
    (List.nodup_append.1 ((inserted_perm as).nodup_iff.2 hf.inserted_ids_nodup.of_map)).1
  constructor
  · intro h
    have hsub : accepted as ⊆ outgoing as s := by
      intro e he
      have hk : s.events.Has e.id :=
        Keyed.has_of_mem (hf.mem_of_inserted (mem_inserted.2 (.inl he)))
      have := h e he
      simpa [OnItsWay, outgoing, Node.not_requeues hk] using this
    exact List.Sublist.eq_of_length_le hf.out (hn.subperm hsub).length_le
  · intro h e he
    rw [← h] at he
    simp only [outgoing, List.mem_append] at he
    rcases he with he | he | he | he <;> simp [OnItsWay, he]

attribute [local simp] Act.accepts Act.broadcasts in
/-- A step with all accepted events on the way or broadcast keeps it so exactly if it drops none. -/
theorem outgoing_concat {as : List Act} {s s' : Node} {a : Act}
    (h : Node.step env s a = some s') (ho : outgoing as s = accepted as) :
    outgoing (as ++ [a]) s' = accepted (as ++ [a]) ↔ a.DropsNone s := by
  unfold outgoing at ho
  cases a with
  | submit e =>
    obtain rfl := Node.step_submit h
    simp [Act.DropsNone, outgoing, ho]
  | recvApp =>
    obtain ⟨e, rest, hs, -, rfl⟩ := Node.step_recvApp h
    simpa [Act.DropsNone, outgoing, hs] using ho
  | insertApp e r =>
    obtain ⟨hs, ⟨hr, rfl⟩ | ⟨rfl, -, -, hs'⟩⟩ := Node.step_insertApp h
    · rcases hr with rfl | ⟨rfl, -⟩ <;> simpa [Act.DropsNone, outgoing, hs] using ho
    · rw [hs']
      simp only [hs, StorageActor.hand_storing, List.append_nil] at ho
      simp [Act.DropsNone, outgoing, ← ho]
  | sendNetwork e =>
    obtain ⟨hs, rfl⟩ := Node.step_sendNetwork h
    simpa [Act.DropsNone, outgoing, hs] using ho
  | recvGossip content =>
    obtain ⟨hs, ⟨e, -, -, rfl⟩ | ⟨-, rfl⟩⟩ := Node.step_recvGossip h <;>
      simpa [Act.DropsNone, outgoing, hs] using ho
  | otherGossip =>
    obtain rfl := Node.step_otherGossip h
    simpa [Act.DropsNone, outgoing] using ho
  | insertNetwork e r =>
    obtain ⟨hs, ⟨hr, rfl⟩ | ⟨rfl, -, -, hs'⟩⟩ := Node.step_insertNetwork h
    · rcases hr with rfl | ⟨rfl, -⟩ <;> simpa [Act.DropsNone, outgoing, hs] using ho
    · rw [hs']
      simpa [Act.DropsNone, outgoing, hs] using ho
  | sendInbound e =>
    obtain ⟨hs, rfl⟩ := Node.step_sendInbound h
    simpa [Act.DropsNone, outgoing, hs] using ho
  | recvOutbound =>
    obtain ⟨e, rest, hs, hq, rfl⟩ := Node.step_recvOutbound h
    simpa [Act.DropsNone, outgoing, hs, hq] using ho
  | broadcast e ok =>
    obtain ⟨hs, rfl⟩ := Node.step_broadcast h
    cases ok with
    | true => simpa [Act.DropsNone, outgoing, hs] using ho
    | false => simp [Act.DropsNone, outgoing, ← ho, hs]
  | subscribeGroup gid =>
    obtain rfl := Node.step_subscribeGroup h
    simpa [Act.DropsNone, outgoing] using ho
  | recvGroup gid content now =>
    obtain ⟨-, groups, rfl⟩ := Node.step_recvGroup h
    simpa [Act.DropsNone, outgoing] using ho
  | restart =>
    obtain rfl := Node.step_restart h
    simp [Act.DropsNone, outgoing, ← ho, Node.start]

variable (env)

theorem OnItsWay.sendable {as : List Act} {s : Node} {e : Event} (h : OnItsWay env as s e) :
    Sendable env as s e := by
  rcases h with h | h | h | h | h
  · exact .inl h
  · refine .inr (.inl (.inr (.inr (.inr (.inr ?_)))))
    rcases hs : s.network <;> simp_all [NetworkActor.outHand]
  · exact .inr (.inr (.inl h))
  · refine .inr (.inl (.inr (.inl ?_)))
    rcases hs : s.storage <;> simp_all [StorageActor.hand]
  · exact .inr (.inr (.inr h))

/-- In every state of a run every accepted event is on its way exactly if no step of the run drops
one, and is sendable if no step does. -/
theorem sendable_iff {t : EventTable} {as : List Act} {s : Node}
    (h : Node.run env (Node.start t) as = some s) :
    (Machine.Throughout (Node.step env) (Node.start t) as
          (fun as s => ∀ e ∈ accepted as, OnItsWay env as s e) ↔
        Machine.EachStep (Node.step env) (Node.start t) as fun _ s a => a.DropsNone s)
      ∧ (Machine.EachStep (Node.step env) (Node.start t) as (fun _ s a => a.DropsNone s) →
        Machine.Throughout (Node.step env) (Node.start t) as
          fun as s => ∀ e ∈ accepted as, Sendable env as s e) := by
  have hiff : Machine.Throughout (Node.step env) (Node.start t) as
        (fun as s => ∀ e ∈ accepted as, OnItsWay env as s e) ↔
      Machine.EachStep (Node.step env) (Node.start t) as fun _ s a => a.DropsNone s := by
    refine Machine.throughout_iff_eachStep (by simp [accepted]) ?_ h
    intro as s a s' h hP hs
    have hf := flow_of_run env h
    rw [onItsWay_iff_outgoing hf] at hP
    rw [onItsWay_iff_outgoing (hf.step env hs)]
    exact outgoing_concat hs hP
  exact ⟨hiff, fun hd pre suf m has hm e he => (hiff.2 hd pre suf m has hm e he).sendable env⟩

/-- An event is accepted, and gossip does not take it. -/
def lostBroadcast : List Act :=
  let e : Event := ⟨"e1", "draw", Env.hi.nodeId, 1⟩
  [.submit e, .recvApp, .insertApp e (some 1), .sendNetwork e, .recvOutbound, .broadcast e false]

theorem lostBroadcast_not_sendable :
    ¬ ∀ as s, Node.run Env.hi (Node.start .empty) as = some s → ∀ e ∈ accepted as,
      Sendable Env.hi as s e := by
  intro h
  let e : Event := ⟨"e1", "draw", Env.hi.nodeId, 1⟩
  let s : Node := { Node.start .empty with events := ⟨[e], by simp⟩ }
  have hs : Node.run Env.hi (Node.start .empty) lostBroadcast = some s := by decide
  rcases h lostBroadcast s hs e (by decide) with h | h | h | h
  · revert h; decide
  · simp [Node.Holds, s, Node.start] at h
  · simp [s, Node.start] at h
  · exact Node.not_requeues (by simp [s, Keyed.Has]) h

theorem sendable_iff_lostBroadcast :
    Machine.Throughout (Node.step Env.hi) (Node.start .empty) lostBroadcast
        (fun as s => ∀ e ∈ accepted as, OnItsWay Env.hi as s e) ↔
      Machine.EachStep (Node.step Env.hi) (Node.start .empty) lostBroadcast
        fun _ s a => a.DropsNone s :=
  (@sendable_iff Env.hi .empty lostBroadcast _ rfl).1

end XaeroFlux
