import XaeroFlux.Proofs.Serial

/-!
# A node comes to rest

With nothing new from the app or from gossip, each step of an actor passes an event on, so the
actors come to rest after at most as many steps as are left to take (`work`), whichever of them goes
first; and short of rest one of them can go on, so neither waits for the other. At rest all that
came has been executed, and all that was new has been sent on (`drained`).
-/

namespace XaeroFlux

/-- A step of one of the two actors that needs nothing new. -/
def Act.Own : Act → Prop
  | .recvApp | .insertApp _ _ | .sendNetwork _ | .insertNetwork _ _ | .sendInbound _ | .recvOutbound
  | .broadcast _ _ => True
  | _ => False

/-- An insert fails only on its parameters, and gossip takes what is broadcast. -/
def Act.Works : Act → Prop
  | .insertApp e none | .insertNetwork e none => ¬ e.Bindable
  | .broadcast _ ok => ok = true
  | _ => True

/-- The steps that the event in an actor's hands is from rest, if a broadcast leads to `c` more. -/
def StorageActor.work (c : ℕ) : StorageActor → ℕ
  | .waiting => 0
  | .storing _ => 4 + c
  | .sending _ => 3 + c

def NetworkActor.work (c : ℕ) : NetworkActor → ℕ
  | .waiting => 0
  | .storing _ => 2
  | .forwarding _ => 1
  | .broadcasting _ => 1 + c

namespace Node

variable {env : Env} {s s' : Node} {a : Act} {e : Event}

/-- The steps left until rest, if every event is new. -/
def work (c : ℕ) (s : Node) : ℕ :=
  (5 + c) * s.appRx.length + s.storage.work c + (2 + c) * s.outboundRx.length + s.network.work c

structure Idle (s : Node) : Prop where
  appRx : s.appRx = []
  storage : s.storage = .waiting
  outboundRx : s.outboundRx = []
  network : s.network = .waiting

theorem work_step (c : ℕ) (ha : a.Own) (h : step env s a = some s') :
    s'.work c + (1 + c * a.broadcasts.toList.length) ≤ s.work c := by
  cases a with
  | recvApp =>
    obtain ⟨e, rest, hs, hq, rfl⟩ := step_recvApp h
    simp only [work, hs, hq, List.length_cons, StorageActor.work, Nat.mul_succ, Act.broadcasts,
      Option.toList_none, List.length_nil]
    omega
  | insertApp e r =>
    obtain ⟨hs, ⟨-, rfl⟩ | ⟨-, -, -, hs'⟩⟩ := step_insertApp h
    · simp only [work, hs, StorageActor.work, Act.broadcasts, Option.toList_none, List.length_nil]
      omega
    · rw [hs']
      simp only [work, hs, StorageActor.work, Act.broadcasts, Option.toList_none, List.length_nil]
      omega
  | sendNetwork e =>
    obtain ⟨hs, rfl⟩ := step_sendNetwork h
    simp only [work, hs, StorageActor.work, List.length_append, List.length_singleton, Nat.mul_succ,
      Act.broadcasts, Option.toList_none, List.length_nil]
    omega
  | insertNetwork e r =>
    obtain ⟨hs, ⟨-, rfl⟩ | ⟨-, -, -, hs'⟩⟩ := step_insertNetwork h
    · simp only [work, hs, NetworkActor.work, Act.broadcasts, Option.toList_none, List.length_nil]
      omega
    · rw [hs']
      simp only [work, hs, NetworkActor.work, Act.broadcasts, Option.toList_none, List.length_nil]
      omega
  | sendInbound e =>
    obtain ⟨hs, rfl⟩ := step_sendInbound h
    simp only [work, hs, NetworkActor.work, Act.broadcasts, Option.toList_none, List.length_nil]
    omega
  | recvOutbound =>
    obtain ⟨e, rest, hs, hq, rfl⟩ := step_recvOutbound h
    simp only [work, hs, hq, List.length_cons, NetworkActor.work, Nat.mul_succ, Act.broadcasts,
      Option.toList_none, List.length_nil]
    omega
  | broadcast e ok =>
    obtain ⟨hs, rfl⟩ := step_broadcast h
    cases ok with
    | true =>
      simp only [work, hs, NetworkActor.work, Act.broadcasts, Option.toList_some,
        List.length_singleton]
      omega
    | false =>
      simp only [work, hs, NetworkActor.work, Act.broadcasts, Option.toList_none, List.length_nil]
      omega
  | _ => exact ha.elim

/-- What the database answers an insert. -/
theorem exists_execInsert (t : EventTable) (e : Event) :
    ¬ e.Bindable ∨ ∃ t' n, t.execInsert e = some (t', n) := by
  by_cases hb : e.Bindable
  · exact .inr ⟨_, _, if_pos hb⟩
  · exact .inl hb

section Enabled

variable (env)

theorem enabled_insertApp (hs : s.storage = .storing e) :
    ∃ rows s', (Act.insertApp e rows).Works ∧ step env s (.insertApp e rows) = some s' := by
  obtain hb | ⟨t, n, ht⟩ := exists_execInsert s.events e
  · exact ⟨none, _, hb, if_pos hs⟩
  · refine ⟨some n,
      { s with events := t, storage := if n > 0 then .sending e else .waiting }, trivial, ?_⟩
    simp only [step, hs, ht, if_true]

theorem enabled_insertNetwork (hs : s.network = .storing e) :
    ∃ rows s', (Act.insertNetwork e rows).Works
      ∧ step env s (.insertNetwork e rows) = some s' := by
  obtain hb | ⟨t, n, ht⟩ := exists_execInsert s.events e
  · exact ⟨none, _, hb, if_pos hs⟩
  · refine ⟨some n,
      { s with events := t, network := if n > 0 then .forwarding e else .waiting }, trivial, ?_⟩
    simp only [step, hs, ht, if_true]

/-- Short of rest one of the actors can go on. -/
theorem enabled (h : ¬ s.Idle) : ∃ a s', (a.Own ∧ a.Works) ∧ step env s a = some s' := by
  rcases hs : s.storage with _ | e | e
  · rcases hn : s.network with _ | e | e | e
    · rcases hq : s.appRx with _ | ⟨e, rest⟩
      · rcases ho : s.outboundRx with _ | ⟨e, rest⟩
        · exact absurd ⟨hq, hs, ho, hn⟩ h
        · refine ⟨.recvOutbound, { s with outboundRx := rest, network := .broadcasting e },
            ⟨trivial, trivial⟩, ?_⟩
          simp only [step, hn, ho]
      · refine ⟨.recvApp, { s with appRx := rest, storage := .storing e }, ⟨trivial, trivial⟩, ?_⟩
        simp only [step, hs, hq]
    · obtain ⟨rows, s', hex, hstep⟩ := enabled_insertNetwork env hn
      exact ⟨.insertNetwork e rows, s', ⟨trivial, hex⟩, hstep⟩
    · exact ⟨.sendInbound e, _, ⟨trivial, trivial⟩, if_pos hn⟩
    · exact ⟨.broadcast e true, _, ⟨trivial, rfl⟩, if_pos hn⟩
  · obtain ⟨rows, s', hex, hstep⟩ := enabled_insertApp env hs
    exact ⟨.insertApp e rows, s', ⟨trivial, hex⟩, hstep⟩
  · exact ⟨.sendNetwork e, _, ⟨trivial, trivial⟩, if_pos hs⟩

end Enabled

end Node

variable (env : Env)

/-- What is to be found at rest of what came. -/
structure Drained (t : EventTable) (as : List Act) (s : Node) : Prop where
  app : ownOf (executed as) = submitted as
  gossip : othersOf (executed as) = foreign env (received as)
  rows : s.events.rows = t.rows ++ (taken t (executed as)).map (·.event)
  out : offered as = ownOf (taken t (executed as))
  inn : forwarded as = othersOf (taken t (executed as))

variable {env}

theorem Serial.drained_of_idle {t : EventTable} {as : List Act} {s : Node} (h : Serial env t as s)
    (hs : s.Idle) : Drained env t as s := by
  obtain ⟨app, gossip, rows, out, inn⟩ := h
  obtain ⟨happ, hstorage, hout, hnet⟩ := hs
  exact ⟨by simpa [happ, hstorage] using app, by simpa [hnet] using gossip, rows,
    by simpa [hnet, hout, hstorage] using out, by simpa [hnet] using inn⟩

/-- From any state a process can be in, whatever failed before: if nothing new comes, the actors
take no more steps than are left, in any order they take them; where neither can go on, all that
came is in the table or was refused by it, and all that was new has gone to gossip or `event_rx`;
and they get there, with nothing refused but an insert on its parameters. -/
theorem drained {t : EventTable} {as : List Act} {s : Node}
    (h : Node.run env (Node.start t) as = some s) (hlife : .restart ∉ as) :
    (∀ bs s', Node.run env s bs = some s' → (∀ b ∈ bs, b.Own) →
      bs.length + s'.work 0 ≤ s.work 0
        ∧ ((∀ b, b.Own → Node.step env s' b = none) → Drained env t (as ++ bs) s'))
      ∧ ∃ bs s', Node.run env s bs = some s' ∧ (∀ b ∈ bs, b.Own ∧ b.Works)
        ∧ Drained env t (as ++ bs) s' := by
  have hend : ∀ bs s', Node.run env s bs = some s' → (∀ b ∈ bs, b.Own) → s'.Idle →
      Drained env t (as ++ bs) s' := by
    intro bs s' hbs hown hidle
    refine Serial.drained_of_idle (serial_of_run env (Machine.run_append.2 ⟨s, h, hbs⟩) ?_) hidle
    rw [List.mem_append, not_or]
    exact ⟨hlife, fun hmem => hown _ hmem⟩
  have hlower : ∀ s a s', a.Own → Node.step env s a = some s' → s'.work 0 < s.work 0 := by
    intro s a s' ha hstep
    have := Node.work_step 0 ha hstep
    omega
  refine ⟨fun bs s' hbs hown => ⟨?_, fun hstuck => ?_⟩, ?_⟩
  · exact Machine.length_le_of_lowers hlower hbs hown
  · refine hend bs s' hbs hown ?_
    by_contra hne
    obtain ⟨b, s'', ⟨hb, -⟩, hstep⟩ := Node.enabled env hne
    rw [hstuck b hb] at hstep
    simp at hstep
  · have hrest : ∃ bs s', Node.run env s bs = some s' ∧ (∀ b ∈ bs, b.Own ∧ b.Works)
        ∧ s'.Idle :=
      Machine.exists_run_to (fun s a s' ha => hlower s a s' ha.1) (fun _ => Node.enabled env) s
    obtain ⟨bs, s', hbs, hK, hidle⟩ := hrest
    exact ⟨bs, s', hbs, hK, hend bs s' hbs (fun b hb => (hK b hb).1) hidle⟩

/-- An event of the app is stored, a peer's and one more of the app's wait. -/
def halfway : List Act := overtaken.take 4 ++ [.insertApp ⟨"e1", "draw", Env.hi.nodeId, 1⟩ (some 1)]

theorem drained_halfway : ∃ s, Node.run Env.hi (Node.start .empty) halfway = some s
    ∧ s.work 0 = 10
    ∧ ∃ bs s', Node.run Env.hi s bs = some s' ∧ bs.length ≤ 10
      ∧ Drained Env.hi .empty (halfway ++ bs) s' := by
  obtain ⟨s, hs, hwork⟩ : ∃ s ∈ Node.run Env.hi (Node.start .empty) halfway, s.work 0 = 10 := by
    decide +kernel
  obtain ⟨hbound, bs, s', hbs, hown, hdrained⟩ := drained hs (by simp [halfway, overtaken])
  have hlen := (hbound bs s' hbs fun b hb => (hown b hb).1).1
  exact ⟨s, hs, hwork, bs, s', hbs, by omega, hdrained⟩

end XaeroFlux
