import XaeroFlux.Identity
import XaeroFlux.Proofs.Once

/-!
# Distinct databases and distinct peers

The key file is beside the database, whatever the database is called, so two databases of one
directory have one key (`keyPath_eq_of_dir`, `keyPath_fileName`), and a node takes the other's
events for its own and drops them. Nodes of two keys sync (`syncs_of_nodeId_ne`), and so do, having
nothing new to each other, nodes over one database (`syncs_of_shared`).
-/

namespace XaeroFlux

theorem keyPath_eq_of_dir (dir : String) {a b : String} (ha : UnixPath.FileName a)
    (hb : UnixPath.FileName b) : keyPath (dir ++ "/" ++ a) = keyPath (dir ++ "/" ++ b) := by
  rw [keyPath, keyPath, UnixPath.parent_eq_of_dir dir ha hb]

theorem keyPath_fileName {name : String} (h : UnixPath.FileName name) :
    keyPath name = "node.key" := by
  rw [keyPath, h.parent_eq]
  decide

/-! ## The keys of two starts -/

theorem Except.bind_eq_ok {ε α β : Type} {x : Except ε α} {f : α → Except ε β} {b : β} :
    x >>= f = .ok b ↔ ∃ a, x = .ok a ∧ f a = .ok b := by
  rcases x with e | a
  · exact ⟨nofun, nofun⟩
  · exact ⟨fun h => ⟨a, rfl, h⟩, fun ⟨_, ha, h⟩ => Except.ok.inj ha ▸ h⟩

theorem SecretKey.fromBytes_eq_ok {bytes : ByteArray} {key : SecretKey}
    (h : SecretKey.fromBytes bytes = .ok key) : bytes = key.1 := by
  unfold fromBytes at h
  split_ifs at h
  exact congrArg Subtype.val (Except.ok.inj h)

section FromConfig

variable {φ ν : Type} {host : Host φ ν} {generated : Except String SecretKey}

/-- The key is read from the file, or is the one generated and now in the file. -/
theorem loadKey_eq_ok {path : String} {fs fs' : φ} {key : SecretKey}
    (h : loadKey host generated path fs = .ok (fs', key)) :
    (fs' = fs ∧ ∃ n, host.file fs path = some n ∧ host.content fs n = some key.1)
      ∨ (generated = .ok key ∧ host.pathExists fs path = false
        ∧ ∃ n, host.file fs' path = some n ∧ host.content fs' n = some key.1
          ∧ ∀ m ≠ n, host.content fs' m = host.content fs m) := by
  unfold loadKey at h
  split_ifs at h with hex
  · obtain ⟨bytes, hread, h⟩ := Except.bind_eq_ok.1 h
    obtain ⟨key', hkey, h⟩ := Except.bind_eq_ok.1 h
    obtain ⟨rfl, rfl⟩ := Prod.mk.inj (Except.ok.inj h)
    obtain rfl := SecretKey.fromBytes_eq_ok hkey
    exact .inl ⟨rfl, host.read_eq_ok hread⟩
  · obtain ⟨key', hkey, h⟩ := Except.bind_eq_ok.1 h
    obtain ⟨fs₁, hdir, h⟩ := Except.bind_eq_ok.1 h
    obtain ⟨fs₂, hwrite, h⟩ := Except.bind_eq_ok.1 h
    obtain ⟨rfl, rfl⟩ := Prod.mk.inj (Except.ok.inj h)
    have hgen : generated = .ok key' := by
      rcases generated with e | k
      · simp [Except.mapError] at hkey
      · simpa [Except.mapError] using hkey
    have hsame : host.content fs₁ = host.content fs := by
      unfold createParent at hdir
      split at hdir
      · exact host.content_createDirAll hdir
      · rw [Except.ok.inj hdir]
    obtain ⟨n, hfile, hcontent, hother⟩ := host.write_eq_ok hwrite
    rw [hsame] at hother
    exact .inr ⟨hgen, by simpa using hex, n, hfile, hcontent, hother⟩

/-- After a start the node's key is in its key file, and no file has another's key. -/
theorem fromConfig_eq_ok {path : String} {fs fs' : φ} {key : SecretKey} (hu : host.KeysUnique fs)
    (hnew : host.IsNew fs generated) (h : fromConfig host generated path fs = .ok (fs', key)) :
    host.KeysUnique fs' ∧
      ∃ n, host.file fs' (keyPath path) = some n ∧ host.content fs' n = some key.1 := by
  obtain ⟨⟨fs₁, k⟩, hload, h⟩ := Except.bind_eq_ok.1 h
  obtain ⟨fs₂, hopen, h⟩ := Except.bind_eq_ok.1 h
  obtain ⟨rfl, rfl⟩ := Prod.mk.inj (Except.ok.inj h)
  suffices hs : host.KeysUnique fs₁ ∧
      ∃ n, host.file fs₁ (keyPath path) = some n ∧ host.content fs₁ n = some k.1 by
    obtain ⟨hu₁, n, hfile, hcontent⟩ := hs
    refine ⟨fun key n m hn hm => ?_, n, host.file_openDb hopen hfile hcontent,
      (host.content_openDb hopen).2 hcontent⟩
    exact hu₁ key n m ((host.content_openDb hopen).1 hn) ((host.content_openDb hopen).1 hm)
  rcases loadKey_eq_ok hload with ⟨rfl, hkey⟩ | ⟨hgen, -, n, hfile, hcontent, hother⟩
  · exact ⟨hu, hkey⟩
  refine ⟨fun key m m' hm hm' => ?_, n, hfile, hcontent⟩
  -- the written file has the new key, which was nowhere, and the others are as they were
  have hn : ∀ m, m ≠ n → host.content fs₁ m ≠ some k.1 := fun m hne hmk =>
    hnew k hgen m (hother m hne ▸ hmk)
  by_cases hmn : m = n <;> by_cases hmn' : m' = n
  · rw [hmn, hmn']
  · rw [hmn, hcontent] at hm
    exact absurd (hm ▸ hm') (hn m' hmn')
  · rw [hmn', hcontent] at hm'
    exact absurd (hm' ▸ hm) (hn m hmn)
  · rw [hother m hmn] at hm
    rw [hother m' hmn'] at hm'
    exact hu key m m' hm hm'

/-- The keys of two starts are equal exactly if the second finds its key file to be the first's. -/
theorem key_eq_iff {p q : String} {fs fs₁ fs₂ : φ} {k l : SecretKey}
    {generated' : Except String SecretKey} (hu : host.KeysUnique fs)
    (hnew : host.IsNew fs generated) (hnew' : host.IsNew fs₁ generated')
    (hp : fromConfig host generated p fs = .ok (fs₁, k))
    (hq : fromConfig host generated' q fs₁ = .ok (fs₂, l)) :
    k = l ↔ host.file fs₁ (keyPath p) = host.file fs₁ (keyPath q) := by
  obtain ⟨hu₁, n, hfile, hcontent⟩ := fromConfig_eq_ok hu hnew hp
  obtain ⟨⟨fs', l'⟩, hload, h⟩ := Except.bind_eq_ok.1 hq
  obtain ⟨fs'', -, h⟩ := Except.bind_eq_ok.1 h
  obtain ⟨rfl, rfl⟩ := Prod.mk.inj (Except.ok.inj h)
  rw [hfile]
  rcases loadKey_eq_ok hload with ⟨-, m, hfile', hcontent'⟩ | ⟨hgen, hex, -⟩
  · rw [hfile', Option.some.injEq]
    constructor
    · rintro rfl
      exact hu₁ k n m hcontent hcontent'
    · rintro rfl
      exact Subtype.ext (Option.some.inj (hcontent.symm.trans hcontent'))
  · constructor
    · rintro rfl
      exact absurd hcontent (hnew' k hgen n)
    · intro hfile'
      rw [host.pathExists_of_file hfile'.symm] at hex
      exact Bool.noConfusion hex

end FromConfig

/-! ## Two nodes at once -/

namespace Node

variable {env : Env} {s s' : Node} {a : Act} {e : Event}

theorem step_forwarding (hs : s.network = .forwarding e) (h : step env s a = some s')
    (ha : a ≠ .restart) : s'.network = .forwarding e ∨ a = .sendInbound e := by
  rcases step_network (by simp [hs]) h with h' | ⟨e', rows, rfl⟩ | ⟨e', rfl⟩ | ⟨e', ok, rfl⟩ | rfl
  · exact .inl (h'.trans hs)
  · simpa [hs] using (step_insertNetwork h).1
  · obtain rfl : e = e' := by simpa [hs] using (step_sendInbound h).1
    exact .inr rfl
  · simpa [hs] using (step_broadcast h).1
  · exact absurd rfl ha

/-- An event of a new id that the network actor is about to store it stores, unless the database
fails. -/
theorem step_storing (hs : s.network = .storing e) (hk : ¬ s.events.Has e.id)
    (h : step env s a = some s') (ha : a ≠ .restart) (hr : ∀ e', a ≠ .insertNetwork e' none) :
    s'.network = .storing e ∨
      a = .insertNetwork e (some 1) ∧ s'.network = .forwarding e := by
  rcases step_network (by simp [hs]) h with h' | ⟨e', rows, rfl⟩ | ⟨e', rfl⟩ | ⟨e', ok, rfl⟩ | rfl
  · exact .inl (h'.trans hs)
  · obtain ⟨he, h'⟩ := step_insertNetwork h
    obtain rfl : e = e' := by simpa [hs] using he
    obtain ⟨hrows, rfl⟩ | ⟨rfl, -, -, hs'⟩ := h'
    · rcases hrows with rfl | ⟨rfl, hk'⟩
      · exact absurd rfl (hr e)
      · exact absurd hk' hk
    · exact .inr ⟨rfl, by rw [hs']⟩
  · simpa [hs] using (step_sendInbound h).1
  · simpa [hs] using (step_broadcast h).1
  · exact absurd rfl ha

/-- The ids of the events on their way to gossip are in the table. -/
def Known (s : Node) : Prop :=
  (∀ e ∈ s.storage.hand, s.events.Has e.id) ∧ (∀ e ∈ s.outboundRx, s.events.Has e.id)
    ∧ ∀ e ∈ s.network.outHand, s.events.Has e.id

attribute [local simp] Known Act.broadcasts in
theorem step_known (hs : s.Known) (h : step env s a = some s') :
    s'.Known ∧ ∀ e ∈ a.broadcasts, s'.events.Has e.id := by
  have hmono := fun k => @has_mono env s s' a h k
  obtain ⟨h1, h2, h3⟩ := hs
  cases a with
  | recvApp =>
    obtain ⟨e, rest, -, -, rfl⟩ := step_recvApp h
    simpa using ⟨h2, h3⟩
  | insertApp e rows =>
    obtain ⟨-, ⟨-, rfl⟩ | ⟨-, hk, hr, hs'⟩⟩ := step_insertApp h
    · simpa using ⟨h2, h3⟩
    · have he : s'.events.Has e.id := (Keyed.has_of_append hr e.id).2 (.inr rfl)
      rw [hs'] at hmono ⊢
      simpa using ⟨he, fun e he => hmono _ (h2 e he), fun e he => hmono _ (h3 e he)⟩
  | recvGossip content =>
    obtain ⟨hw, ⟨e, -, -, rfl⟩ | ⟨-, rfl⟩⟩ := step_recvGossip h
    · simpa using ⟨h1, h2⟩
    · simpa using ⟨h1, h2, h3⟩
  | recvOutbound =>
    obtain ⟨e, rest, -, hq, rfl⟩ := step_recvOutbound h
    rw [hq] at h2
    simpa using ⟨h1, (List.forall_mem_cons.1 h2).2, (List.forall_mem_cons.1 h2).1⟩
  | recvGroup gid content now =>
    obtain ⟨-, groups, rfl⟩ := step_recvGroup h
    simpa using ⟨h1, h2, h3⟩
  | submit e => obtain rfl := step_submit h; simpa using ⟨h1, h2, h3⟩
  | sendNetwork e =>
    obtain ⟨hst, rfl⟩ := step_sendNetwork h
    rw [hst] at h1
    simpa [or_imp, forall_and] using ⟨⟨h2, h1 e (by simp)⟩, h3⟩
  | otherGossip => obtain rfl := step_otherGossip h; simpa using ⟨h1, h2, h3⟩
  | subscribeGroup gid => obtain rfl := step_subscribeGroup h; simpa using ⟨h1, h2, h3⟩
  | insertNetwork e rows =>
    obtain ⟨-, ⟨-, rfl⟩ | ⟨-, hk, hr, hs'⟩⟩ := step_insertNetwork h
    · simpa using ⟨h1, h2⟩
    · rw [hs'] at hmono ⊢
      simpa using ⟨fun e he => hmono _ (h1 e he), fun e he => hmono _ (h2 e he)⟩
  | sendInbound e => obtain ⟨-, rfl⟩ := step_sendInbound h; simpa using ⟨h1, h2⟩
  | broadcast e ok =>
    obtain ⟨hb, rfl⟩ := step_broadcast h
    rw [hb] at h3
    have he : s.events.Has e.id := h3 e (by simp)
    cases ok with
    | true => simpa using ⟨⟨h1, h2⟩, he⟩
    | false => simpa using ⟨h1, h2⟩
  | restart =>
    obtain rfl := step_restart h
    simp [start]

end Node

namespace Pair

variable {env : Bool → Env} {shared : Bool} {s s' : Pair} {x : Bool × Act}

theorem actsOf_own (i : Bool) (a : Act) (as : List (Bool × Act)) :
    actsOf i (as ++ [(i, a)]) = actsOf i as ++ [a] := by
  simp [actsOf, List.filterMap_append]

theorem actsOf_other {i j : Bool} (h : j ≠ i) (a : Act) (as : List (Bool × Act)) :
    actsOf i (as ++ [(j, a)]) = actsOf i as := by
  simp [actsOf, List.filterMap_append, h]

theorem mem_actsOf {i : Bool} {a : Act} {as : List (Bool × Act)} :
    a ∈ actsOf i as ↔ (i, a) ∈ as := by
  simp [actsOf]

theorem mem_forwarded {i : Bool} {e : Event} {as : List (Bool × Act)} :
    e ∈ forwarded (actsOf i as) ↔ (i, .sendInbound e) ∈ as := by
  rw [← mem_actsOf, forwarded, List.mem_filterMap]
  constructor
  · rintro ⟨a, ha, he⟩
    cases a <;> simp only [Act.forwards, reduceCtorEq, Option.some.injEq] at he
    exact he ▸ ha
  · exact fun h => ⟨_, h, rfl⟩

theorem step_own {i : Bool} {a : Act} (h : step env shared s (i, a) = some s') :
    Node.step (env i) (s i) a = some (s' i) := by
  obtain ⟨n, hn, rfl⟩ := Option.map_eq_some_iff.1 h
  simpa using hn

theorem step_other {i j : Bool} {a : Act} (h : step env shared s (i, a) = some s') (hij : j ≠ i) :
    s' j = if shared then { s j with events := (s' i).events } else s j := by
  obtain ⟨n, -, rfl⟩ := Option.map_eq_some_iff.1 h
  simp [hij]

def Even (shared : Bool) (s : Pair) : Prop := shared → ∀ i j, (s i).events = (s j).events

theorem Even.step (h : step env shared s x = some s') : Even shared s' := by
  obtain ⟨i, a⟩ := x
  have key : shared → ∀ j, (s' j).events = (s' i).events := by
    intro hsh j
    by_cases hj : j = i
    · rw [hj]
    · rw [step_other h hj, if_pos hsh]
  exact fun hsh j k => (key hsh j).trans (key hsh k).symm

theorem step_rows (hs : Even shared s) (h : step env shared s x = some s') (j : Bool) :
    (s' j).events.rows = (s j).events.rows ∨
      (s' j).events.rows = (s j).events.rows ++ x.2.inserts.toList := by
  obtain ⟨i, a⟩ := x
  have hown := Node.step_rows (step_own h)
  by_cases hj : j = i
  · exact .inr (by rw [hj, hown])
  · rw [step_other h hj]
    split_ifs with hsh
    · exact .inr (by rw [hs hsh j i]; exact hown)
    · exact .inl rfl

theorem has_mono (hs : Even shared s) (h : step env shared s x = some s') (j : Bool) {k : String}
    (hk : (s j).events.Has k) : (s' j).events.Has k := by
  rcases step_rows hs h j with hr | hr
  · rwa [Keyed.Has, hr]
  · rw [Keyed.Has, hr, List.map_append]
    exact List.mem_append_left _ hk

theorem mem_mono (hs : Even shared s) (h : step env shared s x = some s') (j : Bool) {e : Event}
    (he : e ∈ (s j).events.rows) : e ∈ (s' j).events.rows := by
  rcases step_rows hs h j with hr | hr
  · rwa [hr]
  · rw [hr]
    exact List.mem_append_left _ he

/-! What a node broadcast is in its table, and in the other's if that is the same. -/

theorem known_of_run {tables : Bool → EventTable} (ht : shared → tables false = tables true)
    {as : List (Bool × Act)} (h : run env shared (start tables) as = some s) :
    Even shared s ∧ ∀ i, (s i).Known ∧ ∀ e ∈ broadcasted (actsOf i as), (s i).events.Has e.id := by
  refine Machine.run_induction (P := fun as s => Even shared s ∧ ∀ i, (s i).Known ∧
    ∀ e ∈ broadcasted (actsOf i as), (s i).events.Has e.id) ⟨fun hsh i j => ?_, fun i => ?_⟩ ?_ h
  · have := ht hsh
    cases i <;> cases j <;> simp [start, Node.start, this]
  · simp [start, Node.start, Node.Known, actsOf, broadcasted]
  rintro as s ⟨j, a⟩ s' - ⟨heven, hs⟩ hst
  refine ⟨Even.step hst, fun i => ?_⟩
  obtain ⟨⟨h1, h2, h3⟩, hb⟩ := hs i
  have hmono := fun k => @has_mono env shared s s' (j, a) heven hst i k
  by_cases hij : i = j
  · subst hij
    obtain ⟨hk, hb'⟩ := Node.step_known ⟨h1, h2, h3⟩ (step_own hst)
    rw [actsOf_own, broadcasted_concat]
    refine ⟨hk, fun e he => ?_⟩
    rcases List.mem_append.1 he with he | he
    · exact hmono _ (hb e he)
    · exact hb' e (Option.mem_toList.1 he)
  · rw [actsOf_other (Ne.symm hij)]
    refine ⟨?_, fun e he => hmono _ (hb e he)⟩
    have hs' := step_other hst hij
    rw [hs'] at hmono ⊢
    split_ifs at hmono ⊢
    · exact ⟨fun e he => hmono _ (h1 e he), fun e he => hmono _ (h2 e he),
        fun e he => hmono _ (h3 e he)⟩
    · exact ⟨h1, h2, h3⟩

/-- Nodes over one database have nothing new to each other. -/
theorem syncs_of_shared : Syncs env true := by
  intro tables as s ht h i e _ _ hb hk
  obtain ⟨heven, hknown⟩ := known_of_run ht h
  have := (hknown i).2 e hb
  rw [heven rfl i !i] at this
  exact absurd this hk

/-! What the network actor has begun to store it stores and hands over. -/

section Handles

variable {i : Bool} {e : Event} {bs : List (Bool × Act)}

theorem Undisturbed.tail (h : Undisturbed i e (x :: bs)) : Undisturbed i e bs :=
  ⟨fun hm => h.goes_on (.tail _ hm), fun e' hm => h.inserts e' (.tail _ hm),
    fun y hy => h.only y (.tail _ hy)⟩

theorem network_other (h : step env shared s x = some s') (hx : i ≠ x.1) :
    (s' i).network = (s i).network := by
  rw [step_other h hx]
  split_ifs <;> rfl

theorem mem_of_run : ∀ {bs : List (Bool × Act)} {s : Pair}, Even shared s →
    run env shared s bs = some s' → e ∈ (s i).events.rows → e ∈ (s' i).events.rows
  | [], s, _, h, he => by rwa [← Machine.run_nil.1 h]
  | x :: bs, s, hs, h, he => by
    obtain ⟨m, hm, h⟩ := Machine.run_cons.1 h
    exact mem_of_run (Even.step hm) h (mem_mono hs hm i he)

theorem forwards_of_forwarding (hw : (s' i).network = .waiting) :
    ∀ {bs : List (Bool × Act)} {s : Pair}, Undisturbed i e bs → run env shared s bs = some s' →
      (s i).network = .forwarding e → (i, .sendInbound e) ∈ bs
  | [], s, _, h, hs => by
    rw [Machine.run_nil.1 h, hw] at hs
    exact NetworkActor.noConfusion hs
  | (j, a) :: bs, s, hu, h, hs => by
    obtain ⟨m, hm, hr⟩ := Machine.run_cons.1 h
    by_cases hj : i = j
    · subst hj
      have ha : a ≠ .restart := by
        rintro rfl
        exact hu.goes_on List.mem_cons_self
      rcases Node.step_forwarding hs (step_own hm) ha with hs | rfl
      · exact .tail _ (forwards_of_forwarding hw hu.tail hr hs)
      · exact .head _
    · exact .tail _ (forwards_of_forwarding hw hu.tail hr ((network_other hm hj).trans hs))

theorem handles_of_storing (hw : (s' i).network = .waiting) :
    ∀ {bs : List (Bool × Act)} {s : Pair}, Undisturbed i e bs → Even shared s →
      run env shared s bs = some s' → (s i).network = .storing e → ¬ (s i).events.Has e.id →
      e ∈ (s' i).events.rows ∧ (i, .sendInbound e) ∈ bs
  | [], s, _, _, h, hs, _ => by
    rw [Machine.run_nil.1 h, hw] at hs
    exact NetworkActor.noConfusion hs
  | (j, a) :: bs, s, hu, heven, h, hs, hk => by
    obtain ⟨m, hm, hrun⟩ := Machine.run_cons.1 h
    have ih := handles_of_storing hw hu.tail (Even.step hm) hrun
    -- unless it is this insert, the step leaves the id new
    have hnew : (j, a) ≠ (i, .insertNetwork e (some 1)) → ¬ (m i).events.Has e.id := by
      intro hne hk'
      rcases step_rows heven hm i with hr | hr
      · rw [Keyed.Has, hr] at hk'
        exact hk hk'
      · rw [Keyed.Has, hr, List.map_append] at hk'
        rcases List.mem_append.1 hk' with hk' | hk'
        · exact hk hk'
        · obtain ⟨e', he', hid⟩ := List.mem_map.1 hk'
          exact hne (hu.only _ (.head _) e' (Option.mem_toList.1 he') hid)
    by_cases hj : i = j
    · subst hj
      have ha : a ≠ .restart := by
        rintro rfl
        exact hu.goes_on List.mem_cons_self
      have hr : ∀ e', a ≠ .insertNetwork e' none := by
        rintro e' rfl
        exact hu.inserts e' List.mem_cons_self
      rcases Node.step_storing hs hk (step_own hm) ha hr with hs | ⟨rfl, hs⟩
      · by_cases hne : a = .insertNetwork e (some 1)
        · subst hne
          obtain ⟨-, ⟨hr, -⟩ | ⟨-, -, -, hs'⟩⟩ := Node.step_insertNetwork (step_own hm)
          · simp [hk] at hr
          · rw [hs'] at hs
            exact NetworkActor.noConfusion hs
        · exact (ih hs (hnew (by simp [hne]))).imp_right (.tail _)
      · have hrow := Node.step_rows (step_own hm)
        have he : e ∈ (m i).events.rows := by simp [hrow, Act.inserts]
        exact ⟨mem_of_run (Even.step hm) hrun he,
          .tail _ (forwards_of_forwarding hw hu.tail hrun hs)⟩
    · refine (ih ((network_other hm hj).trans hs) (hnew ?_)).imp_right (.tail _)
      rintro ⟨⟩
      exact hj rfl

end Handles

theorem syncs_of_nodeId_ne (hid : (env false).nodeId ≠ (env true).nodeId) : Syncs env shared := by
  intro tables as s ht h i e he _ _ hk bs s' hu h' hw
  obtain ⟨heven, -⟩ := known_of_run ht h
  obtain ⟨m, hm, h'⟩ := Machine.run_cons.1 h'
  have hne : e.source ≠ (env !i).nodeId := by
    rw [he]
    cases i
    · exact hid
    · exact hid.symm
  obtain ⟨-, ⟨e', hread, -, hs⟩ | ⟨hdrop, -⟩⟩ := Node.step_recvGossip (step_own hm)
  · rw [(env !i).reader.fromSlice_toVec] at hread
    obtain rfl := Option.some.inj hread
    rw [mem_forwarded]
    refine handles_of_storing hw hu (Even.step hm) h' ?_ ?_
    · rw [hs]
    · rw [hs]
      exact hk
  · exact absurd (hdrop e ((env !i).reader.fromSlice_toVec e)) hne

def broadcastOwn (e : Event) : List (Bool × Act) :=
  [(false, .submit e), (false, .recvApp), (false, .insertApp e (some 1)), (false, .sendNetwork e),
    (false, .recvOutbound), (false, .broadcast e true)]

/-- Nodes of one id that are not over one database drop each other's events. -/
theorem not_syncs (hid : (env false).nodeId = (env true).nodeId) : ¬ Syncs env false := by
  intro h
  let e : Event := ⟨"e", "", (env false).nodeId, 0⟩
  let n : Node := { Node.start .empty with events := ⟨[e], by simp⟩ }
  let s : Pair := fun i => if i = false then n else Node.start .empty
  have hx : EventTable.execInsert .empty e = some (⟨[e], by simp⟩, 1) := by
    rw [EventTable.execInsert_eq_some]
    exact ⟨by simp [Event.Bindable, e], .inr ⟨by simp [Keyed.Has], rfl, rfl⟩⟩
  have hs : run env false (start fun _ => .empty) (broadcastOwn e) = some s := by
    simp only [run, Machine.run, step, Node.step, broadcastOwn, start, Node.start]
    simp [hx, s, n, Node.start]
    funext i
    cases i <;> simp
  have hs' : run env false s [(true, .recvGossip e.toVec)] = some s := by
    have hown : ¬ e.source ≠ (env true).nodeId := not_not.2 hid
    simp only [run, Machine.run, step, Node.step, (env true).reader.fromSlice_toVec, if_neg hown]
    simp [s, Node.start]
    funext i
    cases i <;> simp
  have hsub : e ∈ submitted (actsOf false (broadcastOwn e)) := by
    simp [actsOf, broadcastOwn, submitted, Act.submits]
  have hbc : e ∈ broadcasted (actsOf false (broadcastOwn e)) := by
    simp [actsOf, broadcastOwn, broadcasted, Act.broadcasts]
  obtain ⟨he, -⟩ := h (fun _ => .empty) (broadcastOwn e) s (by simp) hs false e rfl hsub hbc
    (by simp [s, Node.start, Keyed.Has]) [] s ⟨by simp, by simp, by simp⟩ hs'
    (by simp [s, Node.start])
  simp [s, Node.start] at he

end Pair

/-- Two nodes started one after the other sync exactly if they are over one database, or the second
start does not find, under its own key path, the key file of the first. -/
theorem syncs_iff {φ ν : Type} [DecidableEq ν] {host : Host φ ν} {p q : String} {fs fs₁ fs₂ : φ}
    {k l : SecretKey} {generated generated' : Except String SecretKey} (hu : host.KeysUnique fs)
    (hnew : host.IsNew fs generated) (hnew' : host.IsNew fs₁ generated')
    (hp : fromConfig host generated p fs = .ok (fs₁, k))
    (hq : fromConfig host generated' q fs₁ = .ok (fs₂, l)) {nodeId : SecretKey → String}
    (hid : nodeId k = nodeId l → k = l) (env : Bool → Env) :
    Pair.Syncs (nodesOf env nodeId k l) (host.SharedDb fs₂ p q) ↔
      host.SharedDb fs₂ p q ∨ host.file fs₁ (keyPath p) ≠ host.file fs₁ (keyPath q) := by
  have hkey := key_eq_iff hu hnew hnew' hp hq
  by_cases hsh : host.SharedDb fs₂ p q
  · rw [decide_eq_true hsh]
    exact iff_of_true Pair.syncs_of_shared (.inl hsh)
  rw [decide_eq_false hsh, Ne, ← hkey]
  constructor
  · rintro hs
    refine .inr fun hkl => Pair.not_syncs ?_ hs
    rw [hkl]
    rfl
  · rintro (h | h)
    · exact absurd h hsh
    · exact Pair.syncs_of_nodeId_ne fun h' => h (hid h')

/-! ## Two starts on a plain file system -/

abbrev PlainFiles := Bool × List (List Char) → Option ByteArray

/-- What a file starts with that SQLite made. -/
def dbHeader : ByteArray := "SQLite format 3\u0000".toUTF8

theorem dbHeader_ne (key : SecretKey) : dbHeader ≠ key.1 := by
  intro h
  have := congrArg ByteArray.size h
  rw [key.2] at this
  revert this
  decide

/-- A database's file is made where there is none, and what a key's file holds is no database. -/
def PlainFiles.openDb (fs : PlainFiles) (path : String) : Except String PlainFiles :=
  if path = ":memory:" then .ok fs
  else match fs (UnixPath.components path) with
    | some bytes => if bytes.size = 32 then .error "file is not a database" else .ok fs
    | none => .ok (Function.update fs (UnixPath.components path) (some dbHeader))

theorem PlainFiles.content_openDb {fs fs' : PlainFiles} {path : String}
    {n : Bool × List (List Char)}
    {key : SecretKey} (h : fs.openDb path = .ok fs') : fs' n = some key.1 ↔ fs n = some key.1 := by
  unfold openDb at h
  split_ifs at h
  · rw [Except.ok.inj h]
  split at h
  · split_ifs at h
    rw [Except.ok.inj h]
  · rename_i hnone
    obtain rfl := Except.ok.inj h
    by_cases hn : n = UnixPath.components path
    · simp [hn, hnone, dbHeader_ne key]
    · rw [Function.update_of_ne hn]

/-- No links, and every directory there already. -/
def Host.plain : Host PlainFiles (Bool × List (List Char)) where
  pathExists fs path := (fs (UnixPath.components path)).isSome
  read fs path :=
    match fs (UnixPath.components path) with
    | some bytes => .ok bytes
    | none => .error "No such file or directory (os error 2)"
  createDirAll fs _ := .ok fs
  write fs path bytes := .ok (Function.update fs (UnixPath.components path) (some bytes))
  openDb := PlainFiles.openDb
  file fs path := (fs (UnixPath.components path)).map fun _ => UnixPath.components path
  content fs n := fs n
  database _ path := if path = ":memory:" then none else some (UnixPath.components path)
  pathExists_of_file h := by
    obtain ⟨bytes, hb, -⟩ := Option.map_eq_some_iff.1 h
    simp [hb]
  read_eq_ok {fs path bytes} h := by
    split at h
    · rename_i b hb
      obtain rfl := Except.ok.inj h
      exact ⟨UnixPath.components path, by simp [hb], hb⟩
    · simp at h
  content_createDirAll h := by rw [Except.ok.inj h]
  write_eq_ok {fs fs' path bytes} h := by
    obtain rfl := Except.ok.inj h
    exact ⟨UnixPath.components path, by simp, by simp, fun m hm => Function.update_of_ne hm _ _⟩
  content_openDb h := PlainFiles.content_openDb h
  file_openDb {fs fs' path path' n key} h hf hc := by
    obtain ⟨-, -, rfl⟩ := Option.map_eq_some_iff.1 hf
    simp [(PlainFiles.content_openDb h).2 hc]

def firstKey : SecretKey :=
  ⟨⟨#[0x9d, 0x61, 0xb1, 0x9d, 0xef, 0xfd, 0x5a, 0x60, 0xba, 0x84, 0x4a, 0xf4, 0x92, 0xec, 0x2c, 0xc4,
    0x44, 0x49, 0xc5, 0x69, 0x7b, 0x32, 0x69, 0x19, 0x70, 0x3b, 0xac, 0x03, 0x1c, 0xae, 0x7f, 0x60]⟩, rfl⟩

def secondKey : SecretKey :=
  ⟨⟨#[0x4c, 0xcd, 0x08, 0x9b, 0x28, 0xff, 0x96, 0xda, 0x9d, 0xb6, 0xc3, 0x46, 0xec, 0x11, 0x4e, 0x0f,
    0x5b, 0x8a, 0x31, 0x9f, 0x35, 0xab, 0xa6, 0x24, 0xda, 0x8c, 0xf6, 0xed, 0x4f, 0xb8, 0xa6, 0xfb]⟩, rfl⟩

def sampleId (key : SecretKey) : String :=
  if key = firstKey then "d75a980182b10ab7d54bfed3c964073a0ee172f3daa62325af021a68f707511a"
  else "3d4017c3e843895a92b70aa74d1b7ebc9c982ccf2ec4968cc0cd55f12af4660c"

def firstFiles (dbPath : String) : PlainFiles :=
  Function.update (Function.update (fun _ => none) (UnixPath.components (keyPath dbPath))
    (some firstKey.1)) (UnixPath.components dbPath) (some dbHeader)

theorem isNew_empty (generated : Except String SecretKey) :
    Host.plain.IsNew (fun _ => none) generated := fun _ _ _ => by simp [Host.plain]

theorem keysUnique_empty : Host.plain.KeysUnique fun _ => none := fun _ _ _ h => by
  simp [Host.plain] at h

theorem isNew_firstFiles (dbPath : String) :
    Host.plain.IsNew (firstFiles dbPath) (.ok secondKey) := by
  rintro _ ⟨⟩ n
  simp only [Host.plain, firstFiles, Function.update_apply]
  split_ifs
  · exact fun h => dbHeader_ne secondKey (Option.some.inj h)
  · decide
  · simp

/-- Two databases in the working directory. -/
theorem not_syncs_bareNames :
    ¬ ∀ (p q : String) (fs fs₁ fs₂ : PlainFiles) (k l : SecretKey)
      (generated generated' : Except String SecretKey), p ≠ q → Host.plain.KeysUnique fs →
      Host.plain.IsNew fs generated → Host.plain.IsNew fs₁ generated' →
      fromConfig Host.plain generated p fs = .ok (fs₁, k) →
      fromConfig Host.plain generated' q fs₁ = .ok (fs₂, l) →
      Pair.Syncs (nodesOf (fun _ => Env.hi) sampleId k l) (Host.plain.SharedDb fs₂ p q) := by
  intro h
  have hp : fromConfig Host.plain (.ok firstKey) "db1.db" (fun _ => none)
      = .ok (firstFiles "db1.db", firstKey) := rfl
  have hq : fromConfig Host.plain (.ok secondKey) "db2.db" (firstFiles "db1.db")
      = .ok (Function.update (firstFiles "db1.db") (UnixPath.components "db2.db") (some dbHeader),
        firstKey) := rfl
  have hs := h _ _ _ _ _ _ _ _ _ (by decide) keysUnique_empty (isNew_empty _) (isNew_firstFiles _)
    hp hq
  have hne : UnixPath.components "db1.db" ≠ UnixPath.components "db2.db" := by decide
  have hshared : ∀ fs, ¬ Host.plain.SharedDb fs "db1.db" "db2.db" := by
    intro fs hshared
    obtain ⟨n, hn, hn'⟩ := hshared
    exact hne (Option.some.inj (hn.trans hn'.symm))
  rw [decide_eq_false (hshared _)] at hs
  exact Pair.not_syncs rfl hs

theorem syncs_iff_ownDirs :
    ∃ fs₁ fs₂ k l, fromConfig Host.plain (.ok firstKey) "a/db.db" (fun _ => none) = .ok (fs₁, k)
      ∧ fromConfig Host.plain (.ok secondKey) "b/db.db" fs₁ = .ok (fs₂, l)
      ∧ (Pair.Syncs (nodesOf (fun _ => Env.hi) sampleId k l)
          (Host.plain.SharedDb fs₂ "a/db.db" "b/db.db") ↔
        Host.plain.SharedDb fs₂ "a/db.db" "b/db.db" ∨
          Host.plain.file fs₁ (keyPath "a/db.db") ≠ Host.plain.file fs₁ (keyPath "b/db.db")) := by
  have hp : fromConfig Host.plain (.ok firstKey) "a/db.db" (fun _ => none)
      = .ok (firstFiles "a/db.db", firstKey) := rfl
  obtain ⟨fs₂, hq⟩ : ∃ fs₂, fromConfig Host.plain (.ok secondKey) "b/db.db" (firstFiles "a/db.db")
      = .ok (fs₂, secondKey) := ⟨_, rfl⟩
  refine ⟨_, _, _, _, hp, hq, ?_⟩
  exact syncs_iff keysUnique_empty (isNew_empty _) (isNew_firstFiles _) hp hq
    (fun h => by revert h; decide) _

end XaeroFlux
