import XaeroFlux.Sharing
import XaeroFlux.Proofs.Negotiation
import XaeroFlux.Proofs.Resume

/-!
# What is shared

Left alone, the turns of a fetch are `fetch` (`fetch_of_turns`), and whatever happens between them,
the sharing nodes negotiate (`step_net`), so the holders known have the blob. A range in a store was
added there or brought by a dial (`store_iff`), so what a fetch returns some node added.
-/

namespace XaeroFlux

namespace BlobSwarm

variable {κ : Type} {env : SwarmEnv κ} {s : BlobSwarm} {hash : Digest} {lastErr : Option String}
  {provider : κ} {a : Attempt}

theorem dialProvider_fst : (s.dialProvider env hash lastErr provider a).1
    = s.addRanges env hash a.got := by
  rcases a with e | _ | ⟨got, _ | e⟩
  · exact addRanges_empty.symm
  · exact addRanges_empty.symm
  · rfl
  · rfl

theorem tryProviders_cons {dial : ℕ → κ → Attempt} {n : ℕ} {ks : List κ}
    (h : ¬ s.has env hash) : tryProviders env dial hash s lastErr n (provider :: ks) =
      tryProviders env dial hash (s.dialProvider env hash lastErr provider (dial n provider)).1
        (s.dialProvider env hash lastErr provider (dial n provider)).2 (n + 1) ks := by
  rw [tryProviders, if_neg h]
  rcases dial n provider with e | _ | ⟨got, _ | e⟩ <;> rfl

theorem tryProviders_of_has {dial : ℕ → κ → Attempt} {n : ℕ} {ks : List κ} (h : s.has env hash) :
    tryProviders env dial hash s lastErr n ks = (s, lastErr) := by
  cases ks with
  | nil => rfl
  | cons k ks => rw [tryProviders, if_pos h]

theorem fetch_eq_surface (s : BlobSwarm) (dial : ℕ → κ → Attempt) {holders : List String}
    {ks : List κ} (hne : holders ≠ []) (hp : parseHolders env holders = .ok ks) :
    fetch env s dial hash holders =
      ((tryProviders env dial hash s none 0 ks).1.surface env hash
        (tryProviders env dial hash s none 0 ks).2, (tryProviders env dial hash s none 0 ks).1) := by
  have hempty : holders.isEmpty = false := by simpa using hne
  unfold fetch surface
  simp only [hempty, hp, Bool.false_eq_true, if_false]
  split_ifs <;> rfl

end BlobSwarm

/-! ## A fetch left alone -/

namespace Fetch

variable {ι κ : Type} {env : SwarmEnv κ} {s s' : BlobSwarm} {f f' : Fetch ι κ}

/-- The turns of a fetch on a swarm that does nothing else. -/
def alone (env : SwarmEnv κ) (x : BlobSwarm × Fetch ι κ) (a : Attempt) :
    Option (BlobSwarm × Fetch ι κ) :=
  if x.2.result.isNone then some (x.2.turn env x.1 a) else none

theorem dialed_begin (i : ι) (hash : Digest) (holders : List String) :
    (begin env i hash holders).dialed = [] := by
  unfold begin
  split_ifs
  · rfl
  · split <;> rfl

theorem turn_return (h : f.providers = [] ∨ s.has env f.hash) (a : Attempt) :
    f.turn env s a = (s, f.returned env s) := by
  unfold turn
  split
  · rfl
  · rename_i hp
    rw [if_pos (h.resolve_left (by simp [hp]))]

theorem turn_dial {provider : κ} {providers : List κ} (hp : f.providers = provider :: providers)
    (h : ¬ s.has env f.hash) (a : Attempt) :
    f.turn env s a = (s.addRanges env f.hash a.got, f.after provider providers a
      (s.dialProvider env f.hash f.lastErr provider a).2) := by
  unfold turn
  rw [hp]
  simp only [if_neg h, BlobSwarm.dialProvider_fst]

/-- The turns of a fetch left alone are the loop over its providers. -/
theorem turns_tryProviders (dial : ℕ → κ → Attempt) : ∀ (ks : List κ) (s : BlobSwarm)
    (f : Fetch ι κ) (n : ℕ), f.providers = ks → f.result = none →
      ∃ as s' f', Machine.run (alone env) (s, f) as = some (s', f')
        ∧ s' = (BlobSwarm.tryProviders env dial f.hash s f.lastErr n ks).1
        ∧ f'.result = some (s'.surface env f.hash
          (BlobSwarm.tryProviders env dial f.hash s f.lastErr n ks).2)
  | [], s, f, n, hks, hres => by
    have hturn : alone env (s, f) .dialTimedOut = some (s, f.returned env s) := by
      rw [alone, if_pos (by rw [hres]; rfl), turn_return (.inl hks)]
    exact ⟨[.dialTimedOut], s, _, Machine.run_cons.2 ⟨_, hturn, rfl⟩, rfl, rfl⟩
  | k :: ks, s, f, n, hks, hres => by
    by_cases hhas : s.has env f.hash
    · have hturn : alone env (s, f) .dialTimedOut = some (s, f.returned env s) := by
        rw [alone, if_pos (by rw [hres]; rfl), turn_return (.inr hhas)]
      refine ⟨[.dialTimedOut], s, _, Machine.run_cons.2 ⟨_, hturn, rfl⟩, ?_, ?_⟩
      · rw [BlobSwarm.tryProviders_of_has hhas]
      · rw [BlobSwarm.tryProviders_of_has hhas]
        rfl
    have hturn : alone env (s, f) (dial n k) = some (s.addRanges env f.hash (dial n k).got,
        f.after k ks (dial n k) (s.dialProvider env f.hash f.lastErr k (dial n k)).2) := by
      rw [alone, if_pos (by rw [hres]; rfl), turn_dial hks hhas]
    obtain ⟨as, s', f', hrun, hs', hresult⟩ := turns_tryProviders dial ks
      (s.addRanges env f.hash (dial n k).got)
      (f.after k ks (dial n k) (s.dialProvider env f.hash f.lastErr k (dial n k)).2) (n + 1) rfl
      hres
    rw [BlobSwarm.tryProviders_cons hhas, BlobSwarm.dialProvider_fst]
    exact ⟨dial n k :: as, s', f', Machine.run_cons.2 ⟨_, hturn, hrun⟩, hs', hresult⟩

/-- Left alone, a fetch returns what `fetch` does, and leaves the swarm so. -/
theorem fetch_of_turns (s : BlobSwarm) (dial : ℕ → κ → Attempt) (i : ι) (hash : Digest)
    (holders : List String) :
    ∃ as s' f', Machine.run (alone env) (s, begin env i hash holders) as = some (s', f')
      ∧ f'.result = some (s.fetch env dial hash holders).1
      ∧ s' = (s.fetch env dial hash holders).2 := by
  by_cases hempty : holders.isEmpty
  · refine ⟨[], s, _, rfl, ?_, ?_⟩
    · simp only [begin, BlobSwarm.fetch, if_pos hempty]
    · simp only [BlobSwarm.fetch, if_pos hempty]
  rcases hp : BlobSwarm.parseHolders env holders with e | ks
  · refine ⟨[], s, _, rfl, ?_, ?_⟩
    · simp only [begin, BlobSwarm.fetch, if_neg hempty, hp]
    · simp only [BlobSwarm.fetch, if_neg hempty, hp]
  · have hne : holders ≠ [] := fun hnil => hempty (List.isEmpty_iff.2 hnil)
    have hbegin : begin env i hash holders = ⟨i, hash, holders, ks, none, [], none⟩ := by
      simp only [begin, if_neg hempty, hp]
    rw [BlobSwarm.fetch_eq_surface s dial hne hp, hbegin]
    obtain ⟨as, s', f', hrun, rfl, hresult⟩ :=
      @turns_tryProviders ι κ env dial ks s ⟨i, hash, holders, ks, none, [], none⟩ 0 rfl rfl
    exact ⟨as, _, f', hrun, hresult, rfl⟩

end Fetch

namespace Fetch

variable {ι κ : Type} (env : SwarmEnv κ) (f : Fetch ι κ)

/-- Refused before any dial. -/
structure Refused : Prop where
  dialed : f.dialed = []
  result : ∃ e, f.result = some (.error e)
  holders : f.holders = [] ∨ ∃ id ∈ f.holders, ¬ ∃ k, env.keys.fromStr id = .ok k

/-- Begun, the holders dialed in their order; and returned, if it has, with the blob there or with
a range missing that no holder brought. -/
structure Tried (node : BlobSwarm) : Prop where
  holders : f.holders ≠ []
  order : f.holders.map env.keys.fromStr = (f.dialed.map Prod.fst ++ f.providers).map .ok
  result : ∀ res, f.result = some res →
    node.has env f.hash ∧ (env.blake3 (env.bytes f.hash) = f.hash → res = .ok (env.bytes f.hash))
      ∨ (∃ e, res = .error e) ∧ f.providers = []
        ∧ ∃ r ∈ env.ranges f.hash, ∀ x ∈ f.dialed, r ∉ x.2.got

variable {env}

theorem map_of_parseHolders : ∀ {holders : List String} {ks : List κ},
    BlobSwarm.parseHolders env holders = .ok ks → holders.map env.keys.fromStr = ks.map .ok
  | [], ks, h => by
    obtain rfl := Except.ok.inj h
    rfl
  | id :: holders, ks, h => by
    rw [BlobSwarm.parseHolders_cons] at h
    rcases hk : env.keys.fromStr id with e | k
    · simp [hk] at h
    · rcases hp : BlobSwarm.parseHolders env holders with e | ks'
      · simp [hk, hp, Except.map] at h
      · rw [hk, hp] at h
        obtain rfl := Except.ok.inj h
        rw [List.map_cons, hk, map_of_parseHolders hp]
        rfl

theorem begin_asked (i : ι) (hash : Digest) (holders : List String) :
    (begin env i hash holders).node = i ∧ (begin env i hash holders).hash = hash
      ∧ (begin env i hash holders).holders = holders := by
  unfold begin
  split_ifs
  · exact ⟨rfl, rfl, rfl⟩
  · split <;> exact ⟨rfl, rfl, rfl⟩

/-- Providers parsed from ids that are rendered as keys are. -/
theorem toStr_of_order : ∀ {holders : List String} {dialed : List (κ × Attempt)},
    holders.map env.keys.fromStr = (dialed.map Prod.fst).map .ok →
    (∀ id ∈ holders, ∃ k, env.keys.fromStr id = .ok k ∧ env.keys.toStr k = id) →
      dialed.map (fun x => env.keys.toStr x.1) = holders
  | [], [], _, _ => rfl
  | [], _ :: _, h, _ => by simp at h
  | _ :: _, [], h, _ => by simp at h
  | id :: holders, x :: dialed, h, hids => by
    obtain ⟨hx, h⟩ := List.cons.inj h
    obtain ⟨k, hk, hid⟩ := hids id List.mem_cons_self
    obtain rfl := Except.ok.inj (hk.symm.trans hx)
    rw [List.map_cons, hid, toStr_of_order h fun id hid => hids id (List.mem_cons_of_mem _ hid)]

/-- A fetch is refused at once, or begun. -/
theorem begin_cases (i : ι) (hash : Digest) (holders : List String) (node : BlobSwarm) :
    (begin env i hash holders).Refused env ∨ (begin env i hash holders).Tried env node := by
  unfold begin
  split_ifs with hempty
  · exact .inl ⟨rfl, ⟨_, rfl⟩, .inl (List.isEmpty_iff.1 hempty)⟩
  · rcases BlobSwarm.parseHolders_cases env holders with ⟨ks, hp, -⟩ | ⟨⟨e, hp⟩, hbad⟩
    · simp only [hp]
      refine .inr ⟨fun hnil => hempty (List.isEmpty_iff.2 hnil), map_of_parseHolders hp, ?_⟩
      simp
    · simp only [hp]
      exact .inl ⟨rfl, ⟨e, rfl⟩, .inr hbad⟩

variable {f} {node node' : BlobSwarm}

theorem Tried.mono (h : f.Tried env node) (hhas : node.has env f.hash → node'.has env f.hash) :
    f.Tried env node' :=
  ⟨h.holders, h.order, fun res hres => (h.result res hres).imp_left fun h => ⟨hhas h.1, h.2⟩⟩

theorem Tried.after (h : f.Tried env node) (hres : f.result = none) {provider : κ}
    {providers : List κ} (hp : f.providers = provider :: providers) (a : Attempt)
    (lastErr : Option String) : (f.after provider providers a lastErr).Tried env node' where
  holders := h.holders
  order := by simpa [Fetch.after, hp] using h.order
  result res hres' := by simp [Fetch.after, hres] at hres'

/-- What the dials brought is there when the fetch returns. -/
theorem Tried.returned (h : f.Tried env node) (hend : f.providers = [] ∨ node.has env f.hash)
    (hgot : ∀ x ∈ f.dialed, ∀ r ∈ x.2.got, r ∈ env.ranges f.hash → r ∈ node.store f.hash) :
    (f.returned env node).Tried env node where
  holders := h.holders
  order := h.order
  result res hres := by
    obtain rfl := Option.some.inj hres
    by_cases hhas : node.has env f.hash
    · refine .inl ⟨hhas, fun hbytes => ?_⟩
      rw [BlobSwarm.surface, if_pos hhas]
      exact if_pos hbytes
    · obtain ⟨r, hr, hnot⟩ := Finset.not_subset.1 fun h => hhas (BlobSwarm.has_iff.2 h)
      rw [BlobSwarm.surface, if_neg hhas]
      exact .inr ⟨⟨_, rfl⟩, hend.resolve_right hhas, r, hr,
        fun x hx hg => hnot (hgot x hx r hg hr)⟩

end Fetch

namespace Sharing

variable {ι κ : Type} {env : SwarmEnv κ} {s s' : Sharing ι κ}

/-! ## What the stores have -/

/-- The node added the blob. -/
def Added (env : SwarmEnv κ) (as : List (Act ι)) (i : ι) (hash : Digest) : Prop :=
  ∃ data, .add i data ∈ as ∧ env.blake3 data = hash

/-- A dial of one of the node's fetches brought the range. -/
def Brought (s : Sharing ι κ) (i : ι) (hash : Digest) (r : ℕ) : Prop :=
  ∃ f ∈ s.fetches, (f.node = i ∧ f.hash = hash) ∧ ∃ x ∈ f.dialed, r ∈ x.2.got

theorem added_concat {as : List (Act ι)} {a : Act ι} {i : ι} {hash : Digest} :
    Added env (as ++ [a]) i hash ↔
      Added env as i hash ∨ ∃ data, a = .add i data ∧ env.blake3 data = hash := by
  simp only [Added, List.mem_append, List.mem_singleton, or_and_right, exists_or, eq_comm]

/-- The history of the stores: a store has what was added to it and what the dials of its node's
fetches brought, and none has a range that no node added. -/
structure Stocked (env : SwarmEnv κ) (as : List (Act ι)) (s : Sharing ι κ) : Prop where
  store : ∀ i hash r, r ∈ (s.net.nodes i).store hash ↔
    r ∈ env.ranges hash ∧ (Added env as i hash ∨ s.Brought i hash r)
  traced : ∀ i hash r, r ∈ (s.net.nodes i).store hash → ∃ j, Added env as j hash

/-- A step that neither adds nor dials. -/
theorem Stocked.of_same {as : List (Act ι)} {a : Act ι} (h : Stocked env as s)
    (hadd : ∀ i data, a ≠ .add i data)
    (hstore : ∀ i, (s'.net.nodes i).store = (s.net.nodes i).store)
    (hbrought : ∀ i hash r, s'.Brought i hash r ↔ s.Brought i hash r) :
    Stocked env (as ++ [a]) s' := by
  have hadded : ∀ i hash, Added env (as ++ [a]) i hash ↔ Added env as i hash := by
    intro i hash
    rw [added_concat]
    exact or_iff_left fun h => (hadd i h.choose) h.choose_spec.1
  refine ⟨fun i hash r => ?_, fun i hash r hr => ?_⟩
  · rw [hstore, hadded, hbrought]
    exact h.store i hash r
  · rw [hstore] at hr
    simpa only [hadded] using h.traced i hash r hr

variable [DecidableEq ι] [DecidableEq κ] {key : ι → κ}

/-! ## What a step does -/

/-- A fetch that goes on dials its next provider, the blob not there yet, or else returns. -/
theorem step_turn {j : ℕ} {peer : ι} {a : Attempt}
    (h : step env key s (.turn j peer a) = some s') :
    ∃ f, s.fetches[j]? = some f ∧ f.result = none
      ∧ ((∃ provider providers lastErr, f.providers = provider :: providers
            ∧ ¬ (s.net.nodes f.node).has env f.hash
            ∧ sends key s.net f.hash provider peer a
            ∧ s' = ⟨s.net.setNode f.node ((s.net.nodes f.node).addRanges env f.hash a.got),
              s.fetches.set j (f.after provider providers a lastErr)⟩)
        ∨ (f.providers = [] ∨ (s.net.nodes f.node).has env f.hash)
            ∧ s' = ⟨s.net, s.fetches.set j (f.returned env (s.net.nodes f.node))⟩) := by
  unfold step at h
  simp only [] at h
  split at h
  · simp at h
  rename_i f hf
  split_ifs at h with hguard
  obtain ⟨hres, hsends⟩ := hguard
  refine ⟨f, hf, Option.isNone_iff_eq_none.1 hres, ?_⟩
  by_cases hend : f.providers = [] ∨ (s.net.nodes f.node).has env f.hash
  · rw [Fetch.turn_return hend] at h
    have hsame : s.net.setNode f.node (s.net.nodes f.node) = s.net := by
      rw [Negotiation.setNode, Function.update_eq_self]
    refine .inr ⟨hend, ?_⟩
    rw [← Option.some.inj h, hsame]
  · obtain ⟨hne, hhas⟩ := not_or.1 hend
    obtain ⟨provider, providers, hp⟩ := List.exists_cons_of_ne_nil hne
    rw [Fetch.turn_dial hp hhas] at h
    rw [hp] at hsends
    exact .inl ⟨provider, providers, _, hp, hhas, hsends, (Option.some.inj h).symm⟩

/-- Whatever is shared, the nodes negotiate: a blob added and what a dial brings are changes of a
store. -/
theorem step_net {a : Act ι} (h : step env key s a = some s') :
    s'.net = s.net ∨ ∃ b, s.net.step env b = some s'.net := by
  cases a with
  | add i data =>
    rw [← Option.some.inj h]
    refine .inr ⟨.store i (env.blake3 data) (env.ranges (env.blake3 data)), ?_⟩
    exact if_pos fun _ => subset_rfl
  | query i hash | announce i hash | deliver i m =>
    simp only [step, Option.map_eq_some_iff] at h
    obtain ⟨net, hnet, rfl⟩ := h
    exact .inr ⟨_, hnet⟩
  | fetch i hash holders =>
    rw [← Option.some.inj h]
    exact .inl rfl
  | turn j peer a =>
    obtain ⟨f, -, -, ⟨provider, providers, lastErr, -, hhas, -, rfl⟩ | ⟨-, rfl⟩⟩ := step_turn h
    · refine .inr ⟨.store f.node f.hash ((s.net.nodes f.node).store f.hash
        ∪ (a.got ∩ env.ranges f.hash)), ?_⟩
      exact if_pos fun h => absurd h hhas
    · exact .inl rfl

/-- Only `fetch` and its turns change the fetches. -/
theorem fetches_step {a : Act ι} (h : step env key s a = some s')
    (hfetch : ∀ i hash holders, a ≠ .fetch i hash holders)
    (hturn : ∀ j peer x, a ≠ .turn j peer x) : s'.fetches = s.fetches := by
  cases a with
  | add i data => rw [← Option.some.inj h]
  | fetch i hash holders => exact absurd rfl (hfetch i hash holders)
  | turn j peer x => exact absurd rfl (hturn j peer x)
  | query i hash | announce i hash | deliver i m =>
    simp only [step, Option.map_eq_some_iff] at h
    obtain ⟨net, -, rfl⟩ := h
    rfl

/-- Two nodes, and one blob of one range. -/
def pairEnv : SwarmEnv Bool where
  fromSlice := BlobSwarm.hiEnv.fromSlice
  fromSlice_toVec := BlobSwarm.hiEnv.fromSlice_toVec
  keys := {
    fromStr s := if s = "alice" then .ok true else if s = "bob" then .ok false else .error "no key"
    toStr := Negotiation.names
    fromStr_toStr b := by cases b <;> rfl }
  hashFromStr := BlobSwarm.hiEnv.hashFromStr
  blake3 _ := Digest.hi
  ranges _ := {0}
  bytes _ := "hi".toUTF8

/-- Bob fetches what Alice added. -/
def pulled : List (Act Bool) :=
  [.add true "hi".toUTF8, .fetch false Digest.hi ["alice"], .turn 0 true (.transfer {0} none),
    .turn 0 true .dialTimedOut]

/-! ## Runs -/

theorem store_setNode {net : Negotiation ι} {i i' : ι} {node : BlobSwarm} :
    ((net.setNode i node).nodes i').store = if i' = i then node.store else (net.nodes i').store := by
  simp only [Negotiation.setNode, Function.update_apply]
  split_ifs <;> rfl

omit [DecidableEq κ] in
theorem store_net {b : Negotiation.Act ι} {net net' : Negotiation ι}
    (hb : ∀ i hash ranges, b ≠ .store i hash ranges) (h : net.step env b = some net') (i : ι) :
    (net'.nodes i).store = (net.nodes i).store := by
  cases b with
  | query j hash => rw [← Option.some.inj h]; rfl
  | announce j hash =>
    simp only [Negotiation.step] at h
    split_ifs at h
    rw [← Option.some.inj h]
    rfl
  | deliver j m =>
    have hset : ((net.setNode j ((net.nodes j).onMessage env m.toVec).2).nodes i).store
        = (net.nodes i).store := by
      rw [store_setNode]
      split_ifs with hi
      · rw [BlobSwarm.store_onMessage, hi]
      · rfl
    obtain ⟨-, rfl | ⟨_, -, rfl⟩⟩ := Negotiation.step_deliver h
    · exact hset
    · exact hset
  | store j hash ranges => exact absurd rfl (hb j hash ranges)

theorem exists_mem_set {α : Type*} {l : List α} {j : ℕ} {x : α} (x' : α) (P : α → Prop)
    (hx : l[j]? = some x) (hP : P x → P x') : (∃ y ∈ l.set j x', P y) ↔ (∃ y ∈ l, P y) ∨ P x' := by
  have hj : j < l.length := (List.getElem?_eq_some_iff.1 hx).1
  constructor
  · intro ⟨y, hy, hPy⟩
    rcases List.mem_or_eq_of_mem_set hy with hy | rfl
    · exact .inl ⟨y, hy, hPy⟩
    · exact .inr hPy
  · intro h
    rcases h with ⟨y, hy, hPy⟩ | hx'
    · obtain ⟨k, hk⟩ := List.mem_iff_getElem?.1 hy
      by_cases hjk : j = k
      · subst hjk
        obtain rfl := Option.some.inj (hk.symm.trans hx)
        exact ⟨x', List.mem_iff_getElem?.2 ⟨j, List.getElem?_set_self hj⟩, hP hPy⟩
      · refine ⟨y, List.mem_iff_getElem?.2 ⟨k, ?_⟩, hPy⟩
        rwa [List.getElem?_set_ne hjk]
    · exact ⟨x', List.mem_iff_getElem?.2 ⟨j, List.getElem?_set_self hj⟩, hx'⟩

omit [DecidableEq ι] [DecidableEq κ] in
/-- A fetch that dialed once more. -/
theorem brought_after {net : Negotiation ι} {j : ℕ} {f : Fetch ι κ} (hf : s.fetches[j]? = some f)
    {provider : κ} {providers : List κ} {a : Attempt} {lastErr : Option String} {i : ι}
    {hash : Digest} {r : ℕ} :
    (⟨net, s.fetches.set j (f.after provider providers a lastErr)⟩ : Sharing ι κ).Brought i hash r
      ↔ s.Brought i hash r ∨ (i = f.node ∧ hash = f.hash) ∧ r ∈ a.got := by
  have hdialed : (∃ x ∈ f.dialed ++ [(provider, a)], r ∈ x.2.got) ↔
      (∃ x ∈ f.dialed, r ∈ x.2.got) ∨ r ∈ a.got := by
    simp only [List.mem_append, List.mem_singleton, or_and_right, exists_or, exists_eq_left]
  refine (exists_mem_set (f.after provider providers a lastErr)
    (fun f => (f.node = i ∧ f.hash = hash) ∧ ∃ x ∈ f.dialed, r ∈ x.2.got) hf
    fun h => ⟨h.1, hdialed.2 (.inl h.2)⟩).trans ?_
  constructor
  · intro h
    rcases h with h | ⟨⟨hi, hh⟩, h⟩
    · exact .inl h
    · rcases hdialed.1 h with h | h
      · exact .inl ⟨f, List.mem_of_getElem? hf, ⟨hi, hh⟩, h⟩
      · exact .inr ⟨⟨hi.symm, hh.symm⟩, h⟩
  · intro h
    exact h.imp_right fun ⟨⟨hi, hh⟩, h⟩ => ⟨⟨hi.symm, hh.symm⟩, hdialed.2 (.inr h)⟩

theorem Stocked.step {as : List (Act ι)} {a : Act ι} (h : Stocked env as s)
    (hs : step env key s a = some s') : Stocked env (as ++ [a]) s' := by
  cases a with
  | add i data =>
    rw [← Option.some.inj hs]
    have hadded : ∀ i' hash, Added env (as ++ [.add i data]) i' hash ↔
        Added env as i' hash ∨ i' = i ∧ hash = env.blake3 data := by
      intro i' hash
      rw [added_concat]
      refine or_congr_right ⟨?_, ?_⟩
      · intro ⟨data', hact, hhash⟩
        obtain ⟨rfl, rfl⟩ := Act.add.inj hact
        exact ⟨rfl, hhash.symm⟩
      · intro ⟨hi, hhash⟩
        exact ⟨data, by rw [hi], hhash.symm⟩
    have hstore : ∀ i' hash r, r ∈ ((s.net.setNode i ((s.net.nodes i).add env data).2).nodes
        i').store hash ↔ r ∈ (s.net.nodes i').store hash
          ∨ (i' = i ∧ hash = env.blake3 data) ∧ r ∈ env.ranges hash := by
      intro i' hash r
      rw [store_setNode]
      by_cases hi : i' = i
      · subst hi
        rw [if_pos rfl]
        by_cases hh : hash = env.blake3 data
        · subst hh
          have hr := h.store i' (env.blake3 data) r
          simp only [BlobSwarm.add, Function.update_self, true_and]
          tauto
        · simp [BlobSwarm.add, hh]
      · simp [hi]
    refine ⟨fun i' hash r => ?_, fun i' hash r hr => ?_⟩
    · rw [hstore, h.store, hadded]
      have hbrought : (⟨s.net.setNode i ((s.net.nodes i).add env data).2, s.fetches⟩ :
        Sharing ι κ).Brought i' hash r ↔ s.Brought i' hash r := Iff.rfl
      rw [hbrought]
      tauto
    · simp only [hadded, exists_or]
      rcases (hstore i' hash r).1 hr with hr | ⟨⟨-, hh⟩, -⟩
      · exact .inl (h.traced i' hash r hr)
      · exact .inr ⟨i, rfl, hh⟩
  | query i hash | announce i hash | deliver i m =>
    simp only [Sharing.step, Option.map_eq_some_iff] at hs
    obtain ⟨net, hnet, rfl⟩ := hs
    exact h.of_same (by simp) (store_net (by simp) hnet) fun _ _ _ => Iff.rfl
  | fetch i hash holders =>
    rw [← Option.some.inj hs]
    refine h.of_same (by simp) (fun _ => rfl) fun i' hash' r => ?_
    simp only [Brought, List.mem_append, List.mem_singleton, or_and_right, exists_or,
      exists_eq_left, Fetch.dialed_begin, List.not_mem_nil, false_and, exists_false, and_false,
      or_false]
  | turn j peer a =>
    obtain ⟨f, hf, hres, ⟨provider, providers, lastErr, hp, hhas, hsends, rfl⟩ | ⟨-, rfl⟩⟩ :=
      step_turn hs
    · have hadded : ∀ i hash, Added env (as ++ [.turn j peer a]) i hash ↔ Added env as i hash := by
        intro i hash
        simp [added_concat]
      have hstore : ∀ i hash r, r ∈ ((s.net.setNode f.node ((s.net.nodes f.node).addRanges env
          f.hash a.got)).nodes i).store hash ↔ r ∈ (s.net.nodes i).store hash
            ∨ (i = f.node ∧ hash = f.hash) ∧ r ∈ a.got ∧ r ∈ env.ranges hash := by
        intro i hash r
        rw [store_setNode]
        by_cases hi : i = f.node
        · subst hi
          rw [if_pos rfl]
          by_cases hh : hash = f.hash
          · subst hh
            simp [BlobSwarm.addRanges]
          · simp [BlobSwarm.addRanges, hh]
        · simp [hi]
      refine ⟨fun i hash r => ?_, fun i hash r hr => ?_⟩
      · rw [hstore, h.store, hadded, brought_after hf]
        tauto
      · simp only [hadded]
        rcases (hstore i hash r).1 hr with hr | ⟨⟨-, rfl⟩, hgot, -⟩
        · exact h.traced i hash r hr
        · -- the peer that sent it had it
          rcases a with e | _ | ⟨got, e⟩
          · simp [Attempt.got] at hgot
          · simp [Attempt.got] at hgot
          · simp only [sends, decide_eq_true_eq] at hsends
            exact h.traced peer f.hash r (hsends.2 hgot)
    · refine h.of_same (by simp) (fun _ => rfl) fun i' hash' r => ?_
      refine (exists_mem_set (f.returned env (s.net.nodes f.node))
        (fun f => (f.node = i' ∧ f.hash = hash') ∧ ∃ x ∈ f.dialed, r ∈ x.2.got) hf id).trans ?_
      exact or_iff_left_of_imp fun h => ⟨f, List.mem_of_getElem? hf, h⟩

theorem stocked_of_run {as : List (Act ι)} (h : run env key (start env key) as = some s) :
    Stocked env as s := by
  refine Machine.run_induction (P := Stocked env) ?_ (fun as s a s' _ hs => hs.step) h
  refine ⟨fun i hash r => ?_, fun i hash r hr => ?_⟩
  · simp [start, Negotiation.start, BlobSwarm.new, Added, Brought]
  · simp [start, Negotiation.start, BlobSwarm.new] at hr

/-- At any time a store has of each blob what its node added and what the dials of the node's
fetches brought, whatever came of these fetches, and nothing that no node added. -/
theorem store_iff {as : List (Act ι)} (h : run env key (start env key) as = some s) (i : ι)
    (hash : Digest) (r : ℕ) :
    (r ∈ (s.net.nodes i).store hash ↔
        r ∈ env.ranges hash ∧ (Added env as i hash ∨ s.Brought i hash r))
      ∧ (r ∈ (s.net.nodes i).store hash → ∃ j, Added env as j hash) :=
  ⟨(stocked_of_run h).store i hash r, (stocked_of_run h).traced i hash r⟩

theorem store_iff_pulled : ∃ s, run pairEnv id (start pairEnv id) pulled = some s
    ∧ (0 ∈ (s.net.nodes false).store Digest.hi ↔ 0 ∈ pairEnv.ranges Digest.hi
      ∧ (Added pairEnv pulled false Digest.hi ∨ s.Brought false Digest.hi 0)) := by
  obtain ⟨s, hs⟩ : ∃ s, run pairEnv id (start pairEnv id) pulled = some s := ⟨_, rfl⟩
  exact ⟨s, hs, (store_iff hs false Digest.hi 0).1⟩

theorem has_step {a : Act ι} (h : step env key s a = some s') {i : ι} {hash : Digest}
    (hhas : (s.net.nodes i).has env hash) : (s'.net.nodes i).has env hash := by
  obtain hnet | ⟨b, hb⟩ := step_net h
  · rwa [hnet]
  · exact Negotiation.has_step hb hhas

/-! ## What a fetch comes to -/

theorem tried_of_run {as : List (Act ι)} (h : run env key (start env key) as = some s) :
    ∀ f ∈ s.fetches, f.Refused env ∨ f.Tried env (s.net.nodes f.node) := by
  refine Machine.run_induction (P := fun _ s => ∀ f ∈ s.fetches,
    f.Refused env ∨ f.Tried env (s.net.nodes f.node)) (by simp [start]) ?_ h
  intro as s a s' hrun hs hstep
  have hold : ∀ f ∈ s.fetches, f.Refused env ∨ f.Tried env (s'.net.nodes f.node) :=
    fun f hf => (hs f hf).imp_right fun h => h.mono (has_step hstep)
  cases a with
  | add i data | query i hash | announce i hash | deliver i m =>
    rwa [fetches_step hstep (by simp) (by simp)]
  | fetch i hash holders =>
    rw [← Option.some.inj hstep] at hold ⊢
    intro f hf
    rcases List.mem_append.1 hf with hf | hf
    · exact hold f hf
    · rw [List.mem_singleton.1 hf]
      exact Fetch.begin_cases i hash holders _
  | turn j peer a =>
    obtain ⟨f, hf, hres, ⟨provider, providers, lastErr, hp, -, -, rfl⟩ | ⟨hend, rfl⟩⟩ :=
      step_turn hstep
    all_goals
      have hmem := List.mem_of_getElem? hf
      have htried : f.Tried env (s.net.nodes f.node) := by
        refine (hs f hmem).resolve_left fun h => ?_
        obtain ⟨e, he⟩ := h.result
        simp [hres] at he
      intro f' hf'
      rcases List.mem_or_eq_of_mem_set hf' with hf' | rfl
      · exact hold f' hf'
    · exact .inr (htried.after hres hp a lastErr)
    · refine .inr (htried.returned hend fun x hx r hr hrange => ?_)
      rw [(stocked_of_run hrun).store]
      exact ⟨hrange, .inr ⟨f, hmem, ⟨rfl, rfl⟩, x, hx, hr⟩⟩

section Contents

variable {as : List (Act ι)} (hranges : ∀ hash, (env.ranges hash).Nonempty)
  (hread : ∀ i data, .add i data ∈ as → env.bytes (env.blake3 data) = data)
include hranges hread

/-- A blob that a node has is one that some node added. -/
theorem added_of_has (h : run env key (start env key) as = some s) {i : ι} {hash : Digest}
    (hhas : (s.net.nodes i).has env hash) :
    (∃ j, .add j (env.bytes hash) ∈ as) ∧ env.blake3 (env.bytes hash) = hash := by
  obtain ⟨r, hr⟩ := hranges hash
  obtain ⟨j, data, hadd, rfl⟩ := (stocked_of_run h).traced i hash r (BlobSwarm.has_iff.1 hhas hr)
  rw [hread j data hadd]
  exact ⟨⟨j, hadd⟩, rfl⟩

/-- What fetches and stores come by is what some node added, the hash being its own: the integrity
check never fails. -/
theorem fetched_added (h : run env key (start env key) as = some s) :
    (∀ i hash, (s.net.nodes i).has env hash →
        (∃ j, .add j (env.bytes hash) ∈ as) ∧ env.blake3 (env.bytes hash) = hash)
      ∧ ∀ f ∈ s.fetches, ∀ bytes, f.result = some (.ok bytes) →
        (∃ j, .add j bytes ∈ as) ∧ env.blake3 bytes = f.hash
          ∧ (s.net.nodes f.node).has env f.hash := by
  refine ⟨fun i hash hhas => added_of_has hranges hread h hhas, fun f hf bytes hres => ?_⟩
  rcases tried_of_run h f hf with hrefused | htried
  · obtain ⟨e, he⟩ := hrefused.result
    simp [hres] at he
  · rcases htried.result _ hres with ⟨hhas, hok⟩ | ⟨⟨e, he⟩, -⟩
    · obtain ⟨hadd, hhash⟩ := added_of_has hranges hread h hhas
      obtain rfl := Except.ok.inj (hok hhash)
      exact ⟨hadd, hhash, hhas⟩
    · simp at he

end Contents

theorem fetched_added_pulled : ∃ s, run pairEnv id (start pairEnv id) pulled = some s
    ∧ s.fetches.map Fetch.result = [some (.ok "hi".toUTF8)]
    ∧ ∀ f ∈ s.fetches, ∀ bytes, f.result = some (.ok bytes) →
      (∃ j, .add j bytes ∈ pulled) ∧ pairEnv.blake3 bytes = f.hash
        ∧ (s.net.nodes f.node).has pairEnv f.hash := by
  obtain ⟨s, hs, hres⟩ : ∃ s, run pairEnv id (start pairEnv id) pulled = some s
    ∧ s.fetches.map Fetch.result = [some (.ok "hi".toUTF8)] := ⟨_, rfl, rfl⟩
  have hone : ∀ hash, (pairEnv.ranges hash).Nonempty := fun _ => ⟨0, Finset.mem_singleton_self 0⟩
  refine ⟨s, hs, hres, (fetched_added hone (fun i data hadd => ?_) hs).2⟩
  simp only [pulled, List.mem_cons, Act.add.injEq, reduceCtorEq, List.not_mem_nil, or_false] at hadd
  exact hadd.2.symm

/-! ## Fetching from the holders known -/

/-- What is fetched is fetched from holders that the node knows of. -/
def Known (s : Sharing ι κ) : Act ι → Prop
  | .fetch i hash holders => ∀ id ∈ holders, id ∈ (s.net.nodes i).holdersOf hash
  | _ => True

theorem sound_of_run {as : List (Act ι)} (h : run env key (start env key) as = some s) :
    s.net.Sound env fun i => env.keys.toStr (key i) := by
  refine Machine.run_invariant (I := fun s => s.net.Sound env fun i => env.keys.toStr (key i))
    (fun s a s' hs hstep => ?_) (Negotiation.sound_start _) h
  obtain hnet | ⟨b, hb⟩ := step_net hstep
  · rwa [hnet]
  · exact hs.step hb

/-- The holder of another node's blob. -/
def Holds (env : SwarmEnv κ) (key : ι → κ) (s : Sharing ι κ) (i : ι) (hash : Digest) (id : String) :
    Prop :=
  ∃ b, b ≠ i ∧ id = env.keys.toStr (key b) ∧ (s.net.nodes b).has env hash

theorem holders_of_run {as : List (Act ι)} (h : run env key (start env key) as = some s)
    (hknown : Machine.EachStep (step env key) (start env key) as fun _ => Known) :
    ∀ f ∈ s.fetches, ∀ id ∈ f.holders, Holds env key s f.node f.hash id := by
  refine Machine.throughout_of_eachStep (P := fun _ s => ∀ f ∈ s.fetches, ∀ id ∈ f.holders,
    Holds env key s f.node f.hash id) (by simp [start]) ?_ hknown as [] s (by simp) h
  intro as s a s' hrun hs hstep hk
  have hold : ∀ i hash id, Holds env key s i hash id → Holds env key s' i hash id :=
    fun i hash id ⟨b, hb, hid, hhas⟩ => ⟨b, hb, hid, has_step hstep hhas⟩
  intro f hf id hid
  cases a with
  | add i data | query i hash | announce i hash | deliver i m =>
    rw [fetches_step hstep (by simp) (by simp)] at hf
    exact hold _ _ _ (hs f hf id hid)
  | fetch i hash holders =>
    rw [← Option.some.inj hstep] at hf
    rcases List.mem_append.1 hf with hf | hf
    · exact hold _ _ _ (hs f hf id hid)
    · obtain rfl := List.mem_singleton.1 hf
      obtain ⟨hnode, hhash, hholders⟩ := @Fetch.begin_asked ι κ env i hash holders
      rw [hnode, hhash]
      rw [hholders] at hid
      exact hold _ _ _ ((sound_of_run hrun).holders i hash id (hk id hid))
  | turn j peer x =>
    obtain ⟨f', hf', -, ⟨_, _, _, -, -, -, rfl⟩ | ⟨-, rfl⟩⟩ := step_turn hstep
    all_goals
      rcases List.mem_or_eq_of_mem_set hf with hf | rfl
      · exact hold _ _ _ (hs f hf id hid)
      · exact hold _ _ _ (hs f' (List.mem_of_getElem? hf') id hid)

/-- A fetch from the holders known has only nodes that have the blob to dial, and fails only if it
dialed them all and they left out a range of it between them. -/
theorem fetch_known {as : List (Act ι)} (hranges : ∀ hash, (env.ranges hash).Nonempty)
    (hread : ∀ i data, .add i data ∈ as → env.bytes (env.blake3 data) = data)
    (h : run env key (start env key) as = some s)
    (hknown : Machine.EachStep (step env key) (start env key) as fun _ => Known) :
    ∀ f ∈ s.fetches, (∀ id ∈ f.holders, Holds env key s f.node f.hash id)
      ∧ ∀ res, f.result = some res →
        (∃ bytes, res = .ok bytes ∧ env.blake3 bytes = f.hash ∧ (s.net.nodes f.node).has env f.hash)
          ∨ (∃ e, res = .error e) ∧ f.dialed.map (fun x => env.keys.toStr x.1) = f.holders
            ∧ ∃ r ∈ env.ranges f.hash, ∀ x ∈ f.dialed, r ∉ x.2.got := by
  intro f hf
  have hholds := holders_of_run h hknown f hf
  refine ⟨hholds, fun res hres => ?_⟩
  have hparse : ∀ id ∈ f.holders, ∃ k, env.keys.fromStr id = .ok k ∧ env.keys.toStr k = id := by
    intro id hid
    obtain ⟨b, -, rfl, -⟩ := hholds id hid
    exact ⟨key b, env.keys.fromStr_toStr _, rfl⟩
  rcases tried_of_run h f hf with hrefused | htried
  · obtain ⟨e, he⟩ := hrefused.result
    have hnil : f.holders = [] := by
      refine hrefused.holders.resolve_right fun ⟨id, hid, hbad⟩ => ?_
      obtain ⟨k, hk, -⟩ := hparse id hid
      exact hbad ⟨k, hk⟩
    obtain ⟨r, hr⟩ := hranges f.hash
    refine .inr ⟨⟨e, Option.some.inj (hres.symm.trans he)⟩, ?_, r, hr, ?_⟩
    · rw [hrefused.dialed, hnil, List.map_nil]
    · simp [hrefused.dialed]
  · rcases htried.result res hres with ⟨hhas, hok⟩ | ⟨herr, hend, hmissing⟩
    · obtain ⟨-, hhash⟩ := added_of_has hranges hread h hhas
      exact .inl ⟨_, hok hhash, hhash, hhas⟩
    · refine .inr ⟨herr, ?_, hmissing⟩
      have horder := htried.order
      rw [hend, List.append_nil] at horder
      exact Fetch.toStr_of_order horder hparse

/-- Bob hears of the blob, and fetches it from the holder he knows of. -/
def heard : List (Act Bool) :=
  [.add true "hi".toUTF8, .announce true Digest.hi,
    .deliver false (.iHave Digest.hi.toHex "alice"), .fetch false Digest.hi ["alice"],
    .turn 0 true (.transfer {0} none), .turn 0 true .dialTimedOut]

theorem step_iHave {i : ι} {hashHex holder : String} (h : .iHave hashHex holder ∈ s.net.sent) :
    step env key s (.deliver i (.iHave hashHex holder)) = some { s with
      net := s.net.setNode i ((s.net.nodes i).recordHolder hashHex holder) } := by
  simp only [step, Negotiation.step, if_pos h, BlobSwarm.onMessage, env.fromSlice_toVec,
    Option.map_some]

theorem fetch_known_heard : ∃ s, run pairEnv id (start pairEnv id) heard = some s
    ∧ s.fetches.map Fetch.result = [some (.ok "hi".toUTF8)]
    ∧ ∀ f ∈ s.fetches, ∀ name ∈ f.holders, Holds pairEnv id s f.node f.hash name := by
  obtain ⟨s, hs, hres⟩ : ∃ s, run pairEnv id (start pairEnv id) heard = some s
      ∧ s.fetches.map Fetch.result = [some (.ok "hi".toUTF8)] :=
    ⟨_, Machine.run_cons.2 ⟨_, rfl, Machine.run_cons.2 ⟨_, rfl, Machine.run_cons.2
      ⟨_, step_iHave (List.mem_singleton.2 rfl), rfl⟩⟩⟩, rfl⟩
  have hknown : Machine.EachStep (step pairEnv id) (start pairEnv id) heard fun _ => Known := by
    refine Machine.eachStep_cons.2 ⟨trivial, fun m hm => ?_⟩
    obtain rfl := Option.some.inj hm
    refine Machine.eachStep_cons.2 ⟨trivial, fun m hm => ?_⟩
    obtain rfl := Option.some.inj hm
    refine Machine.eachStep_cons.2 ⟨trivial, fun m hm => ?_⟩
    rw [step_iHave (List.mem_singleton.2 rfl)] at hm
    obtain rfl := Option.some.inj hm
    refine Machine.eachStep_cons.2 ⟨?_, fun m hm => ?_⟩
    · intro holder hholder
      rw [List.mem_singleton.1 hholder]
      exact List.mem_singleton.2 rfl
    refine Machine.eachStep_cons.2 ⟨trivial, fun m hm => ?_⟩
    refine Machine.eachStep_cons.2 ⟨trivial, fun m hm => ?_⟩
    exact Machine.eachStep_nil
  have hone : ∀ hash, (pairEnv.ranges hash).Nonempty := fun _ => ⟨0, Finset.mem_singleton_self 0⟩
  refine ⟨s, hs, hres, fun f hf => (fetch_known hone (fun i data hadd => ?_) hs hknown f hf).1⟩
  simp only [heard, List.mem_cons, Act.add.injEq, reduceCtorEq, List.not_mem_nil, or_false] at hadd
  exact hadd.2.symm

end Sharing

end XaeroFlux
