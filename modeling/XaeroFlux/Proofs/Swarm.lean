import Mathlib.Data.List.Induction
import XaeroFlux.Swarm

/-!
# Fetching from the holders

The registry of a blob is the ids announced for it (`mem_holdersOf_onMessages`), parseable or not,
and one id that does not parse ends `fetch` before any holder is dialed. Where all parse, one
holder that serves the blob is enough, wherever it stands (`has_tryProviders`).
-/

namespace XaeroFlux

namespace BlobSwarm

variable {κ : Type} (env : SwarmEnv κ)

/-! ## The registry -/

@[simp] theorem nodeId_recordHolder (s : BlobSwarm) (hashHex holder : String) :
    (s.recordHolder hashHex holder).nodeId = s.nodeId := by
  unfold recordHolder
  split_ifs <;> rfl

/-- The holders recorded under a string, whatever it denotes. -/
def holdersUnder (s : BlobSwarm) (hashHex : String) : List String := (s.holders.get hashHex).getD []

theorem mem_holdersUnder_recordHolder {s : BlobSwarm} {hashHex holder id key : String} :
    id ∈ (s.recordHolder hashHex holder).holdersUnder key ↔
      id ∈ s.holdersUnder key ∨ key = hashHex ∧ id = holder ∧ holder ≠ s.nodeId := by
  unfold recordHolder
  split_ifs with hn
  · simp [hn]
  · simp only [holdersUnder, KeyedMap.get_entry]
    by_cases hh : key = hashHex
    · subst hh
      by_cases hm : holder ∈ (s.holders.get key).getD []
      · simp only [if_true, hm, Option.getD_some, true_and, ne_eq, hn, not_false_eq_true, and_true]
        exact ⟨.inl, fun h => h.elim (fun h => h) fun h => h ▸ hm⟩
      · simp [hm, hn]
    · simp [hh]

@[simp] theorem nodeId_onMessage (s : BlobSwarm) (raw : ByteArray) :
    (s.onMessage env raw).2.nodeId = s.nodeId := by
  unfold onMessage
  split
  · rfl
  · exact nodeId_recordHolder ..
  · split <;> rfl

theorem mem_holdersUnder_onMessage {s : BlobSwarm} {raw : ByteArray} {id key : String} :
    id ∈ (s.onMessage env raw).2.holdersUnder key ↔ id ∈ s.holdersUnder key ∨
      env.fromSlice raw = .ok (.iHave key id) ∧ id ≠ s.nodeId := by
  unfold onMessage
  split
  · rename_i h
    simp [h]
  · rename_i hashHex holder h
    rw [mem_holdersUnder_recordHolder, h]
    constructor
    · rintro (h | ⟨rfl, rfl, hn⟩)
      · exact .inl h
      · exact .inr ⟨rfl, hn⟩
    · rintro (h | ⟨h, hn⟩)
      · exact .inl h
      · obtain ⟨rfl, rfl⟩ := SwarmMessage.iHave.inj (Except.ok.inj h)
        exact .inr ⟨rfl, rfl, hn⟩
  · rename_i hashHex requester h
    split <;> simp [h]

theorem mem_holdersOf_onMessage {s : BlobSwarm} {raw : ByteArray} {id : String} {hash : Digest} :
    id ∈ (s.onMessage env raw).2.holdersOf hash ↔ id ∈ s.holdersOf hash ∨
      env.fromSlice raw = .ok (.iHave hash.toHex id) ∧ id ≠ s.nodeId :=
  mem_holdersUnder_onMessage env

theorem onMessages_concat (s : BlobSwarm) (msgs : List ByteArray) (raw : ByteArray) :
    s.onMessages env (msgs ++ [raw]) = ((s.onMessages env msgs).onMessage env raw).2 := by
  simp [onMessages, List.foldl_append]

@[simp] theorem nodeId_onMessages (s : BlobSwarm) (msgs : List ByteArray) :
    (s.onMessages env msgs).nodeId = s.nodeId := by
  induction msgs using List.reverseRecOn with
  | nil => rfl
  | append_singleton msgs raw ih => rw [onMessages_concat, nodeId_onMessage, ih]

/-- Under a string are the ids announced with that string, the node's own left out. -/
theorem mem_holdersUnder_onMessages {store : Digest → Finset ℕ} {nodeId id key : String}
    (msgs : List ByteArray) : id ∈ ((new store nodeId).onMessages env msgs).holdersUnder key ↔
      id ≠ nodeId ∧ ∃ raw ∈ msgs, env.fromSlice raw = .ok (.iHave key id) := by
  induction msgs using List.reverseRecOn with
  | nil => simp [onMessages, new, holdersUnder]
  | append_singleton msgs raw ih =>
    rw [onMessages_concat, mem_holdersUnder_onMessage, ih, nodeId_onMessages]
    simp only [List.mem_append, List.mem_singleton]
    constructor
    · rintro (⟨hn, m, hm, h⟩ | ⟨h, hn⟩)
      · exact ⟨hn, m, .inl hm, h⟩
      · exact ⟨hn, raw, .inr rfl, h⟩
    · rintro ⟨hn, m, hm | rfl, h⟩
      · exact .inl ⟨hn, m, hm, h⟩
      · exact .inr ⟨h, hn⟩

/-- The registry of a blob is the ids announced under its hash, the node's own left out. -/
theorem mem_holdersOf_onMessages {store : Digest → Finset ℕ} {nodeId id : String} {hash : Digest}
    (msgs : List ByteArray) : id ∈ ((new store nodeId).onMessages env msgs).holdersOf hash ↔
      id ≠ nodeId ∧ ∃ raw ∈ msgs, env.fromSlice raw = .ok (.iHave hash.toHex id) :=
  mem_holdersUnder_onMessages env msgs

/-! ## The fetch -/

theorem parseHolders_cons (id : String) (holders : List String) :
    parseHolders env (id :: holders) = match env.keys.fromStr id with
      | .error e => .error ("holder id '" ++ id ++ "' is not a valid node id: " ++ e)
      | .ok k => (parseHolders env holders).map (k :: ·) := by
  simp only [parseHolders, List.mapM_cons]
  rcases env.keys.fromStr id with e | k
  · rfl
  · rcases holders.mapM (fun id => (env.keys.fromStr id).mapError fun e =>
      "holder id '" ++ id ++ "' is not a valid node id: " ++ e) with e | ks <;> rfl

theorem parseHolders_cases : ∀ holders : List String,
    (∃ ks, parseHolders env holders = .ok ks
        ∧ ∀ id ∈ holders, ∃ k ∈ ks, env.keys.fromStr id = .ok k)
      ∨ (∃ e, parseHolders env holders = .error e)
        ∧ ∃ id ∈ holders, ¬ ∃ k, env.keys.fromStr id = .ok k
  | [] => .inl ⟨[], rfl, by simp⟩
  | id :: holders => by
    rw [parseHolders_cons]
    rcases hk : env.keys.fromStr id with e | k
    · exact .inr ⟨⟨_, rfl⟩, id, by simp, by simp [hk]⟩
    · rcases parseHolders_cases holders with ⟨ks, h, hks⟩ | ⟨⟨e, h⟩, id', hid, hn⟩
      · refine .inl ⟨k :: ks, by rw [h]; rfl, ?_⟩
        intro id' hid
        rcases List.mem_cons.1 hid with rfl | hid
        · exact ⟨k, by simp, hk⟩
        · obtain ⟨k', hk', h'⟩ := hks id' hid
          exact ⟨k', List.mem_cons_of_mem _ hk', h'⟩
      · exact .inr ⟨⟨e, by rw [h]; rfl⟩, id', List.mem_cons_of_mem _ hid, hn⟩

variable {env} {dial : ℕ → κ → Attempt} {hash : Digest}

theorem has_iff {s : BlobSwarm} : s.has env hash ↔ env.ranges hash ⊆ s.store hash := by
  simp [has]

theorem has_addRanges {s : BlobSwarm} {got : Finset ℕ}
    (h : env.ranges hash ⊆ s.store hash ∨ env.ranges hash ⊆ got) :
    (s.addRanges env hash got).has env hash := by
  simp only [has_iff, addRanges, Function.update_self]
  intro r hr
  rcases h with h | h
  · exact Finset.mem_union_left _ (h hr)
  · exact Finset.mem_union_right _ (Finset.mem_inter.2 ⟨h hr, hr⟩)

/-- One holder that serves the blob is enough, wherever it stands among the providers. -/
theorem has_tryProviders : ∀ (providers : List κ) (s : BlobSwarm) (lastErr : Option String) (n : ℕ),
    (s.has env hash ∨ ∃ k ∈ providers, Serves env dial hash k) →
      (tryProviders env dial hash s lastErr n providers).1.has env hash
  | [], s, lastErr, n, h => by simpa [tryProviders] using h
  | provider :: providers, s, lastErr, n, h => by
    unfold tryProviders
    split_ifs with hs
    · exact hs
    obtain ⟨k, hk, hserve⟩ := h.resolve_left hs
    have hrest : Serves env dial hash provider ∨ ∃ k ∈ providers, Serves env dial hash k := by
      rcases List.mem_cons.1 hk with rfl | hk
      · exact .inl hserve
      · exact .inr ⟨k, hk, hserve⟩
    -- a dial that failed was not of a holder that serves the blob
    have hskip (hn : ¬ ∃ got, dial n provider = .transfer got none) :
        ∃ k ∈ providers, Serves env dial hash k :=
      hrest.resolve_left fun hp => hn ⟨_, (hp n).choose_spec.1⟩
    split
    · rename_i e hd
      exact has_tryProviders providers _ _ _ (.inr (hskip (by simp [hd])))
    · rename_i hd
      exact has_tryProviders providers _ _ _ (.inr (hskip (by simp [hd])))
    · rename_i got hd
      refine has_tryProviders providers _ _ _ (hrest.imp_left fun hp => ?_)
      obtain ⟨got', hd', hgot⟩ := hp n
      rw [hd] at hd'
      obtain rfl := (Attempt.transfer.inj hd').1
      exact has_addRanges (.inr hgot)
    · rename_i got e hd
      exact has_tryProviders providers _ _ _ (.inr (hskip (by simp [hd])))

/-- With a holder among them that serves the blob, the fetch brings it exactly if every holder's
id parses. -/
theorem fetch_ok_iff_parse {s : BlobSwarm} {holders : List String}
    (hserve : ∃ id ∈ holders, ∃ k, env.keys.fromStr id = .ok k ∧ Serves env dial hash k)
    (hbytes : env.blake3 (env.bytes hash) = hash) :
    (∃ bytes, (fetch env s dial hash holders).1 = .ok bytes ∧ env.blake3 bytes = hash) ↔
      ∀ id ∈ holders, ∃ k, env.keys.fromStr id = .ok k := by
  obtain ⟨id, hid, k, hk, hs⟩ := hserve
  have hne : holders.isEmpty = false := by simpa using List.ne_nil_of_mem hid
  unfold fetch
  simp only [hne, Bool.false_eq_true, if_false]
  rcases parseHolders_cases env holders with ⟨ks, hp, hks⟩ | ⟨⟨e, hp⟩, id', hid', hn⟩
  · have hhas : (tryProviders env dial hash s none 0 ks).1.has env hash := by
      obtain ⟨k', hk', h'⟩ := hks id hid
      obtain rfl := Except.ok.inj (hk.symm.trans h')
      exact has_tryProviders ks _ _ _ (.inr ⟨k, hk', hs⟩)
    simp only [hp, hhas, if_true, hbytes]
    refine ⟨fun _ id hid => ?_, fun _ => ⟨_, rfl, hbytes⟩⟩
    obtain ⟨k', -, h'⟩ := hks id hid
    exact ⟨k', h'⟩
  · simp only [hp, reduceCtorEq, false_and, exists_false, false_iff]
    exact fun h => hn (h id' hid')

/-- After any messages, a fetch from the blob's holders in any order, one of which serves it,
brings it exactly if no message announced a holder whose id does not parse. -/
theorem fetch_holders_iff {store : Digest → Finset ℕ} {nodeId : String} {msgs : List ByteArray}
    {holders : List String}
    (hperm : holders.Perm (((new store nodeId).onMessages env msgs).holdersOf hash))
    (hserve : ∃ id ∈ holders, ∃ k, env.keys.fromStr id = .ok k ∧ Serves env dial hash k)
    (hbytes : env.blake3 (env.bytes hash) = hash) :
    (∃ bytes, (fetch env ((new store nodeId).onMessages env msgs) dial hash holders).1 = .ok bytes
        ∧ env.blake3 bytes = hash) ↔
      ∀ raw ∈ msgs, ∀ id, env.fromSlice raw = .ok (.iHave hash.toHex id) → id ≠ nodeId →
        ∃ k, env.keys.fromStr id = .ok k := by
  rw [fetch_ok_iff_parse hserve hbytes]
  simp only [hperm.mem_iff, mem_holdersOf_onMessages]
  exact ⟨fun h raw hm id hr hn => h id ⟨hn, raw, hm, hr⟩,
    fun h id ⟨hn, raw, hm, hr⟩ => h raw hm id hr hn⟩

def survivor : String := "d75a980182b10ab7d54bfed3c964073a0ee172f3daa62325af021a68f707511a"

/-- Reads compact JSON, knows one key, and has the blob `hi` in one range. -/
def hiEnv : SwarmEnv Unit where
  fromSlice raw := ((Json.fromSlice raw).bind SwarmMessage.ofJson).elim (.error "not a message") .ok
  fromSlice_toVec m := by
    rw [SwarmMessage.toVec, Json.fromSlice_toVec, Option.bind_some, SwarmMessage.ofJson_toJson]
    rfl
  keys := .only survivor
  hashFromStr hash := if hash = Digest.hi.toHex then .ok Digest.hi else .error "not a hash"
  blake3 _ := Digest.hi
  ranges _ := {0}
  bytes _ := "hi".toUTF8

def badEntry : List ByteArray :=
  [(SwarmMessage.iHave Digest.hi.toHex survivor).toVec,
    (SwarmMessage.iHave Digest.hi.toHex "not-a-key").toVec]

theorem mem_holdersOf_badEntry {id : String} (h : id = survivor ∨ id = "not-a-key") :
    id ∈ ((new (fun _ => ∅) "me").onMessages hiEnv badEntry).holdersOf Digest.hi := by
  rw [mem_holdersOf_onMessages]
  refine ⟨by rcases h with rfl | rfl <;> decide, (SwarmMessage.iHave Digest.hi.toHex id).toVec, ?_,
    hiEnv.fromSlice_toVec _⟩
  rcases h with rfl | rfl <;> simp [badEntry]

theorem survivor_serves : Serves hiEnv (fun _ _ => .transfer {0} none) Digest.hi () :=
  fun _ => ⟨{0}, rfl, subset_refl _⟩

theorem badEntry_sinks_fetch :
    ¬ ∀ msgs : List ByteArray, ∀ holders : List String,
      holders.Perm (((new (fun _ => ∅) "me").onMessages hiEnv msgs).holdersOf Digest.hi) →
      (∃ id ∈ holders, ∃ k, hiEnv.keys.fromStr id = .ok k
        ∧ Serves hiEnv (fun _ _ => .transfer {0} none) Digest.hi k) →
      ∃ bytes, (fetch hiEnv ((new (fun _ => ∅) "me").onMessages hiEnv msgs)
        (fun _ _ => .transfer {0} none) Digest.hi holders).1 = .ok bytes
          ∧ hiEnv.blake3 bytes = Digest.hi := by
  intro h
  have hserve : ∃ id ∈ ((new (fun _ => ∅) "me").onMessages hiEnv badEntry).holdersOf Digest.hi,
      ∃ k, hiEnv.keys.fromStr id = .ok k
        ∧ Serves hiEnv (fun _ _ => .transfer {0} none) Digest.hi k :=
    ⟨survivor, mem_holdersOf_badEntry (.inl rfl), (), hiEnv.keys.fromStr_toStr (), survivor_serves⟩
  have hok := h badEntry _ (List.Perm.refl _) hserve
  obtain ⟨k, hk⟩ := (fetch_ok_iff_parse hserve rfl).1 hok _ (mem_holdersOf_badEntry (.inr rfl))
  simp [hiEnv, PublicKeys.only, survivor] at hk

theorem fetch_holders_iff_badEntry :
    (∃ bytes, (fetch hiEnv ((new (fun _ => ∅) "me").onMessages hiEnv badEntry)
        (fun _ _ => .transfer {0} none) Digest.hi
        (((new (fun _ => ∅) "me").onMessages hiEnv badEntry).holdersOf Digest.hi)).1 = .ok bytes
        ∧ hiEnv.blake3 bytes = Digest.hi) ↔
      ∀ raw ∈ badEntry, ∀ id, hiEnv.fromSlice raw = .ok (.iHave Digest.hi.toHex id) → id ≠ "me" →
        ∃ k, hiEnv.keys.fromStr id = .ok k :=
  fetch_holders_iff (List.Perm.refl _)
    ⟨survivor, mem_holdersOf_badEntry (.inl rfl), (), hiEnv.keys.fromStr_toStr (),
      survivor_serves⟩ rfl

end BlobSwarm

end XaeroFlux
