import XaeroFlux.Proofs.Swarm

/-!
# What the registry is keyed by

A holder is recorded under the string it was announced with, and looked for under the hash's own
rendering; only a query's hash is parsed. So the registry is one of contents (`KeyedByContent`)
exactly while every other spelling of a hash comes with the rendering too, and no announcement
carries a string that denotes no hash.
-/

namespace XaeroFlux

namespace BlobSwarm

variable {κ : Type} (env : SwarmEnv κ)

/-- A message announces that `id` holds the blob, in whatever spelling of its hash. -/
def Announced (msgs : List ByteArray) (hash : Digest) (id : String) : Prop :=
  ∃ raw ∈ msgs, ∃ s, env.fromSlice raw = .ok (.iHave s id) ∧ env.hashFromStr s = .ok hash

/-- The registry these messages leave is one of contents, not of strings. -/
structure KeyedByContent (store : Digest → Finset ℕ) (nodeId : String) (msgs : List ByteArray) :
    Prop where
  holders : ∀ hash id, id ∈ ((new store nodeId).onMessages env msgs).holdersOf hash ↔
    id ≠ nodeId ∧ Announced env msgs hash id
  /-- An announcement whose string denotes no hash leaves the registry as it was. -/
  noHash : ∀ before raw rest s id e, msgs = before ++ raw :: rest →
    env.fromSlice raw = .ok (.iHave s id) → env.hashFromStr s = .error e →
      ((new store nodeId).onMessages env (before ++ [raw])).holders
        = ((new store nodeId).onMessages env before).holders
  /-- Neither order nor repetition of the messages matters. -/
  order : ∀ msgs', (∀ raw, raw ∈ msgs' ↔ raw ∈ msgs) → ∀ hash id,
    id ∈ ((new store nodeId).onMessages env msgs').holdersOf hash ↔
      id ∈ ((new store nodeId).onMessages env msgs).holdersOf hash

variable {env} {store : Digest → Finset ℕ} {nodeId : String} {msgs : List ByteArray}

theorem holders_onMessage_own {s : BlobSwarm} {raw : ByteArray} {hashHex : String}
    (h : env.fromSlice raw = .ok (.iHave hashHex s.nodeId)) : (s.onMessage env raw).2 = s := by
  unfold onMessage
  rw [h]
  exact if_pos rfl

/-- A string that denotes no hash is announced by no other node: its first announcement would
have changed the registry. -/
theorem KeyedByContent.not_announced (h : KeyedByContent env store nodeId msgs) {s id e : String}
    (he : env.hashFromStr s = .error e) (hn : id ≠ nodeId) :
    ∀ before rest, msgs = before ++ rest →
      ∀ raw ∈ before, env.fromSlice raw ≠ .ok (.iHave s id) := by
  intro before
  induction before using List.reverseRecOn with
  | nil => simp
  | append_singleton before raw ih =>
    intro rest hmsgs
    have hcons : msgs = before ++ raw :: rest := by simpa using hmsgs
    have hbefore := ih _ hcons
    intro raw' hraw' hmsg
    rcases List.mem_append.1 hraw' with hraw' | hraw'
    · exact hbefore raw' hraw' hmsg
    obtain rfl := List.mem_singleton.1 hraw'
    have hmem : id ∈ ((new store nodeId).onMessages env (before ++ [raw'])).holdersUnder s :=
      (mem_holdersUnder_onMessages env _).2 ⟨hn, raw', by simp, hmsg⟩
    rw [holdersUnder, h.noHash before raw' rest s id e hcons hmsg he] at hmem
    obtain ⟨-, r, hr, hmsg'⟩ := (mem_holdersUnder_onMessages env before).1 hmem
    exact hbefore r hr hmsg'

/-- After any messages the registry is one of contents exactly if each announcement of another node
carries a string that denotes a hash, and that node announced the hash's rendering too. -/
theorem keyedByContent_iff (hlaw : ∀ hash : Digest, env.hashFromStr hash.toHex = .ok hash)
    (store : Digest → Finset ℕ) (nodeId : String) (msgs : List ByteArray) :
    KeyedByContent env store nodeId msgs ↔
      ∀ raw ∈ msgs, ∀ s id, env.fromSlice raw = .ok (.iHave s id) → id ≠ nodeId →
        ∃ hash, env.hashFromStr s = .ok hash
          ∧ ∃ raw' ∈ msgs, env.fromSlice raw' = .ok (.iHave hash.toHex id) := by
  constructor
  · intro h raw hraw s id hmsg hn
    rcases hs : env.hashFromStr s with e | hash
    · exact (h.not_announced hs hn msgs [] (by simp) raw hraw hmsg).elim
    · have hmem := (h.holders hash id).2 ⟨hn, raw, hraw, s, hmsg, hs⟩
      exact ⟨hash, rfl, ((mem_holdersOf_onMessages env msgs).1 hmem).2⟩
  · intro h
    refine ⟨fun hash id => ?_, ?_, ?_⟩
    · rw [mem_holdersOf_onMessages]
      refine and_congr_right fun hn => ⟨?_, ?_⟩
      · intro ⟨raw, hraw, hmsg⟩
        exact ⟨raw, hraw, hash.toHex, hmsg, hlaw hash⟩
      · intro ⟨raw, hraw, s, hmsg, hs⟩
        obtain ⟨hash', hs', hrendered⟩ := h raw hraw s id hmsg hn
        obtain rfl := Except.ok.inj (hs.symm.trans hs')
        exact hrendered
    · intro before raw rest s id e hmsgs hmsg he
      have hown : id = nodeId := by
        by_contra hn
        obtain ⟨hash, hs, -⟩ := h raw (by simp [hmsgs]) s id hmsg hn
        simp [he] at hs
      subst hown
      rw [onMessages_concat, holders_onMessage_own (by simpa [new] using hmsg)]
    · intro msgs' hsame hash id
      simp only [mem_holdersOf_onMessages, hsame]

/-- The base32 string of the hash of `hi`. -/
def spelling : String := "qucs5gvldnt3myrnssqiiqnqt7k3plfgd3rwaqlnodpf3jt5q3fa"

/-- Reads every hash's hex string, and another spelling of one hash. -/
def spelledFromStr (s : String) : Except String Digest :=
  if s = spelling then .ok Digest.hi
  else
    match Utf8.unhex s.toList with
    | some bytes => if h : bytes.length = 32 then .ok ⟨bytes.toArray, h⟩ else .error "wrong length"
    | none => .error "invalid symbol"

theorem toHex_ne_spelling (hash : Digest) : hash.toHex ≠ spelling := by
  intro h
  have hlen : Utf8.len hash.toHex = 64 := by rw [Digest.toHex, Utf8.len_hex, Vector.length_toList]
  rw [h] at hlen
  revert hlen
  decide

theorem spelledFromStr_toHex (hash : Digest) : spelledFromStr hash.toHex = .ok hash := by
  have hbytes : Utf8.unhex hash.toHex.toList = some hash.toList := by
    rw [Digest.toHex, Utf8.hex, String.toList_ofList, Utf8.unhex_hex]
  rw [spelledFromStr, if_neg (toHex_ne_spelling hash), hbytes]
  simp only [Vector.length_toList, dite_true]
  exact congrArg Except.ok (Vector.toArray_inj.1 Array.toArray_toList)

theorem spelledFromStr_spelling : spelledFromStr spelling = .ok Digest.hi := if_pos rfl

def spelledEnv : SwarmEnv Unit := { hiEnv with hashFromStr := spelledFromStr }

def spelled : List ByteArray := [(SwarmMessage.iHave spelling survivor).toVec]

theorem keyedByContent_iff_spelled :
    KeyedByContent spelledEnv (fun _ => ∅) "me" spelled ↔
      ∀ raw ∈ spelled, ∀ s id, spelledEnv.fromSlice raw = .ok (.iHave s id) → id ≠ "me" →
        ∃ hash, spelledEnv.hashFromStr s = .ok hash
          ∧ ∃ raw' ∈ spelled, spelledEnv.fromSlice raw' = .ok (.iHave hash.toHex id) :=
  keyedByContent_iff spelledFromStr_toHex (fun _ => ∅) "me" spelled

/-- The holder that announced the other spelling is never found. -/
theorem spelled_unheld : ¬ ∀ env : SwarmEnv Unit,
    (∀ hash : Digest, env.hashFromStr hash.toHex = .ok hash) →
      ∀ (store : Digest → Finset ℕ) (nodeId : String) (msgs : List ByteArray),
        KeyedByContent env store nodeId msgs := by
  intro h
  have hkeyed := h spelledEnv spelledFromStr_toHex (fun _ => ∅) "me" spelled
  have hmsg : spelledEnv.fromSlice (SwarmMessage.iHave spelling survivor).toVec
      = .ok (.iHave spelling survivor) := spelledEnv.fromSlice_toVec _
  have hheld := (hkeyed.holders Digest.hi survivor).2
    ⟨by decide, _, List.mem_singleton_self _, spelling, hmsg, spelledFromStr_spelling⟩
  obtain ⟨-, raw, hraw, hhex⟩ := (mem_holdersOf_onMessages spelledEnv spelled).1 hheld
  rw [List.mem_singleton.1 hraw, hmsg] at hhex
  obtain ⟨hs, -⟩ := SwarmMessage.iHave.inj (Except.ok.inj hhex)
  exact toHex_ne_spelling Digest.hi hs.symm

end BlobSwarm

end XaeroFlux
