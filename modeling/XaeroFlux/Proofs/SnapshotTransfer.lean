import XaeroFlux.Lib.Accum
import XaeroFlux.Snapshot

/-!
# Serving and downloading a snapshot

A reader of the reply gets as many bytes as the length before them says: all of the snapshot's, or,
where the length wrapped or the stream ended early, fewer. Fewer are no text (`readReply_eq_ok`), so
what is downloaded is what was served (`exact_or_refused`).

The requester records the time of the snapshot, not of its download, so how long the group counts
as synced is a matter of the provider's last event (`settled_iff`).
-/

namespace XaeroFlux

/-! ## Framing -/

theorem length_data (b : ByteArray) : b.data.toList.length = b.size := Array.length_toList

theorem fromBeBytes_toBeBytes (n : ℕ) : fromBeBytes (toBeBytes n) = n % 2 ^ 32 := by
  simp only [fromBeBytes, toBeBytes, List.foldl_cons, List.foldl_nil, UInt8.toNat_ofNat']
  omega

theorem readExact_eq_some {n : ℕ} {bytes a b : List UInt8} :
    readExact n bytes = some (a, b) ↔ bytes = a ++ b ∧ a.length = n := by
  unfold readExact
  split_ifs with h
  · simp only [Option.some.injEq, Prod.mk.injEq]
    constructor
    · rintro ⟨rfl, rfl⟩
      exact ⟨(List.take_append_drop n bytes).symm, List.length_take_of_le h⟩
    · rintro ⟨rfl, rfl⟩
      exact ⟨List.take_left, List.drop_left⟩
  · simp only [false_iff, not_and]
    rintro rfl rfl
    simp at h

namespace GroupSnapshot

theorem derives_toVec (s : GroupSnapshot) :
    Json.Derives .value s.toVec.data.toList := by
  unfold toVec
  exact Json.derives_toVec s.toJson

theorem head_toVec (s : GroupSnapshot) :
    s.toVec.data.toList.head? = some (Json.ascii '{') := by
  unfold toVec toJson
  exact Json.head_toVec_obj _

end GroupSnapshot

namespace SnapshotRequester

variable {κ : Type} {env : RequesterEnv κ}

theorem readReply_frame {data : List UInt8} (h : data.length < 2 ^ 32) :
    readReply env (frame data) = env.reader.fromSlice data.toByteArray := by
  have hlen : readExact 4 (frame data) = some (toBeBytes data.length, data) :=
    readExact_eq_some.2 ⟨rfl, rfl⟩
  have hdata : readExact data.length data = some (data, []) :=
    readExact_eq_some.2 ⟨(List.append_nil data).symm, rfl⟩
  rw [readReply, hlen]
  simp only [fromBeBytes_toBeBytes, Nat.mod_eq_of_lt h, hdata]

/-- What is read of a reply cut short is the data up to the length that came with it. -/
theorem readReply_of_prefix {data received : List UInt8} {s : GroupSnapshot}
    (hcut : received <+: frame data) (h : readReply env received = .ok s) :
    ∃ p, p <+: data ∧ p.length = data.length % 2 ^ 32 ∧ p.length + 4 ≤ received.length
      ∧ env.reader.fromSlice p.toByteArray = .ok s := by
  unfold readReply at h
  split at h
  · simp at h
  rename_i lenBuf rest hlen
  obtain ⟨rfl, hfour⟩ := readExact_eq_some.1 hlen
  split at h
  · simp at h
  rename_i p later hp
  obtain ⟨rfl, hsize⟩ := readExact_eq_some.1 hp
  -- the first four bytes are the length's, and what follows is the data's
  obtain ⟨t, ht⟩ := hcut
  rw [frame, List.append_assoc, List.append_assoc] at ht
  obtain ⟨rfl, hdata⟩ := List.append_inj ht (by rw [hfour]; rfl)
  rw [fromBeBytes_toBeBytes] at hsize
  refine ⟨p, ⟨later ++ t, hdata⟩, hsize, ?_, h⟩
  simp only [List.length_append, hfour]
  omega

/-- A snapshot is read exactly from the whole of a reply whose length did not wrap. -/
theorem readReply_eq_ok {s s' : GroupSnapshot} {received : List UInt8}
    (hcut : received <+: frame s.toVec.data.toList) :
    readReply env received = .ok s' ↔
      s.toVec.size < 2 ^ 32 ∧ received = frame s.toVec.data.toList ∧ s' = s := by
  have hread : env.reader.fromSlice s.toVec.data.toList.toByteArray = .ok s := by
    rw [Json.toByteArray_data]
    exact env.reader.reads (GroupSnapshot.ofJson_toJson s)
  have hsize := length_data s.toVec
  constructor
  · intro h
    obtain ⟨p, hp, hmod, hlong, hs'⟩ := readReply_of_prefix hcut h
    have htext := env.reader.isText hs'
    rw [List.toList_data_toByteArray] at htext
    obtain rfl : p = s.toVec.data.toList := by
      by_contra hne
      exact Json.not_isText_of_prefix s.derives_toVec s.head_toVec hp hne htext
    refine ⟨?_, ?_, Except.ok.inj (hs'.symm.trans hread)⟩
    · rw [← hsize, hmod]
      exact Nat.mod_lt _ (by decide)
    · refine hcut.eq_of_length_le ?_
      rw [frame, List.length_append]
      exact (Nat.add_comm _ _).trans_le hlong
  · rintro ⟨hlt, rfl, rfl⟩
    rw [readReply_frame (by rwa [hsize]), hread]

/-! ## The download -/

theorem downloadSnapshot_of_ok {request : κ → List UInt8 → Except String (List UInt8)}
    {provider g : String} {k : κ} {received : List UInt8} {s : GroupSnapshot}
    (r : SnapshotRequester) (hk : env.keys.fromStr provider = .ok k)
    (hreq : request k (frame g.toUTF8.data.toList) = .ok received)
    (h : readReply env received = .ok s) :
    r.downloadSnapshot env request provider g
      = (.ok s, { r with syncState := r.syncState.put g s.snapshotTs }) := by
  unfold downloadSnapshot
  simp only [hk, hreq, h, bind, Except.bind]

/-- A download that does not read a snapshot fails, and leaves the requester as it was. -/
theorem downloadSnapshot_cases (request : κ → List UInt8 → Except String (List UInt8))
    (r : SnapshotRequester) (provider g : String) :
    (∃ k received s, env.keys.fromStr provider = .ok k
        ∧ request k (frame g.toUTF8.data.toList) = .ok received
        ∧ readReply env received = .ok s)
      ∨ ∃ e, r.downloadSnapshot env request provider g = (.error e, r) := by
  unfold downloadSnapshot
  rcases hk : env.keys.fromStr provider with e | k
  · exact .inr ⟨e, rfl⟩
  rcases hreq : request k (frame g.toUTF8.data.toList) with e | received
  · exact .inr ⟨e, by simp only [hreq, bind, Except.bind]⟩
  rcases h : readReply env received with e | s
  · exact .inr ⟨e, by simp only [hreq, h, bind, Except.bind]⟩
  · exact .inl ⟨k, received, s, rfl, hreq, h⟩

/-- However the stream of a served snapshot ends, what is downloaded is that snapshot, where its
length fits the prefix and all of the reply comes, and nothing otherwise. -/
theorem exact_or_refused (request : κ → List UInt8 → Except String (List UInt8))
    (r : SnapshotRequester) (provider : String) {p : SnapshotProvider} {g : String}
    {s : GroupSnapshot} {reply : List UInt8} (hs : p.getSnapshot g = some s)
    (hreply : p.serveSnapshot g = .ok reply)
    (hcut : ∀ k received, env.keys.fromStr provider = .ok k →
      request k (frame g.toUTF8.data.toList) = .ok received → received <+: reply) :
    (s.toVec.size < 2 ^ 32 →
      (∃ k, env.keys.fromStr provider = .ok k
        ∧ request k (frame g.toUTF8.data.toList) = .ok reply) →
      ∃ r', r.downloadSnapshot env request provider g = (.ok s, r')
        ∧ r'.syncState.get g = some s.snapshotTs
        ∧ ∀ g', g' ≠ g → r'.syncState.get g' = r.syncState.get g')
      ∧ (2 ^ 32 ≤ s.toVec.size ∨
        ¬ (∃ k, env.keys.fromStr provider = .ok k
          ∧ request k (frame g.toUTF8.data.toList) = .ok reply) →
        ∃ e, r.downloadSnapshot env request provider g = (.error e, r)) := by
  obtain rfl : frame s.toVec.data.toList = reply := by
    simpa [SnapshotProvider.serveSnapshot, hs] using hreply
  constructor
  · rintro hlt ⟨k, hk, hreq⟩
    have hread : readReply env _ = .ok s :=
      (readReply_eq_ok (hcut k _ hk hreq)).2 ⟨hlt, rfl, rfl⟩
    refine ⟨_, downloadSnapshot_of_ok r hk hreq hread, ?_, fun g' hg => ?_⟩
    · rw [KeyedMap.get_put, if_pos rfl]
    · rw [KeyedMap.get_put, if_neg hg]
  · intro hbad
    refine (downloadSnapshot_cases request r provider g).resolve_left ?_
    rintro ⟨k, received, s', hk, hreq, hread⟩
    obtain ⟨hlt, rfl, -⟩ := (readReply_eq_ok (hcut k received hk hreq)).1 hread
    exact hbad.elim (fun h => absurd hlt (by omega)) fun h => h ⟨k, hk, hreq⟩

def oneNode : RequesterEnv Unit where
  keys := .only "provider"
  reader := .compact
  finishedEarly := "stream finished early"

/-- A provider with the group `rust`, one board in it. -/
def rustSnapshot : GroupSnapshot :=
  { GroupSnapshot.placeholder "rust" with
    boards := [⟨"b1", "w1", "todo", "freeform", 0⟩]
    snapshotTs := 42 }

theorem size_rustSnapshot : rustSnapshot.toVec.size < 2 ^ 32 := by decide +kernel

def rustProvider : SnapshotProvider := ⟨KeyedMap.put .empty "rust" rustSnapshot, "provider"⟩

/-- The provider replies all of its snapshot. -/
def rustReply (_ : Unit) (_ : List UInt8) : Except String (List UInt8) :=
  .ok (frame rustSnapshot.toVec.data.toList)

theorem exact_or_refused_rust :
    ∃ r', (new "me").downloadSnapshot oneNode rustReply "provider" "rust" = (.ok rustSnapshot, r')
      ∧ r'.syncState.get "rust" = some 42 := by
  have hs : rustProvider.getSnapshot "rust" = some rustSnapshot := by decide
  have hreply : rustProvider.serveSnapshot "rust" = .ok (frame rustSnapshot.toVec.data.toList) := by
    rw [SnapshotProvider.serveSnapshot, hs]
  have hcut : ∀ (k : Unit) (received : List UInt8), oneNode.keys.fromStr "provider" = .ok k →
      rustReply k (frame "rust".toUTF8.data.toList) = .ok received →
      received <+: frame rustSnapshot.toVec.data.toList := by
    intro _ _ _ h
    rw [← Except.ok.inj h]
  obtain ⟨hok, -⟩ := exact_or_refused rustReply (new "me") "provider" hs hreply hcut
  obtain ⟨r', h, hts, -⟩ := hok size_rustSnapshot ⟨(), rfl, rfl⟩
  exact ⟨r', h, hts⟩

/-! ## How long a download lasts -/

section Settled

variable {checks : Bool} {g : String} {ts now : UInt64}

theorem needsSnapshot_eq_false {r : SnapshotRequester} (h : r.syncState.get g = some ts) :
    r.needsSnapshot checks now g = some false ↔
      ts.toNat ≤ now.toNat ∧ now.toNat ≤ ts.toNat + 6 * 3600
        ∨ checks = false ∧ now.toNat + 2 ^ 64 ≤ ts.toNat + 6 * 3600 := by
  have hts := ts.toNat_lt
  have hnow := now.toNat_lt
  simp only [needsSnapshot, h]
  rcases Nat.lt_or_ge now.toNat ts.toNat with hlt | hle
  · rw [fit_sub_of_lt hlt hts]
    cases checks
    · simp only [Bool.false_eq_true, if_false, Option.map_some, Option.some.injEq,
        decide_eq_false_iff_not, true_and]
      omega
    · simp only [if_true, Option.map_none, reduceCtorEq, Bool.true_eq_false, false_and, or_false,
        false_iff]
      omega
  · rw [fit_sub_of_le hle hnow]
    simp only [Option.map_some, Option.some.injEq, decide_eq_false_iff_not]
    omega

/-- The timestamp the operation records for the group, if it records one: a download that succeeds
does, whoever asks. -/
def Op.recorded (env : RequesterEnv κ) (g : String) : Op κ → Option UInt64
  | .download request provider groupId =>
    if groupId = g then
      ((new "").downloadSnapshot env request provider groupId).1.toOption.map (·.snapshotTs)
    else none
  | .markSynced groupId ts => if groupId = g then some ts else none

/-- When the group was last synced, if ever. -/
def lastSync (env : RequesterEnv κ) (g : String) (ops : List (Op κ)) : Option UInt64 :=
  (ops.filterMap (Op.recorded env g)).getLast?

theorem syncState_apply (r : SnapshotRequester) (op : Op κ) :
    (r.apply env op).syncState.get g = (op.recorded env g).or (r.syncState.get g) := by
  cases op with
  | download request provider groupId =>
    simp only [apply, downloadSnapshot, Op.recorded]
    split
    · rw [KeyedMap.get_put]
      by_cases hg : g = groupId
      · simp [hg, Except.toOption]
      · simp [hg, Ne.symm hg]
    · split_ifs <;> rfl
  | markSynced groupId ts =>
    rw [apply, markSynced, KeyedMap.get_put, Op.recorded]
    by_cases hg : g = groupId
    · simp [hg]
    · simp [hg, Ne.symm hg]

theorem syncState_applyAll (ops : List (Op κ)) (r : SnapshotRequester) :
    (r.applyAll env ops).syncState.get g = (lastSync env g ops).or (r.syncState.get g) :=
  List.foldl_last (fun r => r.syncState.get g) syncState_apply ops r

theorem lastSync_eq_none {ops : List (Op κ)} (h : ∀ op ∈ ops, op.group ≠ g) :
    lastSync env g ops = none := by
  rw [lastSync, List.getLast?_eq_none_iff, List.filterMap_eq_nil_iff]
  intro op hop
  have hg := h op hop
  cases op with
  | download request provider groupId => exact if_neg hg
  | markSynced groupId ts => exact if_neg hg

theorem syncState_downloadSnapshot {request : κ → List UInt8 → Except String (List UInt8)}
    {r r' : SnapshotRequester} {provider : String} {s : GroupSnapshot}
    (h : r.downloadSnapshot env request provider g = (.ok s, r')) :
    r'.syncState.get g = some s.snapshotTs := by
  simp only [downloadSnapshot] at h
  split at h
  · obtain ⟨hs, rfl⟩ := Prod.mk.inj h
    rw [KeyedMap.get_put, if_pos rfl, Except.ok.inj hs]
  · simp at h

/-- A group downloaded at the clock's reading `t` counts as synced for six hours exactly if `t` is
the time of the snapshot, or the snapshot is older and the clock has no later reading than six hours
past it. -/
theorem settled_iff {request : κ → List UInt8 → Except String (List UInt8)}
    {r r' : SnapshotRequester} {provider : String} {s : GroupSnapshot} (t : UInt64)
    (h : r.downloadSnapshot env request provider g = (.ok s, r')) :
    (∀ ops : List (Op κ), (∀ op ∈ ops, op.group ≠ g) → ∀ now : UInt64, t.toNat ≤ now.toNat →
        now.toNat ≤ t.toNat + 6 * 3600 →
        (r'.applyAll env ops).needsSnapshot checks now g = some false) ↔
      s.snapshotTs = t
        ∨ s.snapshotTs.toNat ≤ t.toNat ∧ 2 ^ 64 - 1 ≤ s.snapshotTs.toNat + 6 * 3600 := by
  have hts := syncState_downloadSnapshot h
  have hlt := s.snapshotTs.toNat_lt
  have ht := t.toNat_lt
  rw [← UInt64.toNat_inj]
  constructor
  · intro hall
    have hfirst := (needsSnapshot_eq_false hts).1 (hall [] (by simp) t (by omega) (by omega))
    -- the last reading within the six hours
    have hlast : (UInt64.ofNat (min (t.toNat + 6 * 3600) (2 ^ 64 - 1))).toNat
        = min (t.toNat + 6 * 3600) (2 ^ 64 - 1) := by
      rw [UInt64.toNat_ofNat', Nat.mod_eq_of_lt (by omega)]
    have hend := (needsSnapshot_eq_false hts).1 (hall [] (by simp) _
      (by rw [hlast]; omega) (by rw [hlast]; omega))
    rw [hlast] at hend
    omega
  · intro hts' ops hops now hfrom hto
    have hnow := now.toNat_lt
    have hafter : (r'.applyAll env ops).syncState.get g = some s.snapshotTs := by
      rw [syncState_applyAll, lastSync_eq_none hops, Option.none_or, hts]
    exact (needsSnapshot_eq_false hafter).2 (.inl (by omega))

theorem downloadSnapshot_rust :
    ∃ r', (new "me").downloadSnapshot oneNode rustReply "provider" "rust"
    = (.ok rustSnapshot, r') := by
  have hread : readReply oneNode (frame rustSnapshot.toVec.data.toList) = .ok rustSnapshot :=
    (readReply_eq_ok (List.prefix_refl _)).2 ⟨size_rustSnapshot, rfl, rfl⟩
  exact ⟨_, downloadSnapshot_of_ok (new "me") rfl rfl hread⟩

/-- The group `rust` is quiet: what is downloaded of it is wanted again at once. -/
theorem quietGroup_not_settled :
    ∃ r', (new "me").downloadSnapshot oneNode rustReply "provider" "rust" = (.ok rustSnapshot, r')
      ∧ ∀ checks, r'.needsSnapshot checks 1700000000 "rust" = some true := by
  obtain ⟨r', h⟩ := downloadSnapshot_rust
  refine ⟨r', h, fun checks => ?_⟩
  simp only [needsSnapshot, syncState_downloadSnapshot h]
  cases checks <;> decide

theorem settled_iff_rust : ∃ r',
    (new "me").downloadSnapshot oneNode rustReply "provider" "rust" = (.ok rustSnapshot, r')
      ∧ ∀ ops : List (Op Unit), (∀ op ∈ ops, op.group ≠ "rust") → ∀ now : UInt64, 42 ≤ now.toNat →
        now.toNat ≤ 42 + 6 * 3600 →
        (r'.applyAll oneNode ops).needsSnapshot true now "rust" = some false := by
  obtain ⟨r', h⟩ := downloadSnapshot_rust
  exact ⟨r', h, (settled_iff 42 h).2 (.inl rfl)⟩

end Settled

end SnapshotRequester

end XaeroFlux
