import XaeroFlux.Proofs.SnapshotHistory
import XaeroFlux.Proofs.SnapshotStore
import XaeroFlux.Proofs.SnapshotTransfer
import XaeroFlux.SnapshotSync

/-!
# What a node that asks for a snapshot gets

A provider has what it was given (`providers_run`), and what it has only grows (`extends_updates`).
So an offer is of a snapshot the provider had (`offer_of_run`), and a download of what was offered,
however late and whatever happened meanwhile, is of that snapshot or one that extends it
(`offered`). The time of a last sync comes with a snapshot (`synced`). The log statement at the end
of either side panics where the group's id has a character across byte 16, after what the function
does is done (`logging_ok`).
-/

namespace XaeroFlux

/-! ## What a group's snapshot grows to -/

namespace GroupSnapshot

/-- Nothing is lost but chats, and of these there are as many. -/
structure Extends (s s' : GroupSnapshot) : Prop where
  workspaces : s.workspaces <+: s'.workspaces
  boards : s.boards <+: s'.boards
  files : s.files <+: s'.files
  recentChats : s.recentChats.length ≤ s'.recentChats.length

theorem extends_ofItems {g : String} {items items' : List Item} (h : items <+: items')
    (ts ts' : UInt64) : (ofItems g items ts).Extends (ofItems g items' ts') where
  workspaces := List.firsts_mono (h.filterMap _)
  boards := List.firsts_mono (h.filterMap _)
  files := List.firsts_mono (h.filterMap _)
  recentChats := by
    have hchats := (h.filterMap Item.asChat).length_le
    simp only [ofItems, List.length_rtake]
    omega

end GroupSnapshot

namespace SnapshotProvider

variable {fromStr : String → Option Json} {us us' : List (String × Event)} {g id : String}
  {s : GroupSnapshot}

theorem eventsOf_mono (h : us <+: us') (g : String) : eventsOf us g <+: eventsOf us' g :=
  (h.filter _).map _

/-- A group with a snapshot keeps having one, with at least what it had. -/
theorem extends_updates (h : us <+: us')
    (hs : ((new id).updates fromStr us).getSnapshot g = some s) :
    ∃ s', ((new id).updates fromStr us').getSnapshot g = some s' ∧ s.Extends s' := by
  rw [getSnapshot_updates, Option.map_eq_some_iff] at hs
  obtain ⟨event, hlast, rfl⟩ := hs
  have hevents := eventsOf_mono h g
  have hne : eventsOf us' g ≠ [] := by
    intro hnil
    rw [hnil, List.prefix_nil] at hevents
    rw [hevents] at hlast
    cases hlast
  refine ⟨_, ?_, GroupSnapshot.extends_ofItems (hevents.filterMap _) event.ts
    ((eventsOf us' g).getLast hne).ts⟩
  rw [getSnapshot_updates, List.getLast?_eq_some_getLast hne, Option.map_some]
  rfl

theorem handleRequest_eq_some {checks : Bool} {p : SnapshotProvider} {m : SnapshotMessage}
    (h : p.handleRequest checks g = some (some m)) : ∃ s n, p.getSnapshot g = some s
      ∧ s.itemCount checks = some n ∧ m = .snapshotAvailable g p.nodeId n s.snapshotTs := by
  unfold handleRequest at h
  rcases hs : p.getSnapshot g with _ | s <;> rw [hs] at h
  · cases h
  · obtain ⟨n, hn, hm⟩ := Option.map_eq_some_iff.1 h
    exact ⟨s, n, rfl, hn, (Option.some.inj hm).symm⟩

/-- What is written, and how the provider's call ends, where there is a snapshot and where not. -/
theorem serveSnapshotLogging_of_some {p : SnapshotProvider} (h : p.getSnapshot g = some s)
    (info : Bool) (written : Except String Unit) : p.serveSnapshotLogging info written g
      = (frame s.toVec.data.toList, logging info g written) := by
  rw [serveSnapshotLogging, serveSnapshot, h]

theorem serveSnapshotLogging_of_none {p : SnapshotProvider} (h : p.getSnapshot g = none)
    (info : Bool) (written : Except String Unit) : p.serveSnapshotLogging info written g
      = ([], .ok (.error ("No snapshot for group " ++ g))) := by
  rw [serveSnapshotLogging, serveSnapshot, h]

end SnapshotProvider

/-! ## What a log statement makes of a result -/

section Logging

variable {α : Type} {info : Bool} {g : String} {result : Except String α} {x : α}

/-- It returns what it returned. -/
theorem logging_eq_ok {y : Except String α} : logging info g result = .ok y ↔
    result = y ∧ (result.isOk → logs info [short g] = true) := by
  unfold logging
  rcases logs info [short g] <;> cases result <;> simp [Except.isOk, Except.toBool]

theorem logging_ok : logging info g (.ok x)
    = if logs info [short g] then .ok (.ok x) else .panic (.ok x) := by
  cases h : logs info [short g] <;> simp [logging, h, Except.isOk, Except.toBool]

theorem logging_eq_panic : (∃ y, logging info g result = .panic y) ↔
    result.isOk ∧ logs info [short g] = false := by
  unfold logging
  split_ifs with h <;> simp [h]

/-- Byte 16 is inside the last character. -/
example : logs true [short "group-of-my-café"] = false := by decide

end Logging

/-- The download once the bytes or the error came. -/
def Download.returned {ι κ : Type} (env : RequesterEnv κ) (info : Bool) (r : SnapshotRequester)
    (d : Download ι) (received : Except String (List UInt8)) : Download ι :=
  { d with
    received := some received
    result := some (logging info d.groupId
      (r.downloadSnapshot env (fun _ _ => received) d.provider d.groupId).1) }

theorem SnapshotRequester.readReply_whole {κ : Type} (env : RequesterEnv κ) {s : GroupSnapshot}
    (h : s.toVec.size < 2 ^ 32) : readReply env (frame s.toVec.data.toList) = .ok s :=
  (readReply_eq_ok (List.prefix_refl _)).2 ⟨h, rfl, rfl⟩

namespace SnapshotSync

open SnapshotProvider SnapshotRequester

variable {ι κ : Type} {env : RequesterEnv κ} {fromStr : String → Option Json} {key : ι → κ}

/-! ## What came of a connection -/

theorem fst_downloadSnapshot (request : κ → List UInt8 → Except String (List UInt8))
    (r r' : SnapshotRequester) (p g : String) :
    (r.downloadSnapshot env request p g).1 = (r'.downloadSnapshot env request p g).1 := by
  unfold SnapshotRequester.downloadSnapshot
  simp only []
  split <;> rfl

/-- What the code makes of what came of a connection. -/
def outcome (env : RequesterEnv κ) (p g : String) (received : Except String (List UInt8)) :
    Except String GroupSnapshot :=
  ((SnapshotRequester.new "").downloadSnapshot env (fun _ _ => received) p g).1

theorem outcome_eq_ok {p g : String} {received : Except String (List UInt8)}
    {snap : GroupSnapshot} : outcome env p g received = .ok snap ↔ ∃ k bytes,
      env.keys.fromStr p = .ok k ∧ received = .ok bytes
        ∧ SnapshotRequester.readReply env bytes = .ok snap := by
  unfold outcome
  constructor
  · intro h
    rcases SnapshotRequester.downloadSnapshot_cases (fun _ _ => received) (.new "") p g with
      ⟨k, bytes, snap', hk, hbytes, hread⟩ | ⟨e, he⟩
    · rw [SnapshotRequester.downloadSnapshot_of_ok _ hk hbytes hread] at h
      obtain rfl := Except.ok.inj h
      exact ⟨k, bytes, hk, hbytes, hread⟩
    · rw [he] at h
      cases h
  · rintro ⟨k, bytes, hk, rfl, hread⟩
    rw [SnapshotRequester.downloadSnapshot_of_ok _ hk rfl hread]

/-! ## A download under way -/

/-- The provider of a node that was given these. -/
def providerOf (env : RequesterEnv κ) (fromStr : String → Option Json) (key : ι → κ) (i : ι)
    (us : List (String × Event)) : SnapshotProvider :=
  (SnapshotProvider.new (env.keys.toStr (key i))).updates fromStr us

theorem nodeId_providerOf (i : ι) (us : List (String × Event)) :
    (providerOf env fromStr key i us).nodeId = env.keys.toStr (key i) :=
  SnapshotProvider.nodeId_updates us _

variable [DecidableEq ι] {checks : Bool} {info : ι → Bool} {s s' : SnapshotSync ι}
  {as : List (Act ι)} {a : Act ι} {i k : ι} {j : ℕ} {m : SnapshotMessage} {d : Download ι}

theorem given_append (as bs : List (Act ι)) (i : ι) :
    given (as ++ bs) i = given as i ++ given bs i := List.filterMap_append

theorem given_mono (as bs : List (Act ι)) (i : ι) : given as i <+: given (as ++ bs) i := by
  rw [given_append]
  exact List.prefix_append _ _

/-- A download that was begun after the actions `pre`, after the actions `as`. -/
structure Kept (env : RequesterEnv κ) (fromStr : String → Option Json) (info : ι → Bool)
    (key : ι → κ) (i : ι) (p g : String) (pre as : List (Act ι)) (d : Download ι) : Prop where
  node : d.node = i
  provider : d.provider = p
  groupId : d.groupId = g
  reply : ∀ reply, d.reply = some reply → ∃ k us written served, env.keys.fromStr p = .ok (key k)
    ∧ given pre k <+: us ∧ us <+: given as k ∧ d.served = some served
    ∧ (providerOf env fromStr key k us).serveSnapshotLogging (info k) written g = (reply, served)
  result : d.result = d.received.map fun received => logging (info i) g (outcome env p g received)
  arrives : ∀ received, d.received = some received → arrives d received

theorem Kept.later {i : ι} {p g : String} {pre as : List (Act ι)} {d : Download ι}
    (h : Kept env fromStr info key i p g pre as d) (a : Act ι) :
    Kept env fromStr info key i p g pre (as ++ [a]) d :=
  { h with
    reply := by
      intro reply hreply
      obtain ⟨k, us, written, served, hk, hpre, hus, hrest⟩ := h.reply reply hreply
      exact ⟨k, us, written, served, hk, hpre, hus.trans (given_mono as [a] k), hrest⟩ }

/-- What a download got came whole, and is what the provider had when the request came. -/
theorem Kept.of_ok {p g : String} {pre : List (Act ι)} {snap : GroupSnapshot}
    {received : Except String (List UInt8)} (hkept : Kept env fromStr info key i p g pre as d)
    (hrec : d.received = some received) (h : outcome env p g received = .ok snap) :
    ∃ k us, env.keys.fromStr p = .ok (key k) ∧ given pre k <+: us ∧ us <+: given as k
      ∧ (providerOf env fromStr key k us).getSnapshot g = some snap
      ∧ d.reply = some (frame snap.toVec.data.toList)
      ∧ received = .ok (frame snap.toVec.data.toList) ∧ snap.toVec.size < 2 ^ 32 := by
  obtain ⟨-, bytes, -, rfl, hread⟩ := outcome_eq_ok.1 h
  have harr := hkept.arrives _ hrec
  unfold SnapshotSync.arrives at harr
  rcases hreply : d.reply with _ | reply <;> rw [hreply] at harr
  · cases harr
  have hcut : bytes <+: reply := List.isPrefixOf_iff_prefix.1 harr
  obtain ⟨k, us, written, served, hk, hpre, hus, -, hserve⟩ := hkept.reply reply hreply
  rcases hs : (providerOf env fromStr key k us).getSnapshot g with _ | snap'
  · -- no bytes are no reply
    rw [SnapshotProvider.serveSnapshotLogging_of_none hs] at hserve
    obtain ⟨rfl, -⟩ := Prod.mk.inj hserve
    rw [List.prefix_nil.1 hcut] at hread
    cases hread
  · rw [SnapshotProvider.serveSnapshotLogging_of_some hs] at hserve
    obtain ⟨rfl, -⟩ := Prod.mk.inj hserve
    obtain ⟨hsize, rfl, rfl⟩ := (SnapshotRequester.readReply_eq_ok hcut).1 hread
    exact ⟨k, us, hk, hpre, hus, hs, rfl, rfl, hsize⟩

/-- Where the reply is a snapshot, that is what a download gets, and only of all of it. -/
theorem Kept.got_iff {p g : String} {pre : List (Act ι)} {snap snap' : GroupSnapshot}
    (hkept : Kept env fromStr info key i p g pre as d) (hk : env.keys.fromStr p = .ok (key k))
    (hreply : d.reply = some (frame snap.toVec.data.toList)) :
    (∃ received, d.received = some received ∧ outcome env p g received = .ok snap') ↔
      d.received = some (.ok (frame snap.toVec.data.toList)) ∧ snap.toVec.size < 2 ^ 32
        ∧ snap' = snap := by
  constructor
  · rintro ⟨received, hrec, hout⟩
    obtain ⟨-, -, -, -, -, -, hsome, rfl, hsize⟩ := hkept.of_ok hrec hout
    have hsame := Option.some.inj (hsome.symm.trans hreply)
    have hread := SnapshotRequester.readReply_whole env hsize
    rw [hsame] at hrec hread
    obtain ⟨hsize, -, rfl⟩ := (SnapshotRequester.readReply_eq_ok (List.prefix_refl _)).1 hread
    exact ⟨hrec, hsize, rfl⟩
  · rintro ⟨hrec, hsize, rfl⟩
    exact ⟨_, hrec, outcome_eq_ok.2 ⟨_, _, hk, rfl, SnapshotRequester.readReply_whole env hsize⟩⟩

/-- A download that got a snapshot returns it or panics, as the log can cut the group's id. -/
theorem Kept.returned_iff {p g : String} {pre : List (Act ι)} {snap : GroupSnapshot}
    (hkept : Kept env fromStr info key i p g pre as d) :
    d.result = some (.ok (.ok snap)) ↔ logs (info i) [short g] = true
      ∧ ∃ received, d.received = some received ∧ outcome env p g received = .ok snap := by
  rw [hkept.result]
  rcases d.received with _ | received
  · simp
  · rw [Option.map_some]
    simp only [Option.some.injEq, exists_eq_left', logging_eq_ok]
    rcases outcome env p g received with e | snap' <;> simp [Except.isOk, Except.toBool, and_comm]

theorem Kept.panicked_iff {p g : String} {pre : List (Act ι)}
    (hkept : Kept env fromStr info key i p g pre as d) :
    (∃ done, d.result = some (.panic done)) ↔ logs (info i) [short g] = false
      ∧ ∃ snap received, d.received = some received ∧ outcome env p g received = .ok snap := by
  rw [hkept.result]
  rcases d.received with _ | received
  · simp
  · rw [Option.map_some]
    simp only [Option.some.injEq, exists_eq_left', logging_eq_panic]
    rcases outcome env p g received with e | snap' <;> simp [Except.isOk, Except.toBool, and_comm]

/-! ## One step -/

variable [DecidableEq κ]

/-- What a step does. -/
inductive Effect (env : RequesterEnv κ) (fromStr : String → Option Json) (checks : Bool)
    (info : ι → Bool) (key : ι → κ) (s : SnapshotSync ι) : Act ι → SnapshotSync ι → Prop where
  | update (i : ι) (g : String) (event : Event) :
    Effect env fromStr checks info key s (.update i g event)
      (s.setProvider i ((s.providers i).updateFromEvent fromStr g event))
  | request (i : ι) (g : String) :
    Effect env fromStr checks info key s (.request i g) (s.send ((s.requesters i).createRequest g))
  | answer {i : ι} {g : String} {reply : SnapshotMessage} (m : SnapshotMessage)
    (h : (s.providers i).handleRequest checks g = some (some reply)) :
    Effect env fromStr checks info key s (.answer i m) (s.send reply)
  | silent (i : ι) (m : SnapshotMessage) : Effect env fromStr checks info key s (.answer i m) s
  | download (i : ι) (p g : String) :
    Effect env fromStr checks info key s (.download i p g)
      { s with downloads := s.downloads ++ [⟨i, p, g, none, none, none, none⟩] }
  | serve {i : ι} {j : ℕ} {d : Download ι} {written : Except String Unit}
    (hd : s.downloads[j]? = some d) (hreply : d.reply = none) (hresult : d.result = none)
    (hkey : env.keys.fromStr d.provider = .ok (key i)) :
    Effect env fromStr checks info key s (.serve i j written) (s.setDownload j
      { d with
        reply := some ((s.providers i).serveSnapshotLogging (info i) written d.groupId).1
        served := some ((s.providers i).serveSnapshotLogging (info i) written d.groupId).2 })
  | finish {j : ℕ} {d : Download ι} {received : Except String (List UInt8)}
    (hd : s.downloads[j]? = some d) (hresult : d.result = none) (harr : arrives d received) :
    Effect env fromStr checks info key s (.finish j received)
      ((s.setRequester d.node ((s.requesters d.node).downloadSnapshot env (fun _ _ => received)
        d.provider d.groupId).2).setDownload j
          (d.returned env (info d.node) (s.requesters d.node) received))
  | markSynced (i : ι) (g : String) (ts : UInt64) :
    Effect env fromStr checks info key s (.markSynced i g ts)
      (s.setRequester i ((s.requesters i).markSynced g ts))

theorem effect_of_step (h : s.step env fromStr checks info key a = some s') :
    Effect env fromStr checks info key s a s' := by
  cases a with
  | update i g event =>
    obtain rfl := Option.some.inj h
    exact .update i g event
  | request i g =>
    obtain rfl := Option.some.inj h
    exact .request i g
  | answer i m =>
    simp only [step] at h
    split_ifs at h
    rcases m with ⟨g, id, ts⟩ | _
    · simp only [] at h
      split at h
      · rename_i reply hreply
        obtain rfl := Option.some.inj h
        exact .answer _ hreply
      · obtain rfl := Option.some.inj h
        exact .silent i _
    · obtain rfl := Option.some.inj h
      exact .silent i _
  | download i p g =>
    obtain rfl := Option.some.inj h
    exact .download i p g
  | serve i j written =>
    simp only [step] at h
    split at h
    · cases h
    · rename_i d hd
      split_ifs at h with hserve
      obtain rfl := Option.some.inj h
      obtain ⟨hreply, hresult, hkey⟩ := hserve
      refine .serve hd (Option.isNone_iff_eq_none.1 hreply) (Option.isNone_iff_eq_none.1 hresult) ?_
      rcases hk : env.keys.fromStr d.provider with e | k <;> rw [hk] at hkey
      · cases hkey
      · rw [Option.some.inj hkey]
  | finish j received =>
    simp only [step] at h
    split at h
    · cases h
    · rename_i d hd
      split_ifs at h with hfinish
      obtain rfl := Option.some.inj h
      exact .finish hd (Option.isNone_iff_eq_none.1 hfinish.1) hfinish.2
  | markSynced i g ts =>
    obtain rfl := Option.some.inj h
    exact .markSynced i g ts

theorem providers_step (h : s.step env fromStr checks info key a = some s') (i : ι) :
    s'.providers i = (s.providers i).updates fromStr (given [a] i) := by
  cases effect_of_step h with
  | update k g event =>
    by_cases hk : k = i
    · subst hk
      simp [given, setProvider, SnapshotProvider.updates]
    · simp [given, setProvider, SnapshotProvider.updates, hk, Function.update_of_ne (Ne.symm hk)]
  | request | answer | silent | download | serve | finish | markSynced => rfl

/-- What is newly sent is a request or an answer to one. -/
theorem sent_step (h : s.step env fromStr checks info key a = some s') (hm : m ∈ s'.sent) :
    m ∈ s.sent ∨ (∃ i g, m = (s.requesters i).createRequest g)
      ∨ ∃ i g, (s.providers i).handleRequest checks g = some (some m) := by
  cases effect_of_step h with
  | request i g =>
    rcases List.mem_append.1 hm with hm | hm
    · exact .inl hm
    · exact .inr (.inl ⟨i, g, List.mem_singleton.1 hm⟩)
  | answer m' hreply =>
    rcases List.mem_append.1 hm with hm | hm
    · exact .inl hm
    · obtain rfl := List.mem_singleton.1 hm
      exact .inr (.inr ⟨_, _, hreply⟩)
  | update | silent | download | serve | finish | markSynced => exact .inl hm

/-! ## A run -/

theorem providers_run (h : (start env key).run env fromStr checks info key as = some s) (i : ι) :
    s.providers i = providerOf env fromStr key i (given as i) := by
  refine Machine.run_induction
    (P := fun as s => s.providers i = providerOf env fromStr key i (given as i)) rfl ?_ h
  intro as s a s' _ hs hst
  rw [providers_step hst i, hs, given_append]
  unfold providerOf SnapshotProvider.updates
  rw [List.foldl_append]

/-- An offer in flight is of a snapshot that the node had then. -/
theorem offer_of_run {g p : String} {n : ℕ} {ts : UInt64}
    (h : (start env key).run env fromStr checks info key as = some s)
    (hm : .snapshotAvailable g p n ts ∈ s.sent) : ∃ k us snap, us <+: given as k
      ∧ p = env.keys.toStr (key k) ∧ (providerOf env fromStr key k us).getSnapshot g = some snap
      ∧ snap.itemCount checks = some n ∧ snap.snapshotTs = ts := by
  refine Machine.run_induction (P := fun as s => .snapshotAvailable g p n ts ∈ s.sent →
    ∃ k us snap, us <+: given as k ∧ p = env.keys.toStr (key k)
      ∧ (providerOf env fromStr key k us).getSnapshot g = some snap
      ∧ snap.itemCount checks = some n ∧ snap.snapshotTs = ts) (by simp [start]) ?_ h hm
  intro as s a s' hr ih hst hm
  rcases sent_step hst hm with hold | ⟨i, g', hreq⟩ | ⟨i, g', hans⟩
  · obtain ⟨k, us, snap, hus, hsnap⟩ := ih hold
    exact ⟨k, us, snap, hus.trans (given_mono as [a] k), hsnap⟩
  · cases hreq
  · obtain ⟨snap, n', hsnap, hn, hmsg⟩ := SnapshotProvider.handleRequest_eq_some hans
    rw [providers_run hr, nodeId_providerOf] at hmsg
    rw [providers_run hr] at hsnap
    cases hmsg
    exact ⟨i, given as i, snap, given_mono as [a] i, rfl, hsnap, hn, rfl⟩

/-! ## A download -/

theorem kept_step {p g : String} {pre : List (Act ι)}
    (hr : (start env key).run env fromStr checks info key (pre ++ as) = some s)
    (hd : s.downloads[j]? = some d) (hkept : Kept env fromStr info key i p g pre (pre ++ as) d)
    (h : s.step env fromStr checks info key a = some s') :
    ∃ d', s'.downloads[j]? = some d'
      ∧ Kept env fromStr info key i p g pre (pre ++ as ++ [a]) d' := by
  cases effect_of_step h with
  | update | request | answer | silent | markSynced => exact ⟨d, hd, hkept.later _⟩
  | download k p' g' =>
    refine ⟨d, ?_, hkept.later _⟩
    have hj : j < s.downloads.length := (List.getElem?_eq_some_iff.1 hd).1
    exact (List.getElem?_append_left hj).trans hd
  | @serve k j' d' written hd' hreply hresult hkey =>
    by_cases hj : j' = j
    · subst hj
      obtain rfl := Option.some.inj (hd'.symm.trans hd)
      refine ⟨_, List.getElem?_set_self (List.getElem?_eq_some_iff.1 hd).1, ?_⟩
      have hnone : d'.received = none := by
        have := hkept.result
        rw [hresult] at this
        exact Option.map_eq_none_iff.1 this.symm
      have hlater := hkept.later (.serve k j' written)
      refine { hlater with reply := ?_, arrives := ?_ }
      · intro reply heq
        obtain rfl := Option.some.inj heq
        refine ⟨k, given (pre ++ as) k, written, _, hkept.provider ▸ hkey, given_mono pre as k,
          given_mono _ _ k, rfl, ?_⟩
        rw [providers_run hr, hkept.groupId]
      · intro received heq
        rw [hnone] at heq
        cases heq
    · exact ⟨d, (List.getElem?_set_ne hj).trans hd, hkept.later _⟩
  | @finish j' d' received hd' hresult harr =>
    by_cases hj : j' = j
    · subst hj
      obtain rfl := Option.some.inj (hd'.symm.trans hd)
      refine ⟨_, List.getElem?_set_self (List.getElem?_eq_some_iff.1 hd).1, ?_⟩
      have hlater := hkept.later (.finish j' received)
      refine { hlater with result := ?_, arrives := ?_ }
      · show some _ = some _
        rw [fst_downloadSnapshot _ _ (.new ""), hkept.node, hkept.provider, hkept.groupId]
        rfl
      · intro received' heq
        obtain rfl := Option.some.inj heq
        exact harr
    · exact ⟨d, (List.getElem?_set_ne hj).trans hd, hkept.later _⟩

theorem kept_of_run {p g : String} {pre : List (Act ι)} {s₁ : SnapshotSync ι}
    (h₁ : (start env key).run env fromStr checks info key pre = some s₁) :
    ∀ {as : List (Act ι)} {s : SnapshotSync ι},
      (start env key).run env fromStr checks info key (pre ++ (.download i p g :: as)) = some s →
      ∃ d, s.downloads[s₁.downloads.length]? = some d
        ∧ Kept env fromStr info key i p g pre (pre ++ (.download i p g :: as)) d := by
  intro as
  induction as using List.reverseRecOn with
  | nil =>
    intro s h
    obtain ⟨m, hm, hst⟩ := Machine.run_concat.1 h
    obtain rfl := Option.some.inj (h₁.symm.trans hm)
    obtain rfl := Option.some.inj hst
    refine ⟨_, List.getElem?_concat_length, ⟨rfl, rfl, rfl, ?_, rfl, ?_⟩⟩
    · intro reply hreply
      cases hreply
    · intro received hreceived
      cases hreceived
  | append_singleton as a ih =>
    intro s h
    rw [← List.cons_append, ← List.append_assoc] at h ⊢
    obtain ⟨m, hm, hst⟩ := Machine.run_concat.1 h
    obtain ⟨d, hd, hkept⟩ := ih hm
    exact kept_step hm hd hkept hst

/-- A download of what was offered is of a snapshot of the node that offered it: one that the node
had when the request came, and that extends what was offered. It returns it exactly if all of the
reply comes, the length of the snapshot's text fits the reply's head and the log can cut the group's
id; where the log cannot, it panics. So does the provider whose writes went well. -/
theorem offered (hkey : Function.Injective key) {pre : List (Act ι)} {s₁ : SnapshotSync ι}
    {g p : String} {n : ℕ} {ts : UInt64}
    (h₁ : (start env key).run env fromStr checks info key pre = some s₁)
    (hoffer : .snapshotAvailable g p n ts ∈ s₁.sent)
    (h : (start env key).run env fromStr checks info key (pre ++ (.download i p g :: as))
      = some s) :
    ∃ k d us₀ snap₀, p = env.keys.toStr (key k)
      ∧ s.downloads[s₁.downloads.length]? = some d ∧ d.node = i
      ∧ us₀ <+: given pre k ∧ (providerOf env fromStr key k us₀).getSnapshot g = some snap₀
      ∧ snap₀.itemCount checks = some n ∧ snap₀.snapshotTs = ts
      ∧ (d.reply = none → ∀ done, d.result = some done → ∃ e, done = .ok (.error e))
      ∧ ∀ reply, d.reply = some reply → ∃ us snap,
        given pre k <+: us ∧ us <+: given (pre ++ (.download i p g :: as)) k
        ∧ (providerOf env fromStr key k us).getSnapshot g = some snap ∧ snap₀.Extends snap
        ∧ reply = frame snap.toVec.data.toList
        ∧ (∃ written, d.served = some (logging (info k) g written))
        ∧ (∀ snap', d.result = some (.ok (.ok snap')) ↔ d.received = some (.ok reply)
          ∧ snap.toVec.size < 2 ^ 32 ∧ logs (info i) [short g] = true ∧ snap' = snap)
        ∧ ((∃ done, d.result = some (.panic done)) ↔ d.received = some (.ok reply)
          ∧ snap.toVec.size < 2 ^ 32 ∧ logs (info i) [short g] = false) := by
  obtain ⟨k, us₀, snap₀, hus₀, rfl, hsnap₀, hn, hts⟩ := offer_of_run h₁ hoffer
  obtain ⟨d, hd, hkept⟩ := kept_of_run h₁ h
  refine ⟨k, d, us₀, snap₀, rfl, hd, hkept.node, hus₀, hsnap₀, hn, hts, ?_, ?_⟩
  · -- nothing comes before the reply
    intro hreply done hdone
    rw [hkept.result] at hdone
    obtain ⟨received, hrec, rfl⟩ := Option.map_eq_some_iff.1 hdone
    rcases hout : outcome env (env.keys.toStr (key k)) g received with e | snap
    · exact ⟨e, logging_eq_ok.2 ⟨rfl, by simp [Except.isOk, Except.toBool]⟩⟩
    · obtain ⟨-, -, -, -, -, -, hsome, -⟩ := hkept.of_ok hrec hout
      rw [hreply] at hsome
      cases hsome
  intro reply hreply
  obtain ⟨k', us, written, served, hk', hpre, hus, hserved, hserve⟩ := hkept.reply reply hreply
  rw [env.keys.fromStr_toStr] at hk'
  obtain rfl := hkey (Except.ok.inj hk')
  obtain ⟨snap, hsnap, hext⟩ := SnapshotProvider.extends_updates (hus₀.trans hpre) hsnap₀
  obtain ⟨rfl, rfl⟩ := Prod.mk.inj
    (hserve.symm.trans (SnapshotProvider.serveSnapshotLogging_of_some hsnap (info k) written))
  have hspelled := env.keys.fromStr_toStr (key k)
  refine ⟨us, snap, hpre, hus, hsnap, hext, rfl, ⟨written, hserved⟩, fun snap' => ?_, ?_⟩
  · rw [hkept.returned_iff, hkept.got_iff hspelled hreply]
    constructor
    · rintro ⟨hlog, hrec, hsize, rfl⟩
      exact ⟨hrec, hsize, hlog, rfl⟩
    · rintro ⟨hrec, hsize, hlog, rfl⟩
      exact ⟨hlog, hrec, hsize, rfl⟩
  · rw [hkept.panicked_iff]
    constructor
    · rintro ⟨hlog, snap', hout⟩
      obtain ⟨hrec, hsize, -⟩ := (hkept.got_iff hspelled hreply).1 hout
      exact ⟨hrec, hsize, hlog⟩
    · rintro ⟨hrec, hsize, hlog⟩
      exact ⟨hlog, snap, (hkept.got_iff hspelled hreply).2 ⟨hrec, hsize, rfl⟩⟩

/-! ## A node that answers itself -/

theorem exists_asked (env : RequesterEnv κ) (fromStr : String → Option Json) (checks : Bool)
    (info : ι → Bool) (key : ι → κ) (i : ι) (g : String) (event : Event) : ∃ s,
    (start env key).run env fromStr checks info key [.update i g event, .request i g] = some s
      ∧ s.sent = [.requestSnapshot g (env.keys.toStr (key i)) 0] ∧ s.downloads = [] :=
  ⟨_, rfl, rfl, rfl⟩

theorem exists_downloaded {p g : String} {reply : List UInt8} {served : Exec (Except String Unit)}
    (hnone : s.downloads = []) (hk : env.keys.fromStr p = .ok (key k))
    (hserve : (s.providers k).serveSnapshotLogging (info k) (.ok ()) g = (reply, served)) (i : ι) :
    ∃ s', s.run env fromStr checks info key [.download i p g, .serve k 0 (.ok ()),
        .finish 0 (.ok reply)] = some s'
      ∧ s'.downloads[0]? = some ⟨i, p, g, some reply, some served, some (.ok reply),
        some (logging (info i) g (outcome env p g (.ok reply)))⟩
      ∧ ∀ snap, outcome env p g (.ok reply) = .ok snap →
        (s'.requesters i).syncState.get g = some snap.snapshotTs := by
  have hdownload : s.step env fromStr checks info key (.download i p g)
      = some { s with downloads := [⟨i, p, g, none, none, none, none⟩] } := by
    simp only [step, hnone, List.nil_append]
  have hserved : step env fromStr checks info key
      { s with downloads := [⟨i, p, g, none, none, none, none⟩] } (.serve k 0 (.ok ()))
      = some { s with downloads := [⟨i, p, g, some reply, some served, none, none⟩] } := by
    simp only [step, List.getElem?_cons_zero, Option.isNone_none, hk, Except.toOption, and_self,
      if_true, hserve, setDownload, List.set_cons_zero]
  have harr : arrives (⟨i, p, g, some reply, some served, none, none⟩ : Download ι) (.ok reply) :=
    List.isPrefixOf_iff_prefix.2 (List.prefix_refl reply)
  have hfinish : step env fromStr checks info key
      { s with downloads := [⟨i, p, g, some reply, some served, none, none⟩] }
      (.finish 0 (.ok reply)) = some { s with
        requesters := Function.update s.requesters i
          ((s.requesters i).downloadSnapshot env (fun _ _ => .ok reply) p g).2
        downloads := [⟨i, p, g, some reply, some served, some (.ok reply),
          some (logging (info i) g (outcome env p g (.ok reply)))⟩] } := by
    simp only [step, List.getElem?_cons_zero, Option.isNone_none, harr, and_self, if_true,
      setDownload, setRequester, List.set_cons_zero, SnapshotRequester.downloadSnapshotLogging]
    rw [fst_downloadSnapshot _ _ (.new "")]
    rfl
  refine ⟨_, Machine.run_cons.2 ⟨_, hdownload, Machine.run_cons.2 ⟨_, hserved,
    Machine.run_cons.2 ⟨_, hfinish, rfl⟩⟩⟩, rfl, ?_⟩
  intro snap hsnap
  simp only [Function.update_self]
  refine syncState_downloadSnapshot (Prod.ext ?_ rfl)
  exact (fst_downloadSnapshot _ _ _ _ _).trans hsnap

/-- A node is given an event and answers its own request. -/
def helloOffer : List (Act Unit) :=
  [.update () "g1" hello, .request () "g1"] ++ [.answer () (.requestSnapshot "g1" "provider" 0)]

/-- What the node has then. -/
def helloSnapshot : GroupSnapshot := .ofItems "g1" [.chat ⟨"c1", "w", "hi", "rust", none, 1⟩] 1

def helloReply : List UInt8 := frame helloSnapshot.toVec.data.toList

theorem size_helloSnapshot : helloSnapshot.toVec.size < 2 ^ 32 := by decide +kernel

theorem itemCount_helloSnapshot : helloSnapshot.itemCount false = some 2 := by decide

theorem getSnapshot_hello : (providerOf oneNode ValueReader.compact.fromStr id ()
    [("g1", hello)]).getSnapshot "g1" = some helloSnapshot := by
  have hevents : eventsOf [("g1", hello)] "g1" = [hello] := by decide
  unfold providerOf
  rw [getSnapshot_updates, itemsOf, hevents, List.filterMap_cons, ofPayload_hello]
  rfl

theorem handleRequest_hello :
    (providerOf oneNode ValueReader.compact.fromStr id () [("g1", hello)]).handleRequest false "g1"
      = some (some (.snapshotAvailable "g1" "provider" 2 1)) := by
  unfold handleRequest
  simp only [getSnapshot_hello, itemCount_helloSnapshot, nodeId_providerOf]
  rfl

/-- The node's log is at `info`. -/
def helloInfo : Unit → Bool := fun _ => true

theorem run_helloOffer : ∃ s, (start oneNode id).run oneNode ValueReader.compact.fromStr false
    helloInfo id helloOffer = some s ∧ .snapshotAvailable "g1" "provider" 2 1 ∈ s.sent
      ∧ s.downloads = [] := by
  obtain ⟨s, hs, hsent, hnone⟩ :=
    exists_asked oneNode ValueReader.compact.fromStr false helloInfo id () "g1" hello
  have hans := handleRequest_hello
  have hgiven : given [Act.update () "g1" hello, .request () "g1"] () = [("g1", hello)] := by
    simp [given]
  rw [← hgiven, ← providers_run hs] at hans
  refine ⟨s.send (.snapshotAvailable "g1" "provider" 2 1), ?_, List.mem_append_right _ (by simp),
    hnone⟩
  unfold helloOffer
  refine Machine.run_concat.2 ⟨s, hs, ?_⟩
  have hmem : .requestSnapshot "g1" "provider" 0 ∈ s.sent := by
    rw [hsent]
    exact List.mem_singleton_self _
  simp only [step, hmem, if_true, hans]

/-- The node downloads what it offered. -/
def helloDownload : List (Act Unit) :=
  [.download () "provider" "g1", .serve () 0 (.ok ()), .finish 0 (.ok helloReply)]

theorem run_helloDownload : ∃ s, (start oneNode id).run oneNode ValueReader.compact.fromStr false
    helloInfo id (helloOffer ++ helloDownload) = some s
      ∧ s.downloads[0]? = some ⟨(), "provider", "g1", some helloReply,
        some (logging true "g1" (.ok ())), some (.ok helloReply),
        some (logging true "g1" (outcome oneNode "provider" "g1" (.ok helloReply)))⟩
      ∧ ∀ snap, outcome oneNode "provider" "g1" (.ok helloReply) = .ok snap →
        (s.requesters ()).syncState.get "g1" = some snap.snapshotTs := by
  obtain ⟨s₁, h₁, -, hnone⟩ := run_helloOffer
  have hgiven : given helloOffer () = [("g1", hello)] := by simp [given, helloOffer]
  have hget : (s₁.providers ()).getSnapshot "g1" = some helloSnapshot := by
    rw [providers_run h₁, hgiven]
    exact getSnapshot_hello
  have hk : oneNode.keys.fromStr "provider" = .ok (id ()) := oneNode.keys.fromStr_toStr ()
  have hserve : (s₁.providers ()).serveSnapshotLogging (helloInfo ()) (.ok ()) "g1"
      = (helloReply, logging true "g1" (.ok ())) := serveSnapshotLogging_of_some hget true (.ok ())
  obtain ⟨s, hs, hd⟩ := exists_downloaded hnone hk hserve ()
  exact ⟨s, Machine.run_append.2 ⟨s₁, h₁, hs⟩, hd⟩

theorem given_hello : given (helloOffer ++ helloDownload) () = [("g1", hello)] := by
  simp [given, helloOffer, helloDownload]

theorem offered_hello : ∃ s d snap, (start oneNode id).run oneNode ValueReader.compact.fromStr false
    helloInfo id (helloOffer ++ helloDownload) = some s ∧ s.downloads[0]? = some d
      ∧ d.result = some (.ok (.ok snap)) ∧ snap.recentChats.length = 1 := by
  obtain ⟨s₁, h₁, hoffer, hnone⟩ := run_helloOffer
  obtain ⟨s, hs, hd, -⟩ := run_helloDownload
  obtain ⟨⟨⟩, d, us₀, snap₀, -, hd', -, -, -, -, -, -, hreply⟩ :=
    offered Function.injective_id h₁ hoffer hs
  rw [hnone, List.length_nil] at hd'
  obtain rfl := Option.some.inj (hd.symm.trans hd')
  obtain ⟨us, snap, hpre, hus, hget, -, -, -, hresult, -⟩ := hreply _ rfl
  have hgiven : given helloOffer () = [("g1", hello)] := by simp [given, helloOffer]
  rw [hgiven] at hpre
  have hus' := hpre.eq_of_length (le_antisymm hpre.length_le (given_hello ▸ hus.length_le))
  subst hus'
  obtain rfl := Option.some.inj (getSnapshot_hello.symm.trans hget)
  have hshort : logs true [short "g1"] = true := by decide
  exact ⟨s, _, _, hs, hd, (hresult _).2 ⟨rfl, size_helloSnapshot, hshort, rfl⟩, by decide⟩

/-! ## The time of the last sync -/

omit [DecidableEq κ] in
theorem recorded_of_update (env : RequesterEnv κ) {r : ι → SnapshotRequester} {g : String}
    {ts : UInt64} (op : SnapshotRequester.Op κ)
    (h : (Function.update r k ((r k).apply env op) i).syncState.get g = some ts) :
    (r i).syncState.get g = some ts ∨ k = i ∧ op.recorded env g = some ts := by
  by_cases hk : k = i
  · subst hk
    rw [Function.update_self, SnapshotRequester.syncState_apply, Option.or_eq_some_iff] at h
    rcases h with hrec | ⟨-, hold⟩
    · exact .inr ⟨rfl, hrec⟩
    · exact .inl hold
  · rw [Function.update_of_ne (Ne.symm hk)] at h
    exact .inl h

theorem begun_of_run (h : (start env key).run env fromStr checks info key as = some s)
    (hj : j < s.downloads.length) :
    ∃ pre i p g as' s₁, as = pre ++ (.download i p g :: as')
      ∧ (start env key).run env fromStr checks info key pre = some s₁
      ∧ s₁.downloads.length = j := by
  refine Machine.run_induction (P := fun as s => j < s.downloads.length →
    ∃ pre i p g as' s₁, as = pre ++ (.download i p g :: as')
      ∧ (start env key).run env fromStr checks info key pre = some s₁ ∧ s₁.downloads.length = j)
    (by simp [start]) ?_ h hj
  intro as s a s' hr ih hst hj
  have hold : j < s.downloads.length → ∃ pre i p g as' s₁,
      as ++ [a] = pre ++ (.download i p g :: as')
        ∧ (start env key).run env fromStr checks info key pre = some s₁
        ∧ s₁.downloads.length = j := by
    intro hj
    obtain ⟨pre, i, p, g, as', s₁, rfl, hs₁⟩ := ih hj
    exact ⟨pre, i, p, g, as' ++ [a], s₁, by simp, hs₁⟩
  cases effect_of_step hst with
  | update | request | answer | silent | markSynced => exact hold hj
  | serve | finish =>
    refine hold ?_
    simpa [setDownload, setRequester] using hj
  | download i p g =>
    rw [List.length_append, List.length_singleton] at hj
    rcases Nat.lt_or_ge j s.downloads.length with hlt | hge
    · exact hold hlt
    · exact ⟨as, i, p, g, [], s, rfl, hr, by omega⟩

/-- A download of the group at the node got the snapshot, and ended as its log does. -/
structure Got (env : RequesterEnv κ) (info : ι → Bool) (i : ι) (g : String) (d : Download ι)
    (snap : GroupSnapshot) : Prop where
  node : d.node = i
  groupId : d.groupId = g
  received : ∃ received, d.received = some received ∧ outcome env d.provider g received = .ok snap
  result : d.result = some (logging (info i) g (.ok snap))

/-- What a download got is a snapshot that the node of the given id had. -/
theorem Got.had {g : String} {snap : GroupSnapshot} (hgot : Got env info i g d snap)
    (h : (start env key).run env fromStr checks info key as = some s) (hd : d ∈ s.downloads) :
    ∃ k us, env.keys.fromStr d.provider = .ok (key k) ∧ us <+: given as k
      ∧ (providerOf env fromStr key k us).getSnapshot g = some snap := by
  obtain ⟨j, hj, rfl⟩ := List.mem_iff_getElem.1 hd
  obtain ⟨pre, i', p, g', as', s₁, rfl, hs₁, rfl⟩ := begun_of_run h hj
  obtain ⟨d, hd', hkept⟩ := kept_of_run hs₁ h
  obtain rfl := (List.getElem_eq_iff hj).2 hd'
  obtain ⟨received, hrec, hout⟩ := hgot.received
  obtain rfl := hkept.groupId.symm.trans hgot.groupId
  rw [hkept.provider] at hout ⊢
  obtain ⟨k, us, hk, -, hus, hget, -⟩ := hkept.of_ok hrec hout
  exact ⟨k, us, hk, hus, hget⟩

theorem requesters_step {g : String} {ts : UInt64}
    (h : s.step env fromStr checks info key a = some s')
    (hts : (s'.requesters i).syncState.get g = some ts) :
    (s.requesters i).syncState.get g = some ts ∨ a = .markSynced i g ts
      ∨ ∃ d ∈ s'.downloads, ∃ snap, Got env info i g d snap ∧ snap.snapshotTs = ts := by
  cases effect_of_step h with
  | update | request | answer | silent | download | serve => exact .inl hts
  | @finish j d received hd hresult harr =>
    have hlen := (List.getElem?_eq_some_iff.1 hd).1
    rcases recorded_of_update env (.download (fun _ _ => received) d.provider d.groupId) hts with
      hold | ⟨rfl, hrec⟩
    · exact .inl hold
    refine .inr (.inr ⟨_, List.mem_of_getElem? (List.getElem?_set_self hlen), ?_⟩)
    simp only [SnapshotRequester.Op.recorded] at hrec
    split_ifs at hrec with hg
    subst hg
    obtain ⟨snap, hsnap, rfl⟩ := Option.map_eq_some_iff.1 hrec
    have hout : outcome env d.provider d.groupId received = .ok snap := by
      unfold outcome
      rcases h : ((SnapshotRequester.new "").downloadSnapshot env (fun _ _ => received) d.provider
        d.groupId).1 with e | snap' <;> rw [h] at hsnap
      · cases hsnap
      · rw [Option.some.inj hsnap]
    refine ⟨snap, ⟨rfl, rfl, ⟨received, rfl, hout⟩, ?_⟩, rfl⟩
    rw [Download.returned, fst_downloadSnapshot _ _ (.new ""), ← hout]
    rfl
  | markSynced k g' ts' =>
    rcases recorded_of_update env (.markSynced g' ts') hts with hold | ⟨rfl, hrec⟩
    · exact .inl hold
    simp only [SnapshotRequester.Op.recorded] at hrec
    split_ifs at hrec with hg
    obtain rfl := Option.some.inj hrec
    exact .inr (.inl (hg ▸ rfl))

/-- A download that returned stays as it is. -/
theorem downloads_step (h : s.step env fromStr checks info key a = some s') (hd : d ∈ s.downloads)
    (hresult : d.result ≠ none) : d ∈ s'.downloads := by
  obtain ⟨j, hj⟩ := List.mem_iff_getElem?.1 hd
  cases effect_of_step h with
  | update | request | answer | silent | markSynced => exact hd
  | download => exact List.mem_append_left _ hd
  | @serve k j' d' _ hd' hreply hnone hkey =>
    have hne : j' ≠ j := by
      rintro rfl
      exact hresult (Option.some.inj (hj.symm.trans hd') ▸ hnone)
    exact List.mem_of_getElem? ((List.getElem?_set_ne hne).trans hj)
  | @finish j' d' received hd' hnone harr =>
    have hne : j' ≠ j := by
      rintro rfl
      exact hresult (Option.some.inj (hj.symm.trans hd') ▸ hnone)
    exact List.mem_of_getElem? ((List.getElem?_set_ne hne).trans hj)

/-- When a node last synced a group is what it was told, or the time of the last event that a
provider had been given for the group when the node downloaded its snapshot. The download returned
what the provider had been given by then, or where its log cannot cut the group's id panicked. -/
theorem synced {g : String} {ts : UInt64}
    (h : (start env key).run env fromStr checks info key as = some s)
    (hts : (s.requesters i).syncState.get g = some ts) :
    .markSynced i g ts ∈ as ∨ ∃ d ∈ s.downloads, d.node = i ∧ d.groupId = g
      ∧ ∃ k us event, env.keys.fromStr d.provider = .ok (key k) ∧ us <+: given as k
        ∧ (SnapshotProvider.eventsOf us g).getLast? = some event ∧ event.ts = ts
        ∧ d.result = some
          (if logs (info i) [short g] then
            .ok (.ok (.ofItems g (SnapshotProvider.itemsOf fromStr us g) ts))
          else .panic (.ok (.ofItems g (SnapshotProvider.itemsOf fromStr us g) ts))) := by
  have hdownload : .markSynced i g ts ∈ as
      ∨ ∃ d ∈ s.downloads, ∃ snap, Got env info i g d snap ∧ snap.snapshotTs = ts := by
    refine Machine.run_induction (P := fun as s => (s.requesters i).syncState.get g = some ts →
      .markSynced i g ts ∈ as
        ∨ ∃ d ∈ s.downloads, ∃ snap, Got env info i g d snap ∧ snap.snapshotTs = ts) ?_ ?_ h hts
    · intro hts
      cases hts
    intro as s a s' _ ih hst hts
    rcases requesters_step hst hts with hold | rfl | hnew
    · rcases ih hold with hmark | ⟨d, hd, snap, hgot, hsnap⟩
      · exact .inl (List.mem_append_left _ hmark)
      · have hstays := downloads_step hst hd (by rw [hgot.result]; simp)
        exact .inr ⟨d, hstays, snap, hgot, hsnap⟩
    · exact .inl (List.mem_append_right _ (List.mem_singleton_self _))
    · exact .inr hnew
  refine hdownload.imp_right ?_
  rintro ⟨d, hd, snap, hgot, rfl⟩
  obtain ⟨k, us, hk, hus, hget⟩ := hgot.had h hd
  rw [providerOf, SnapshotProvider.getSnapshot_updates] at hget
  obtain ⟨event, hlast, rfl⟩ := Option.map_eq_some_iff.1 hget
  refine ⟨d, hd, hgot.node, hgot.groupId, k, us, event, hk, hus, hlast, rfl, ?_⟩
  rw [hgot.result, logging_ok]
  rfl

theorem synced_hello : ∃ s, (start oneNode id).run oneNode ValueReader.compact.fromStr false
    helloInfo id (helloOffer ++ helloDownload) = some s
      ∧ (s.requesters ()).syncState.get "g1" = some 1
      ∧ ∃ d ∈ s.downloads, ∃ event, event.ts = 1 ∧ ∃ us, (eventsOf us "g1").getLast? = some event
        ∧ us <+: [("g1", hello)] := by
  obtain ⟨s, hs, -, hsync⟩ := run_helloDownload
  have hts := hsync helloSnapshot (outcome_eq_ok.2
    ⟨(), _, oneNode.keys.fromStr_toStr (), rfl, readReply_whole oneNode size_helloSnapshot⟩)
  refine ⟨s, hs, hts, ?_⟩
  rcases synced hs hts with hmark | ⟨d, hd, -, -, ⟨⟩, us, event, -, hus, hlast, hev, -⟩
  · simp [helloOffer, helloDownload] at hmark
  · rw [given_hello] at hus
    exact ⟨d, hd, event, hev, us, hlast, hus⟩

end SnapshotSync

end XaeroFlux
