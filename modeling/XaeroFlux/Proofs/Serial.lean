import XaeroFlux.Lib.Accum
import XaeroFlux.Proofs.Mesh

/-!
# A node as one store

The two actors, the queue between them and the table behave as one store that takes an event at a
time: the app's in the order submitted and the other nodes' in the order gossip delivered them,
merged in the order of the insert statements (`executed`). Of the statements that stood it keeps
the first of each id the table did not have (`taken`); its own go to gossip and the others' to
`event_rx`, both in that order (`serial`).
-/

namespace XaeroFlux

/-! ## The store -/

/-- An insert statement: of an event of the app or of another node, and whether it stood. -/
structure Insertion where
  own : Bool
  event : Event
  ok : Bool

namespace Insertion

def id (x : Insertion) : String := x.event.id

end Insertion

def ownOf (xs : List Insertion) : List Event := (xs.filter (·.own)).map (·.event)
def othersOf (xs : List Insertion) : List Event := (xs.filter (!·.own)).map (·.event)

/-- The insertions that change the table `t` if they are executed one after the other. -/
def taken (t : EventTable) (xs : List Insertion) : List Insertion :=
  ((xs.filter (·.ok)).firsts Insertion.id).filter fun x => ¬ t.Has x.id

section Store

variable (t : EventTable) (xs : List Insertion) (e : Event) (ok : Bool)

@[simp] theorem ownOf_concat_own : ownOf (xs ++ [⟨true, e, ok⟩]) = ownOf xs ++ [e] := by
  simp [ownOf]

@[simp] theorem ownOf_concat_other : ownOf (xs ++ [⟨false, e, ok⟩]) = ownOf xs := by
  simp [ownOf]

@[simp] theorem othersOf_concat_own : othersOf (xs ++ [⟨true, e, ok⟩]) = othersOf xs := by
  simp [othersOf]

@[simp] theorem othersOf_concat_other :
    othersOf (xs ++ [⟨false, e, ok⟩]) = othersOf xs ++ [e] := by
  simp [othersOf]

variable {t xs} {x : Insertion}

theorem taken_concat_of_failed (hx : x.ok = false) : taken t (xs ++ [x]) = taken t xs := by
  simp [taken, hx]

theorem taken_concat (hx : x.ok = true) :
    taken t (xs ++ [x]) = taken t xs
      ++ if t.Has x.id ∨ x.id ∈ (xs.filter (·.ok)).map Insertion.id then [] else [x] := by
  have hfilter : (xs ++ [x]).filter (·.ok) = xs.filter (·.ok) ++ [x] := by simp [hx]
  rw [taken, hfilter, List.firsts_concat]
  split_ifs with hany ht ht
  · simp [taken]
  · exact absurd (.inr (List.any_firsts.1 hany)) ht
  · rcases ht with ht | ht
    · simp [taken, ht]
    · exact absurd (List.any_firsts.2 ht) hany
  · simp [taken, not_or.1 ht]

theorem taken_sublist : (taken t xs).Sublist xs :=
  List.filter_sublist.trans (List.firsts_sublist.trans List.filter_sublist)

/-- The keys of a table that has taken the insertions. -/
theorem has_of_taken {s : EventTable} (hs : s.rows = t.rows ++ (taken t xs).map (·.event))
    {k : String} : s.Has k ↔ t.Has k ∨ k ∈ (xs.filter (·.ok)).map Insertion.id := by
  have hk : s.Has k ↔ t.Has k ∨ k ∈ (taken t xs).map Insertion.id := by
    rw [Keyed.Has, hs, List.map_append, List.mem_append, List.map_map]
    rfl
  have hfirsts : k ∈ (xs.filter (·.ok)).map Insertion.id
      ↔ k ∈ ((xs.filter (·.ok)).firsts Insertion.id).map Insertion.id := List.mem_map_firsts.symm
  rw [hk, hfirsts]
  constructor
  · rintro (h | h)
    · exact .inl h
    · exact .inr ((List.filter_sublist.map _).subset h)
  · rintro (h | h)
    · exact .inl h
    · obtain ⟨y, hy, rfl⟩ := List.mem_map.1 h
      by_cases ht : t.Has y.id
      · exact .inl ht
      · exact .inr (List.mem_map_of_mem (List.mem_filter.2 ⟨hy, decide_eq_true ht⟩))

theorem taken_concat_of_has {s : EventTable}
    (hs : s.rows = t.rows ++ (taken t xs).map (·.event)) (hx : s.Has x.id) :
    taken t (xs ++ [x]) = taken t xs := by
  rcases hok : x.ok
  · exact taken_concat_of_failed hok
  · rw [taken_concat hok, if_pos ((has_of_taken hs).1 hx), List.append_nil]

theorem taken_concat_of_not_has {s : EventTable}
    (hs : s.rows = t.rows ++ (taken t xs).map (·.event)) (hok : x.ok = true)
    (hx : ¬ s.Has x.id) : taken t (xs ++ [x]) = taken t xs ++ [x] := by
  rw [taken_concat hok, if_neg ((has_of_taken hs).not.1 hx)]

end Store

/-! ## What the actors do with it -/

/-- The insert statement an action executes. -/
def Act.executes : Act → Option Insertion
  | .insertApp event rows => some ⟨true, event, rows.isSome⟩
  | .insertNetwork event rows => some ⟨false, event, rows.isSome⟩
  | _ => none

/-- The event an action gives to gossip, which takes it or not. -/
def Act.offers : Act → Option Event
  | .broadcast event _ => some event
  | _ => none

def executed (as : List Act) : List Insertion := as.filterMap Act.executes
def offered (as : List Act) : List Event := as.filterMap Act.offers

def StorageActor.intake : StorageActor → List Event
  | .storing event => [event]
  | _ => []

def NetworkActor.intake : NetworkActor → List Event
  | .storing event => [event]
  | _ => []

variable (env : Env)

/-- The events of other nodes among the messages. -/
def foreign (contents : List ByteArray) : List Event :=
  (contents.filterMap env.reader.fromSlice).filter fun e => e.source ≠ env.nodeId

@[simp] theorem executed_concat (as : List Act) (a : Act) :
    executed (as ++ [a]) = executed as ++ a.executes.toList :=
  filterMap_concat _ as a

@[simp] theorem offered_concat (as : List Act) (a : Act) :
    offered (as ++ [a]) = offered as ++ a.offers.toList :=
  filterMap_concat _ as a

theorem foreign_append (cs cs' : List ByteArray) :
    foreign env (cs ++ cs') = foreign env cs ++ foreign env cs' := by
  simp [foreign]

/-- What a process over the table `t` has done, told of a store that took the insertions one after
the other. -/
structure Serial (t : EventTable) (as : List Act) (s : Node) : Prop where
  app : ownOf (executed as) ++ (s.storage.intake ++ s.appRx) = submitted as
  gossip : othersOf (executed as) ++ s.network.intake = foreign env (received as)
  rows : s.events.rows = t.rows ++ (taken t (executed as)).map (·.event)
  out : offered as ++ (s.network.outHand ++ (s.outboundRx ++ s.storage.hand))
    = ownOf (taken t (executed as))
  inn : forwarded as ++ s.network.inHand = othersOf (taken t (executed as))

section Hands

variable (e : Event)

@[simp] theorem StorageActor.intake_waiting : StorageActor.waiting.intake = [] := rfl
@[simp] theorem StorageActor.intake_storing : (StorageActor.storing e).intake = [e] := rfl
@[simp] theorem StorageActor.intake_sending : (StorageActor.sending e).intake = [] := rfl

@[simp] theorem NetworkActor.intake_waiting : NetworkActor.waiting.intake = [] := rfl
@[simp] theorem NetworkActor.intake_storing : (NetworkActor.storing e).intake = [e] := rfl
@[simp] theorem NetworkActor.intake_forwarding : (NetworkActor.forwarding e).intake = [] := rfl
@[simp] theorem NetworkActor.intake_broadcasting :
    (NetworkActor.broadcasting e).intake = [] := rfl

end Hands

theorem Serial.start (t : EventTable) : Serial env t [] (Node.start t) := by
  constructor <;> simp [Node.start, executed, offered, submitted, received, forwarded, foreign,
    ownOf, othersOf, taken, List.firsts]

variable {env}

theorem foreign_read {content : ByteArray} {e : Event}
    (h : env.reader.fromSlice content = some e) (hne : e.source ≠ env.nodeId) :
    foreign env [content] = [e] := by
  simp [foreign, h, hne]

theorem foreign_own {content : ByteArray}
    (h : ∀ e, env.reader.fromSlice content = some e → e.source = env.nodeId) :
    foreign env [content] = [] := by
  rcases he : env.reader.fromSlice content with _ | e
  · simp [foreign, he]
  · simp [foreign, he, h e he]

attribute [local simp] Act.executes Act.offers Act.submits Act.receives Act.forwards in
theorem Serial.step {t : EventTable} {as : List Act} {s s' : Node} {a : Act}
    (hf : Serial env t as s) (ha : a ≠ .restart) (h : Node.step env s a = some s') :
    Serial env t (as ++ [a]) s' := by
  obtain ⟨app, gossip, rows, out, inn⟩ := hf
  cases a with
  | submit e =>
    obtain rfl := Node.step_submit h
    refine ⟨?_, by simpa, by simpa, by simpa, by simpa⟩
    simp [← app]
  | recvApp =>
    obtain ⟨e, rest, hs, hq, rfl⟩ := Node.step_recvApp h
    simp only [hs, hq, StorageActor.intake_waiting, StorageActor.hand_waiting, List.nil_append,
      List.append_nil] at app out
    exact ⟨by simpa, by simpa, by simpa, by simpa, by simpa⟩
  | insertApp e r =>
    obtain ⟨hs, ⟨hr, rfl⟩ | ⟨rfl, hk, hr, hs'⟩⟩ := Node.step_insertApp h
    · -- a statement that failed or found the id stored
      have htaken : taken t (executed as ++ [⟨true, e, r.isSome⟩]) = taken t (executed as) := by
        rcases hr with rfl | ⟨rfl, hk⟩
        · exact taken_concat_of_failed rfl
        · exact taken_concat_of_has rows hk
      simp only [hs, StorageActor.hand_storing, StorageActor.intake_storing, List.append_nil]
        at app out
      exact ⟨by simpa, by simpa, by simpa [htaken], by simpa [htaken], by simpa [htaken]⟩
    · have htaken : taken t (executed as ++ [⟨true, e, true⟩])
          = taken t (executed as) ++ [⟨true, e, true⟩] := taken_concat_of_not_has rows rfl hk
      simp only [hs, StorageActor.hand_storing, StorageActor.intake_storing, List.append_nil]
        at app out
      rw [hs']
      refine ⟨by simpa, by simpa, by simp [htaken, hr, rows], ?_, by simpa [htaken]⟩
      simp [htaken, ← out]
  | sendNetwork e =>
    obtain ⟨hs, rfl⟩ := Node.step_sendNetwork h
    simp only [hs, StorageActor.hand_sending, StorageActor.intake_sending] at app out
    exact ⟨by simpa, by simpa, by simpa, by simpa, by simpa⟩
  | recvGossip content =>
    obtain ⟨hs, ⟨e, he, hne, rfl⟩ | ⟨hown, rfl⟩⟩ := Node.step_recvGossip h
    · rw [hs] at gossip out inn
      refine ⟨by simpa, ?_, by simpa, by simpa using out, by simpa using inn⟩
      simp [foreign_append, foreign_read he hne, ← gossip]
    · refine ⟨by simpa, ?_, by simpa, by simpa, by simpa⟩
      simp [foreign_append, foreign_own hown, ← gossip]
  | otherGossip =>
    obtain rfl := Node.step_otherGossip h
    exact ⟨by simpa, by simpa, by simpa, by simpa, by simpa⟩
  | insertNetwork e r =>
    obtain ⟨hs, ⟨hr, rfl⟩ | ⟨rfl, hk, hr, hs'⟩⟩ := Node.step_insertNetwork h
    · have htaken : taken t (executed as ++ [⟨false, e, r.isSome⟩]) = taken t (executed as) := by
        rcases hr with rfl | ⟨rfl, hk⟩
        · exact taken_concat_of_failed rfl
        · exact taken_concat_of_has rows hk
      rw [hs] at gossip out inn
      refine ⟨by simpa, by simpa using gossip, by simpa [htaken], ?_, ?_⟩
      · simpa [htaken] using out
      · simpa [htaken] using inn
    · have htaken : taken t (executed as ++ [⟨false, e, true⟩])
          = taken t (executed as) ++ [⟨false, e, true⟩] := taken_concat_of_not_has rows rfl hk
      rw [hs] at gossip out inn
      rw [hs']
      refine ⟨by simpa, by simpa using gossip, by simp [htaken, hr, rows], ?_, ?_⟩
      · simpa [htaken] using out
      · simpa [htaken] using inn
  | sendInbound e =>
    obtain ⟨hs, rfl⟩ := Node.step_sendInbound h
    rw [hs] at gossip out inn
    exact ⟨by simpa, by simpa using gossip, by simpa, by simpa using out, by simpa using inn⟩
  | recvOutbound =>
    obtain ⟨e, rest, hs, hq, rfl⟩ := Node.step_recvOutbound h
    rw [hs] at gossip out inn
    rw [hq] at out
    exact ⟨by simpa, by simpa using gossip, by simpa, by simpa using out, by simpa using inn⟩
  | broadcast e ok =>
    obtain ⟨hs, rfl⟩ := Node.step_broadcast h
    rw [hs] at gossip out inn
    exact ⟨by simpa, by simpa using gossip, by simpa, by simpa using out, by simpa using inn⟩
  | subscribeGroup gid =>
    obtain rfl := Node.step_subscribeGroup h
    exact ⟨by simpa, by simpa, by simpa, by simpa, by simpa⟩
  | recvGroup gid content now =>
    obtain ⟨-, groups, rfl⟩ := Node.step_recvGroup h
    exact ⟨by simpa, by simpa, by simpa, by simpa, by simpa⟩
  | restart => exact absurd rfl ha

variable (env)

theorem serial_of_run {t : EventTable} {as : List Act} {s : Node}
    (h : Node.run env (Node.start t) as = some s) (hlife : .restart ∉ as) :
    Serial env t as s := by
  refine Machine.run_induction (P := fun as s => .restart ∉ as → Serial env t as s)
    (fun _ => Serial.start env t) ?_ h hlife
  intro as s a s' _ hf hs hlife
  rw [List.mem_append, not_or, List.mem_singleton] at hlife
  exact (hf hlife.1).step (Ne.symm hlife.2) hs

/-- For every run of one process over any table, whatever the app submits, gossip delivers and the
database or gossip fails at: the insert statements are the app's events and the other nodes', each
in the order it came, merged; the rows are those of a store that executes them one after the
other; its own new rows go to gossip and the others' to `event_rx`, each stream in that order, and
only what an actor or a queue still holds is missing of either. So neither stream changes the order
in which its events came. -/
theorem serial {t : EventTable} {as : List Act} {s : Node}
    (h : Node.run env (Node.start t) as = some s) (hlife : .restart ∉ as) :
    Serial env t as s ∧ (offered as).Sublist (submitted as)
      ∧ (forwarded as).Sublist (foreign env (received as)) := by
  have hs := serial_of_run env h hlife
  refine ⟨hs, ?_, ?_⟩
  · have htaken : (ownOf (taken t (executed as))).Sublist (ownOf (executed as)) :=
      (taken_sublist.filter _).map _
    exact ((hs.out ▸ List.sublist_append_left _ _).trans htaken).trans
      (hs.app ▸ List.sublist_append_left _ _)
  · have htaken : (othersOf (taken t (executed as))).Sublist (othersOf (executed as)) :=
      (taken_sublist.filter _).map _
    exact ((hs.inn ▸ List.sublist_append_left _ _).trans htaken).trans
      (hs.gossip ▸ List.sublist_append_left _ _)

/-- A peer's event overtakes the app's two at the table, and takes the id of the second. -/
def overtaken : List Act :=
  let first : Event := ⟨"e1", "draw", Env.hi.nodeId, 1⟩
  let second : Event := ⟨"e2", "erase", Env.hi.nodeId, 2⟩
  let theirs : Event := ⟨"e2", "erase", "peer", 3⟩
  [.submit first, .submit second, .recvApp, .recvGossip theirs.toVec,
    .insertNetwork theirs (some 1), .insertApp first (some 1), .sendNetwork first, .recvApp,
    .sendInbound theirs, .insertApp second (some 0), .recvOutbound, .broadcast first false]

theorem serial_overtaken : ∃ s, Node.run Env.hi (Node.start .empty) overtaken = some s
    ∧ Serial Env.hi .empty overtaken s
    ∧ (taken .empty (executed overtaken)).map Insertion.id = ["e2", "e1"] := by
  obtain ⟨s, hs⟩ : ∃ s, Node.run Env.hi (Node.start .empty) overtaken = some s :=
    Option.isSome_iff_exists.1 (by decide +kernel)
  exact ⟨s, hs, (serial Env.hi hs (by simp [overtaken])).1, by decide⟩

end XaeroFlux
