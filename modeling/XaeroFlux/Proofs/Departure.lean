import XaeroFlux.Proofs.Lifetime

/-!
# Departures

A departure takes the key as `to_string` spells it off the rosters, and nothing else. So a key
leaves them, and is on none of them twice, as long as it is announced in that spelling
(`rosters_clear`), and another spelling of it stays (`respelled_not_clear`).
-/

namespace XaeroFlux

namespace Discovery

variable {κ : Type} {env : DiscoveryEnv κ} {s s' : Discovery κ} {acts : List (LifeAct κ)}
  {act : LifeAct κ} {k : κ}

/-- A key that has departed did so just now, or had departed and is not announced now. -/
theorem departed_concat (h : Departed env (acts ++ [act]) k) :
    (∃ fails now, act = .turn (.neighborDown k fails now)
        ∧ logs env.info [Utf8.sliceTo (env.keys.toStr k) 16] = true) ∨
      Departed env acts k ∧ ∀ p g, AnnouncedBy env act p g → ¬ Spells env k p := by
  obtain ⟨pre, fails, now, post, hsplit, hlog, hpost⟩ := h
  rcases List.eq_nil_or_concat' post with rfl | ⟨post, last, rfl⟩
  · obtain ⟨-, h⟩ := List.append_inj' hsplit rfl
    exact .inl ⟨fails, now, List.singleton_inj.1 h, hlog⟩
  · rw [← List.cons_append, ← List.append_assoc] at hsplit
    obtain ⟨rfl, h⟩ := List.append_inj' hsplit rfl
    obtain rfl := List.singleton_inj.1 h
    rw [List.forall_mem_append, List.forall_mem_singleton] at hpost
    exact .inr ⟨⟨pre, fails, now, post, rfl, hlog, hpost.1⟩, hpost.2⟩

theorem neighborDown_only {Ok : String → String → Prop} {fails : ℕ → Bool} {now : Int64}
    (hs : s.tracker.Only Ok) (hlog : logs env.info [Utf8.sliceTo (env.keys.toStr k) 16] = true)
    (h0 : fails 0 = false) (h1 : fails 1 = false)
    (h : s.step env (.neighborDown k fails now) = some s') :
    s'.tracker.Only fun g p => Ok g p ∧ p ≠ env.keys.toStr k := by
  rcases step_cases h with ⟨-, hb⟩ | ⟨_, _, _, _, hturn, -⟩
  · have hok : s.log env [Utf8.sliceTo (env.keys.toStr k) 16] = .ok s := by
      unfold log
      rw [if_pos hlog]
    have hoff := hs.markOffline_ne h0 h1 now (env.keys.toStr k)
    rw [hb.tracker, gather]
    dsimp only
    rw [hok]
    rcases hm : s.tracker.markOffline fails now (env.keys.toStr k) with ⟨_ | affected, tracker⟩ <;>
      rw [hm] at hoff <;> simpa [Exec.map, hm] using hoff
  · simp at hturn

/-- The online rows and the rosters hold keys spelled out, and none that departed. -/
structure Settled (env : DiscoveryEnv κ) (acts : List (LifeAct κ)) (s : Discovery κ) : Prop where
  spelled : s.tracker.Only fun _ p => SpelledOut env p
  gone : ∀ k, Departed env acts k → s.tracker.Only fun _ p => ¬ Spells env k p

theorem Settled.step (hs : Settled env acts s) (hact : KeysSpelledOut env act)
    (h : lifeStep env s act = some s') : Settled env (acts ++ [act]) s' := by
  refine ⟨lifeStep_only hs.spelled hact.announced h, fun k hk => ?_⟩
  rcases departed_concat hk with ⟨fails, now, rfl, hlog⟩ | ⟨hk, hann⟩
  · obtain ⟨h0, h1⟩ := hact.taken k fails now rfl
    refine (neighborDown_only hs.spelled hlog h0 h1 h).mono fun g p hp hk => ?_
    obtain ⟨hspelled, hne⟩ := hp
    exact hne (hspelled k hk)
  · exact lifeStep_only (hs.gone k hk) hann h

theorem Settled.rostersClear (hs : Settled env acts s) : RostersClear env acts s := by
  refine ⟨fun k hk g p hp => (hs.gone k hk).cache g p hp, fun g p hp q hq k hkp hkq => ?_⟩
  rw [hs.spelled.cache g p hp k hkp, hs.spelled.cache g q hq k hkq]

theorem settled_boot {rows : PeerTable}
    (hrows : ∀ r ∈ rows, r.isOnline = true → SpelledOut env r.peerId) :
    Settled env [] (boot rows) := by
  refine ⟨boot_only hrows, fun k hk => ?_⟩
  obtain ⟨pre, fails, now, post, hsplit, -⟩ := hk
  simp at hsplit

/-- While keys are spelled out, in the rows at the start and in what is announced, no departed key
is on a roster, nor any key twice. -/
theorem rosters_clear {rows : PeerTable}
    (hrows : ∀ r ∈ rows, r.isOnline = true → SpelledOut env r.peerId)
    (hacts : Machine.EachStep (lifeStep env) (boot rows) acts fun _ _ => KeysSpelledOut env) :
    Machine.Throughout (lifeStep env) (boot rows) acts (RostersClear env) := by
  have hsettled : Machine.Throughout (lifeStep env) (boot rows) acts (Settled env) :=
    Machine.throughout_of_eachStep (settled_boot hrows)
      (fun _ _ _ _ _ hs h hact => hs.step hact h) hacts
  intro pre suf s hsplit hrun
  exact (hsettled pre suf s hsplit hrun).rostersClear

/-! ## A key under two spellings -/

def keyHex : String := "d75a980182b10ab7d54bfed3c964073a0ee172f3daa62325af021a68f707511a"

def keyBase32 : String := "25njqamcweflpvkl73j4szahhihoc4xt3ktcgjnpaingr5yhkena"

def respelledEnv : DiscoveryEnv Unit := { hiEnv with keys := .spelled keyHex keyBase32 }

def joinAs (id : String) : Json :=
  .obj [("msg_type", .str "groups_exchange"), ("node_id", .str id),
    ("local_groups", .arr [.str "rust"])]

/-- The key is announced under one of its spellings, and goes. -/
def departsAs (id : String) : List (LifeAct Unit) :=
  [.turn (.received (joinAs id).toVec fine), .turn (.neighborDown () PeerTracker.noFault 1)]

theorem respelled_toVec (j : Json) : respelledEnv.json j.toVec = some j := Json.fromSlice_toVec j

theorem listing_joinAs (id : String) :
    listing respelledEnv (joinAs id).toVec = some (id, [.str "rust"]) := by
  rw [listing, respelled_toVec]
  rfl

def joined (id : String) : Discovery Unit :=
  settle ((boot .empty).groupsExchange respelledEnv fine (joinAs id))

theorem run_departsAs (id : String) (ha : (joined id).alive = true) :
    lifeRun respelledEnv (boot .empty) (departsAs id) =
      some (settle ((joined id).neighborDown respelledEnv PeerTracker.noFault 1 ())) := by
  have hreceived : (boot .empty).step respelledEnv (.received (joinAs id).toVec fine) =
      some (joined id) := by
    rw [step, handleReceived, respelled_toVec]
    rfl
  have hdown : (joined id).step respelledEnv (.neighborDown () PeerTracker.noFault 1) =
      some (settle ((joined id).neighborDown respelledEnv PeerTracker.noFault 1 ())) := by
    rw [step, if_pos ha]
  exact Machine.run_cons.2 ⟨_, hreceived, Machine.run_cons.2 ⟨_, hdown, rfl⟩⟩

theorem respelled_not_clear :
    ¬ Machine.Throughout (lifeStep respelledEnv) (boot .empty) (departsAs keyBase32)
      (RostersClear respelledEnv) := by
  intro h
  have hrun := run_departsAs keyBase32 (by decide +kernel)
  have hclear := h (departsAs keyBase32) [] _ (by simp) hrun
  have hdeparted : Departed respelledEnv (departsAs keyBase32) () :=
    ⟨[.turn (.received (joinAs keyBase32).toVec fine)], PeerTracker.noFault, 1, [], rfl,
      by decide, by simp⟩
  exact hclear.departed () hdeparted "rust" keyBase32 (by decide +kernel) rfl

theorem rosters_clear_departs :
    Machine.Throughout (lifeStep respelledEnv) (boot .empty) (departsAs keyHex)
      (RostersClear respelledEnv) := by
  have hjoin : KeysSpelledOut respelledEnv (.turn (.received (joinAs keyHex).toVec fine)) := by
    refine ⟨fun p g h k _ => ?_, fun k fails now hact => by simp at hact⟩
    obtain ⟨content, a, hact, groups, hl, -⟩ := h
    obtain ⟨rfl, rfl⟩ := Turn.received.inj (LifeAct.turn.inj hact)
    rw [listing_joinAs] at hl
    exact (Prod.mk.inj (Option.some.inj hl)).1.symm
  have hdown : KeysSpelledOut respelledEnv (.turn (.neighborDown () PeerTracker.noFault 1)) := by
    refine ⟨fun p g h => ?_, fun k fails now hact => ?_⟩
    · obtain ⟨content, a, hact, -⟩ := h
      simp at hact
    · obtain ⟨-, rfl, -⟩ := Turn.neighborDown.inj (LifeAct.turn.inj hact)
      exact ⟨rfl, rfl⟩
  have hacts : Machine.EachStep (lifeStep respelledEnv) (boot .empty) (departsAs keyHex)
      fun _ _ => KeysSpelledOut respelledEnv := by
    refine Machine.eachStep_cons.2 ⟨hjoin, fun _ _ => ?_⟩
    exact Machine.eachStep_cons.2 ⟨hdown, fun _ _ => Machine.eachStep_nil⟩
  exact rosters_clear (by simp) hacts

end Discovery

end XaeroFlux
