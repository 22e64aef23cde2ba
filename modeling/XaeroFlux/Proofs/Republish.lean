import XaeroFlux.Proofs.Publish
import XaeroFlux.Republish

/-!
# What is fetched of the file

From the moment a publish opens the file, the file holds some of that publish's text
(`standing_of_run`). What is cut short is no text, so an app that reads the file gets the config
opened last, whole and as it was signed, or an error, and never an older one (`fetched`).
-/

namespace XaeroFlux

namespace Republish

variable {κ σ : Type} {sg : Signing κ σ} {sink : FileSink} {s s' : Republish} {as : List (Act sg)}
  {a : Act sg} {signed : SignedRendezvousConfig}

/-- The config being published, and the one whose publish opened the file last. -/
def track (t : Option SignedRendezvousConfig × Option SignedRendezvousConfig) :
    Act sg → Option SignedRendezvousConfig × Option SignedRendezvousConfig
  | .publish xf env relayUrl ts => (some (xf.signedRendezvousConfig env relayUrl ts), t.2)
  | .call (.create (.ok ())) => (t.1, t.1)
  | .call _ => t
  | .stop => (none, t.2)

def tracked (as : List (Act sg)) : Option SignedRendezvousConfig × Option SignedRendezvousConfig :=
  as.foldl track (none, none)

/-- The config whose publish opened the file last. -/
def opened (as : List (Act sg)) : Option SignedRendezvousConfig := (tracked as).2

theorem tracked_concat (as : List (Act sg)) (a : Act sg) :
    tracked (as ++ [a]) = track (tracked as) a := by
  simp [tracked]

/-- The file holds some of the text of the config opened last, and the publish under way has not
opened it or is of that config. -/
structure Standing (t : Option SignedRendezvousConfig × Option SignedRendezvousConfig)
    (s : Republish) : Prop where
  current : t.1 = s.publish.map Prod.fst
  none : t.2 = none → s.file = none
  file : ∀ signed, t.2 = some signed → ∃ bytes, s.file = some bytes ∧ bytes <+: text signed
  publish : ∀ signed phase, s.publish = some (signed, phase) → ∃ calls,
    FileSink.Waiting s.file calls ⟨s.file, phase⟩
      ∨ t.2 = some signed ∧ FileSink.Opened (text signed) calls ⟨s.file, phase⟩

theorem track_create (t : Option SignedRendezvousConfig × Option SignedRendezvousConfig) :
    track t (.call (.create (.ok ())) : Act sg) = (t.1, t.1) := rfl

theorem track_call {c : FileSink.Call} (hc : c ≠ .create (.ok ()))
    (t : Option SignedRendezvousConfig × Option SignedRendezvousConfig) :
    track t (.call c : Act sg) = t := by
  unfold track
  split
  · simp_all
  · simp_all
  · rfl
  · simp_all

theorem standing_of_opened {calls : List FileSink.Call} {st : FileSink.State}
    (h : FileSink.Opened (text signed) calls st) :
    Standing (some signed, some signed) ⟨st.file, some (signed, st.phase)⟩ where
  current := rfl
  none := by simp
  file signed' heq := by
    obtain rfl := Option.some.inj heq
    exact ⟨_, h.file, List.take_prefix _ _⟩
  publish signed' phase heq := by
    obtain ⟨rfl, rfl⟩ := Prod.mk.inj (Option.some.inj heq)
    exact ⟨calls, .inr ⟨rfl, h⟩⟩

theorem Standing.step {t : Option SignedRendezvousConfig × Option SignedRendezvousConfig}
    (h : Standing t s) (hst : s.step sink a = some s') : Standing (track t a) s' := by
  cases a with
  | publish xf env relayUrl ts =>
    obtain rfl := Option.some.inj hst
    have hfile : (sink.start s.file).file = s.file := FileSink.waiting_start.file
    refine ⟨rfl, fun ht => hfile.trans (h.none ht), fun signed ht => ?_, ?_⟩
    · rw [hfile]
      exact h.file signed ht
    · intro signed phase heq
      obtain ⟨rfl, rfl⟩ := Prod.mk.inj (Option.some.inj heq)
      exact ⟨[], .inl (hfile.symm ▸ FileSink.waiting_start)⟩
  | stop =>
    obtain rfl := Option.some.inj hst
    refine ⟨rfl, h.none, h.file, ?_⟩
    intro signed phase heq
    cases heq
  | call c =>
    unfold Republish.step at hst
    rcases hp : s.publish with _ | ⟨signed, phase⟩ <;> rw [hp] at hst
    · cases hst
    obtain ⟨st, hcall, rfl⟩ := Option.map_eq_some_iff.1 hst
    have hcur : t.1 = some signed := h.current.trans (by rw [hp]; rfl)
    obtain ⟨calls, hw | ⟨ht, ho⟩⟩ := h.publish signed phase hp
    · rcases hw.step hcall with hw' | ho'
      · -- not opened yet
        have hc : c ≠ .create (.ok ()) := by
          rintro rfl
          exact hw'.create (List.mem_append_right _ (List.mem_singleton_self _))
        rw [track_call hc]
        refine ⟨hcur, fun ht => hw'.file.trans (h.none ht), fun signed ht => ?_, ?_⟩
        · rw [hw'.file]
          exact h.file signed ht
        · intro signed' phase' heq
          obtain ⟨rfl, rfl⟩ := Prod.mk.inj (Option.some.inj heq)
          rw [← hw'.file] at hw'
          exact ⟨_, .inl hw'⟩
      · -- opened by this call
        obtain rfl : c = .create (.ok ()) := by
          rcases List.mem_append.1 ho'.create with hc | hc
          · exact absurd hc hw.create
          · exact (List.mem_singleton.1 hc).symm
        rw [track_create, hcur]
        exact standing_of_opened ho'
    · have htrack : track t (.call c : Act sg) = (some signed, some signed) := by
        by_cases hc : c = .create (.ok ())
        · rw [hc, track_create, hcur]
        · rw [track_call hc, ← hcur, ← Prod.eta t, hcur, ht]
      rw [htrack]
      exact standing_of_opened (ho.step hcall)

theorem standing_of_run (h : start.run sink as = some s) : Standing (tracked as) s := by
  refine Machine.run_induction (P := fun as s => Standing (tracked as) s) ?_ ?_ h
  · exact ⟨rfl, fun _ => rfl, by simp [tracked], by simp [start]⟩
  · intro as s a s' _ hs hst
    rw [tracked_concat]
    exact hs.step hst

/-! ## What an app fetches -/

/-- Some start published the config. -/
def Published (as : List (Act sg)) (signed : SignedRendezvousConfig) : Prop :=
  ∃ xf env relayUrl ts, .publish xf env relayUrl ts ∈ as
    ∧ signed = xf.signedRendezvousConfig env relayUrl ts

theorem published_of_tracked : ∀ as : List (Act sg),
    (∀ signed ∈ (tracked as).1, Published as signed)
      ∧ ∀ signed ∈ (tracked as).2, Published as signed := by
  intro as
  induction as using List.reverseRecOn with
  | nil => simp [tracked]
  | append_singleton as a ih =>
    have hold : ∀ signed, Published as signed → Published (as ++ [a]) signed := by
      rintro signed ⟨xf, env, relayUrl, ts, hmem, heq⟩
      exact ⟨xf, env, relayUrl, ts, List.mem_append_left _ hmem, heq⟩
    have hfst := fun signed h => hold signed (ih.1 signed h)
    have hsnd := fun signed h => hold signed (ih.2 signed h)
    rw [tracked_concat]
    cases a with
    | publish xf env relayUrl ts =>
      refine ⟨?_, hsnd⟩
      intro signed h
      exact ⟨xf, env, relayUrl, ts, by simp, (Option.some.inj h).symm⟩
    | stop => exact ⟨by simp [track], hsnd⟩
    | call c =>
      by_cases hc : c = .create (.ok ())
      · subst hc
        exact ⟨hfst, hfst⟩
      · rw [track_call hc]
        exact ⟨hfst, hsnd⟩

theorem fromSlice_iff (reader : PublishedReader) {bytes : List UInt8} (h : bytes <+: text signed)
    (signed' : SignedRendezvousConfig) : reader.fromSlice bytes.toByteArray = .ok signed' ↔
      bytes = text signed ∧ signed' = signed := by
  have hread : reader.fromSlice (text signed).toByteArray = .ok signed := by
    rw [text, Json.toByteArray_data]
    exact reader.reads (SignedRendezvousConfig.ofJson_toJson signed)
  constructor
  · intro hok
    have htext := reader.isText hok
    rw [List.data_toByteArray] at htext
    have hwhole : bytes = text signed := by
      by_contra hne
      exact Json.not_isText_of_cut _ h hne htext
    rw [hwhole, hread] at hok
    exact ⟨hwhole, (Except.ok.inj hok).symm⟩
  · rintro ⟨rfl, rfl⟩
    exact hread

/-- Whenever the file is read, after whatever starts, failed writes and stops: there is none until
a publish opens one, and from then on it reads as the config whose publish opened it last, if all of
its text is written, and else as none. That config is the one a node published of itself, and
verifies. A publish that returned `Ok` is the one that opened the file last, and is all written. -/
theorem fetched (reader : PublishedReader)
    (hown : ∀ xf env relayUrl ts, (.publish xf env relayUrl ts : Act sg) ∈ as →
      sg.AcceptsOwn xf.secretKey)
    (h : start.run sink as = some s) :
    (opened as = none → s.file = none)
      ∧ (∀ signed, opened as = some signed → ∃ bytes, s.file = some bytes
        ∧ (∀ signed', reader.fromSlice bytes.toByteArray = .ok signed' ↔
          bytes = text signed ∧ signed' = signed)
        ∧ ∃ xf env relayUrl ts, (.publish xf env relayUrl ts : Act sg) ∈ as
          ∧ signed = xf.signedRendezvousConfig env relayUrl ts
          ∧ signed.signer = xf.nodeId ∧ signed.config.bootstrap.nodeId = xf.nodeId
          ∧ sg.verifyConfig signed = .ok ())
      ∧ ∀ signed, s.publish = some (signed, .returned (.ok ())) →
        opened as = some signed ∧ s.file = some (text signed) := by
  have hs := standing_of_run h
  refine ⟨hs.none, ?_, ?_⟩
  · intro signed hopen
    obtain ⟨bytes, hfile, hcut⟩ := hs.file signed hopen
    obtain ⟨xf, env, relayUrl, ts, hmem, rfl⟩ := (published_of_tracked as).2 signed hopen
    refine ⟨bytes, hfile, fromSlice_iff reader hcut, xf, env, relayUrl, ts, hmem, rfl,
      xf.nodeId_eq.symm, rfl, ?_⟩
    rw [RunningNode.signedRendezvousConfig, Signing.verifyConfig_eq rfl rfl,
      Signing.mapError_eq_ok]
    exact hown xf env relayUrl ts hmem _
  · intro signed hpub
    obtain ⟨calls, hw | ⟨hopen, ho⟩⟩ := hs.publish signed _ hpub
    · exact hw.phase.elim
    · have hall : FileSink.written calls = (text signed).length := ho.phase
      have hfile : s.file = some ((text signed).take (FileSink.written calls)) := ho.file
      rw [hall, List.take_length] at hfile
      exact ⟨hopen, hfile⟩

def devNode : RunningNode Signing.summing where
  discoveryKey := "cyan-dev"
  nodeId := "node"
  secretKey := ()
  addr := ⟨["127.0.0.1:4242"], []⟩
  nodeId_eq := rfl

def devSigned : SignedRendezvousConfig := devNode.signedRendezvousConfig "dev" none 1700000000

/-- A publish that goes through. -/
def devStarts : List (Act Signing.summing) :=
  [.publish devNode "dev" none 1700000000, .call (.create (.ok ())),
    .call (.write (.ok (text devSigned).length))]

theorem text_ne_nil (signed : SignedRendezvousConfig) : text signed ≠ [] := by
  rw [text, Json.toVecPretty_toList]
  exact (Json.derives_writePretty 0 _).ne_nil

theorem run_devStarts : start.run FileSink.wellKnown devStarts
    = some ⟨some (text devSigned), some (devSigned, .returned (.ok ()))⟩ := by
  have hne := text_ne_nil devSigned
  have hlen : (text devSigned).length ≠ 0 := by simpa using hne
  have hopen : Republish.step FileSink.wellKnown ⟨none, some (devSigned, .create)⟩
      (.call (.create (.ok ())) : Act Signing.summing)
        = some ⟨some [], some (devSigned, .writeAll (text devSigned))⟩ := by
    simp [Republish.step, FileSink.step, FileSink.writeAll, hne]
  have hwrite : Republish.step FileSink.wellKnown
      ⟨some [], some (devSigned, .writeAll (text devSigned))⟩
      (.call (.write (.ok (text devSigned).length)) : Act Signing.summing)
        = some ⟨some (text devSigned), some (devSigned, .returned (.ok ()))⟩ := by
    simp [Republish.step, FileSink.step, FileSink.writeAll, hlen]
  refine Machine.run_cons.2 ⟨⟨none, some (devSigned, .create)⟩, ?_, ?_⟩
  · simp only [Republish.step, Republish.start, FileSink.start_wellKnown]
    rfl
  · exact Machine.run_cons.2 ⟨_, hopen, Machine.run_cons.2 ⟨_, hwrite, rfl⟩⟩

theorem fetched_dev :
    PublishedReader.pretty.fromSlice (text devSigned).toByteArray = .ok devSigned
      ∧ Signing.summing.verifyConfig devSigned = .ok () := by
  have hown : ∀ xf env relayUrl ts,
      (.publish xf env relayUrl ts : Act Signing.summing) ∈ devStarts →
        Signing.summing.AcceptsOwn xf.secretKey := fun _ _ _ _ _ _ => if_pos rfl
  obtain ⟨-, hfile, hdone⟩ := fetched .pretty hown run_devStarts
  obtain ⟨hopen, -⟩ := hdone devSigned rfl
  obtain ⟨bytes, hbytes, hread, xf, env, relayUrl, ts, -, -, -, -, hverify⟩ := hfile devSigned hopen
  obtain rfl := Option.some.inj hbytes
  exact ⟨(hread devSigned).2 ⟨rfl, rfl⟩, hverify⟩

end Republish

end XaeroFlux
