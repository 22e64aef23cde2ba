import XaeroFlux.Proofs.Identity
import XaeroFlux.Proofs.Publish
import XaeroFlux.Startup

/-!
# One identity for a database path

A start writes a key only where it finds no file, and serves only once the file holds its key, so
what the file holds after the first start that wrote to it, it holds for good (`step_sound`): the
key of every node there ever is (`one_identity`), or, if that start was cut short, less than a key,
and no start gets past it (`torn_for_good`).
-/

namespace XaeroFlux

namespace Startup

variable {dbPath : String} {s s' m : Startup} {a : Act} {as : List Act} {key : SecretKey}

/-! ## Keys and their bytes -/

theorem toByteArray_bytes (key : SecretKey) : (bytes key).toByteArray = key.1 :=
  Json.toByteArray_data key.1

theorem length_bytes (key : SecretKey) : (bytes key).length = 32 := by
  rw [bytes, Array.length_toList]
  exact key.2

theorem bytes_inj {key key' : SecretKey} (h : bytes key = bytes key') : key = key' := by
  rw [Subtype.ext_iff, ← toByteArray_bytes key, h, toByteArray_bytes]

theorem fromBytes_bytes (key : SecretKey) :
    SecretKey.fromBytes (bytes key).toByteArray = .ok key := by
  rw [toByteArray_bytes, SecretKey.fromBytes, dif_pos key.2]

theorem bytes_of_fromBytes {content : List UInt8}
    (h : SecretKey.fromBytes content.toByteArray = .ok key) : content = bytes key := by
  have hc := SecretKey.fromBytes_eq_ok h
  rw [bytes, ← hc, List.data_toByteArray]

theorem fromBytes_of_length {content : List UInt8} (h : content.length ≠ 32) :
    SecretKey.fromBytes content.toByteArray = .error "Invalid key file" := by
  rw [SecretKey.fromBytes, dif_neg]
  rwa [List.size_toByteArray]

/-! ## What the file holds -/

/-- What the file holds where a process is. -/
def Phase.Holds (file : Option (List UInt8)) : Phase → Prop
  | .exists | .read | .returned (.error _) => True
  | .fill | .createDirAll _ => file = none
  | .write key phase => ∃ calls, FileSink.Waiting none calls ⟨file, phase⟩
    ∨ FileSink.Opened (bytes key) calls ⟨file, phase⟩
  | .rest key | .returned (.ok key) => file = some (bytes key)

def Sound (s : Startup) : Prop := ∀ phase, s.process = some phase → phase.Holds s.file

def Writing (s : Startup) : Prop := ∃ key phase, s.process = some (.write key phase)

/-- The file is missed only if there is none. -/
def Act.Finds (s : Startup) (a : Act) : Prop := a = .exists false → s.file = none

/-- The file holds this, and nobody is writing it. -/
structure Settled (content : List UInt8) (s : Startup) : Prop where
  file : s.file = some content
  not_writing : ¬ s.Writing

theorem settled_of_process {phase : Phase} {content : List UInt8} (hf : s.file = some content)
    (hp : s.process = some phase) (hw : ∀ key p, phase ≠ .write key p) : Settled content s := by
  refine ⟨hf, ?_⟩
  rintro ⟨key, p, h⟩
  rw [hp] at h
  exact hw key p (Option.some.inj h)

theorem sound_settle {error : String} {st : FileSink.State} {calls : List FileSink.Call}
    (h : FileSink.Waiting none calls st ∨ FileSink.Opened (bytes key) calls st) :
    Sound (settle key error st) := by
  obtain ⟨file, phase⟩ := st
  intro p hp
  obtain rfl := Option.some.inj hp
  show Phase.Holds file _
  split
  · -- `std::fs::write` returned `Ok`
    rename_i hphase
    rcases h with hw | ho
    · have := hw.phase
      rw [hphase] at this
      exact this.elim
    · have hall := ho.phase
      rw [hphase] at hall
      have hlen : FileSink.written calls = (bytes key).length := hall
      have hfile := ho.file
      rwa [hlen, List.take_length] at hfile
  · trivial
  · exact ⟨calls, h⟩

/-- A call that is not of the write. -/
theorem sound_of_process {phase : Phase} (hp : phase.Holds s.file)
    (hw : s.file = none ∨ ∀ key p, phase ≠ .write key p) :
    Sound { s with process := some phase }
      ∧ ∀ content, Settled content s → Settled content { s with process := some phase } := by
  refine ⟨?_, fun content hc => ?_⟩
  · intro p heq
    obtain rfl := Option.some.inj heq
    exact hp
  · rcases hw with hnone | hw
    · rw [hc.file] at hnone
      simp at hnone
    · exact settled_of_process hc.file rfl hw

/-- Every step leaves the file sound, and what is settled as it is. -/
theorem step_sound (hs : s.Sound) (ha : a.Finds s) (h : s.step dbPath a = some s') :
    s'.Sound ∧ ∀ content, Settled content s → Settled content s' := by
  unfold step at h
  split at h
  · obtain rfl := Option.some.inj h
    exact sound_of_process trivial (.inr nofun)
  · obtain rfl := Option.some.inj h
    refine ⟨nofun, fun content hc => ⟨hc.file, ?_⟩⟩
    rintro ⟨key, p, heq⟩
    simp at heq
  · rename_i found hp
    split_ifs at h with hfound hf
    · obtain rfl := Option.some.inj h
      exact sound_of_process trivial (.inr nofun)
    · obtain rfl := Option.some.inj h
      obtain rfl := Bool.eq_false_of_not_eq_true hf
      exact sound_of_process (ha rfl) (.inr nofun)
  · obtain ⟨content, hfile, rfl⟩ := Option.map_eq_some_iff.1 h
    split
    · rename_i key hkey
      refine sound_of_process ?_ (.inr nofun)
      rw [hfile, bytes_of_fromBytes hkey]
      rfl
    · exact sound_of_process trivial (.inr nofun)
  · obtain rfl := Option.some.inj h
    exact sound_of_process trivial (.inr nofun)
  · rename_i key hp
    have hnone : s.file = none := hs _ hp
    split at h
    · obtain rfl := Option.some.inj h
      exact sound_of_process hnone (.inl hnone)
    · obtain rfl := Option.some.inj h
      exact sound_of_process ⟨[], .inl ⟨by simp, hnone, rfl, trivial⟩⟩ (.inl hnone)
  · obtain rfl := Option.some.inj h
    exact sound_of_process trivial (.inr nofun)
  · rename_i key hp
    have hnone : s.file = none := hs _ hp
    obtain rfl := Option.some.inj h
    exact sound_of_process ⟨[], .inl ⟨by simp, hnone, rfl, trivial⟩⟩ (.inl hnone)
  · obtain rfl := Option.some.inj h
    exact sound_of_process trivial (.inr nofun)
  · -- a call of the write
    rename_i key phase c error hp
    obtain ⟨st, hcall, rfl⟩ := Option.map_eq_some_iff.1 h
    refine ⟨?_, fun content hc => absurd ⟨key, phase, hp⟩ hc.not_writing⟩
    obtain ⟨calls, hw | ho⟩ := hs _ hp
    · exact sound_settle (hw.step hcall)
    · exact sound_settle (.inr (ho.step hcall))
  · rename_i key result hp
    obtain rfl := Option.some.inj h
    rcases result with e | u
    · exact sound_of_process trivial (.inr nofun)
    · have hfile : s.file = some (bytes key) := hs _ hp
      exact sound_of_process hfile (.inr nofun)
  · simp at h

/-! ## Starts that fail nowhere -/

theorem step_start : s.step dbPath .start = some ⟨s.file, some .exists⟩ := by
  obtain ⟨file, _ | phase⟩ := s
  · rfl
  · cases phase <;> rfl

theorem step_exists {file : Option (List UInt8)} {found : Bool} (h : found → file.isSome) :
    step dbPath ⟨file, some .exists⟩ (.exists found)
      = some ⟨file, some (if found then .read else .fill)⟩ :=
  if_pos h

/-- What a start does that finds a file. -/
theorem run_found (content : List UInt8) :
    run dbPath ⟨some content, some .exists⟩ [.exists true, .read (.ok ())] =
      match SecretKey.fromBytes content.toByteArray with
      | .ok key => some ⟨some content, some (.rest key)⟩
      | .error e => some ⟨some content, some (.returned (.error e))⟩ := by
  have hread : step dbPath ⟨some content, some .read⟩ (.read (.ok ())) = some
      (match SecretKey.fromBytes content.toByteArray with
      | .ok key => ⟨some content, some (.rest key)⟩
      | .error e => ⟨some content, some (.returned (.error e))⟩) := rfl
  have hexists : step dbPath ⟨some content, some .exists⟩ (.exists true)
      = some ⟨some content, some .read⟩ := step_exists (by simp)
  simp only [run, Machine.run, hexists, hread, Option.bind_some]
  rcases SecretKey.fromBytes content.toByteArray with e | key <;> rfl

theorem run_found_key (key : SecretKey) :
    run dbPath ⟨some (bytes key), some .exists⟩ [.exists true, .read (.ok ())]
      = some ⟨some (bytes key), some (.rest key)⟩ := by
  rw [run_found, fromBytes_bytes]

theorem run_found_torn {content : List UInt8} (h : content.length ≠ 32) :
    run dbPath ⟨some content, some .exists⟩ [.exists true, .read (.ok ())]
      = some ⟨some content, some (.returned (.error "Invalid key file"))⟩ := by
  rw [run_found, fromBytes_of_length h]

/-- The calls of a write that goes through at once. -/
def writes (key : SecretKey) : List Act :=
  [.call (.create (.ok ())) "", .call (.write (.ok (bytes key).length)) ""]

theorem run_writes (file : Option (List UInt8)) (key : SecretKey) :
    run dbPath ⟨file, some (.write key .create)⟩ (writes key)
      = some ⟨some (bytes key), some (.rest key)⟩ := by
  have hlen : (bytes key).length ≠ 0 := by
    rw [length_bytes]
    decide
  have hne : bytes key ≠ [] := fun h => hlen (by rw [h, List.length_nil])
  have hcreate : step dbPath ⟨file, some (.write key .create)⟩ (.call (.create (.ok ())) "")
      = some (settle key "" ⟨some [], .writeAll (bytes key)⟩) := by
    show (FileSink.step ⟨keyPath dbPath⟩ (bytes key) ⟨file, .create⟩ (.create (.ok ()))).map _ = _
    simp [FileSink.step, FileSink.writeAll, hne]
  have hwrite : step dbPath ⟨some [], some (.write key (.writeAll (bytes key)))⟩
      (.call (.write (.ok (bytes key).length)) "")
        = some (settle key "" ⟨some (bytes key), .returned (.ok ())⟩) := by
    show (FileSink.step ⟨keyPath dbPath⟩ (bytes key) ⟨some [], .writeAll (bytes key)⟩
      (.write (.ok (bytes key).length))).map _ = _
    simp [FileSink.step, FileSink.writeAll, hlen]
  exact Machine.run_cons.2 ⟨_, hcreate, Machine.run_cons.2 ⟨_, hwrite, rfl⟩⟩

/-- What a start does that finds none. -/
theorem run_missed (key : SecretKey) : ∃ as,
    run dbPath ⟨none, some .exists⟩ as = some ⟨some (bytes key), some (.rest key)⟩ := by
  have hexists : step dbPath ⟨none, some .exists⟩ (.exists false)
      = some ⟨none, some .fill⟩ := step_exists (by simp)
  rcases hparent : UnixPath.parent (keyPath dbPath) with _ | parent
  · have hfill : step dbPath ⟨none, some .fill⟩ (.fill (.ok key))
        = some ⟨none, some (.write key .create)⟩ := by
      unfold step
      simp only [hparent]
    refine ⟨.exists false :: .fill (.ok key) :: writes key, ?_⟩
    exact Machine.run_cons.2 ⟨_, hexists, Machine.run_cons.2 ⟨_, hfill, run_writes none key⟩⟩
  · have hfill : step dbPath ⟨none, some .fill⟩ (.fill (.ok key))
        = some ⟨none, some (.createDirAll key)⟩ := by
      unfold step
      simp only [hparent]
    have hdir : step dbPath ⟨none, some (.createDirAll key)⟩ (.createDirAll (.ok ()))
        = some ⟨none, some (.write key .create)⟩ := rfl
    refine ⟨.exists false :: .fill (.ok key) :: .createDirAll (.ok ()) :: writes key, ?_⟩
    exact Machine.run_cons.2 ⟨_, hexists, Machine.run_cons.2 ⟨_, hfill,
      Machine.run_cons.2 ⟨_, hdir, run_writes none key⟩⟩⟩

/-! ## The key `from_config` loads -/

section LoadKey

variable {φ ν : Type} {host : Host φ ν} {generated : Except String SecretKey} {fs fs' : φ}

/-- What the key file holds. -/
def keyFile (host : Host φ ν) (dbPath : String) (fs : φ) : Option (List UInt8) :=
  ((host.file fs (keyPath dbPath)).bind (host.content fs)).map (·.data.toList)

theorem keyFile_eq {n : ν} {content : ByteArray} (hf : host.file fs (keyPath dbPath) = some n)
    (hc : host.content fs n = some content) :
    keyFile host dbPath fs = some content.data.toList := by
  rw [keyFile, hf, Option.bind_some, hc, Option.map_some]

/-- A key that `from_config` loads is loaded by calls of this machine. -/
theorem run_of_loadKey (h : loadKey host generated (keyPath dbPath) fs = .ok (fs', key)) :
    ∃ as, run dbPath ⟨keyFile host dbPath fs, some .exists⟩ as
      = some ⟨keyFile host dbPath fs', some (.rest key)⟩ := by
  rcases loadKey_eq_ok h with ⟨rfl, n, hf, hc⟩ | ⟨rfl, hex, n, hf, hc, -⟩
  · rw [keyFile_eq hf hc]
    exact ⟨_, run_found_key key⟩
  · have hnone : keyFile host dbPath fs = none := by
      rcases hfile : host.file fs (keyPath dbPath) with _ | n
      · rw [keyFile, hfile, Option.bind_none, Option.map_none]
      · rw [host.pathExists_of_file hfile] at hex
        simp at hex
    rw [keyFile_eq hf hc, hnone]
    exact run_missed key

end LoadKey

/-! ## Over all starts -/

/-- The file is missed at no step of a run. -/
abbrev Finds (dbPath : String) (s : Startup) (as : List Act) : Prop :=
  Machine.EachStep (step dbPath) s as fun _ s a => a.Finds s

theorem run_sound : ∀ {as : List Act} {s : Startup}, s.Sound → Finds dbPath s as →
    s.run dbPath as = some s' →
    s'.Sound ∧ ∀ content, Settled content s → Settled content s'
  | [], s, hs, _, h => by
    obtain rfl := Machine.run_nil.1 h
    exact ⟨hs, fun _ hc => hc⟩
  | a :: as, s, hs, hf, h => by
    obtain ⟨m, hm, h⟩ := Machine.run_cons.1 h
    obtain ⟨ha, hf⟩ := Machine.eachStep_cons.1 hf
    obtain ⟨hsm, hkeep⟩ := step_sound hs ha hm
    obtain ⟨hs', hkeep'⟩ := run_sound hsm (hf m hm) h
    exact ⟨hs', fun content hc => hkeep' content (hkeep content hc)⟩

/-- A node runs, with this key. -/
def Serves (s : Startup) (key : SecretKey) : Prop := s.process = some (.returned (.ok key))

theorem Sound.settled (hs : s.Sound) (h : s.Serves key) : Settled (bytes key) s := by
  have hfile : s.file = some (bytes key) := hs (.returned (.ok key)) h
  refine settled_of_process hfile h ?_
  rintro key' p ⟨⟩

/-- Over one database path, whatever the key file held before and wherever a start fails or the
process ends: as long as no call misses a key file that is there, once a node serves, its key is in
the file for good, every node that serves later has it, and a start that fails nowhere serves with
it; and once the file holds what is no key, and no start is writing it, it does so for good, no node
ever serves, and a start is told so. -/
theorem one_identity {file : Option (List UInt8)} {pre suf : List Act}
    (hm : run dbPath ⟨file, none⟩ pre = some m) (h : m.run dbPath suf = some s)
    (hfinds : Finds dbPath ⟨file, none⟩ (pre ++ suf)) :
    (∀ key, m.Serves key → s.file = some (bytes key) ∧ (∀ key', s.Serves key' → key' = key)
        ∧ ∃ s', s.run dbPath [.start, .exists true, .read (.ok ()), .rest (.ok ())] = some s'
          ∧ s'.Serves key)
      ∧ ∀ content, Settled content m → content.length ≠ 32 →
        s.file = some content ∧ (∀ key, ¬ m.Serves key ∧ ¬ s.Serves key)
          ∧ ∃ s', s.run dbPath [.start, .exists true, .read (.ok ())] = some s'
            ∧ s'.process = some (.returned (.error "Invalid key file")) := by
  have hstart : Sound ⟨file, none⟩ := nofun
  obtain ⟨hms, -⟩ := run_sound hstart hfinds.of_append hm
  have hfinds' : Finds dbPath m suf := hfinds.after hm
  obtain ⟨hs, hkeep⟩ := run_sound hms hfinds' h
  have hserves : ∀ {m : Startup} {content : List UInt8} {key : SecretKey}, m.Sound →
      Settled content m → m.Serves key → content = bytes key := by
    intro m content key hms hc hk
    have := (hms.settled hk).file
    rw [hc.file] at this
    exact Option.some.inj this
  refine ⟨fun key hk => ?_, fun content hc hlen => ?_⟩
  · have hc := hkeep _ (hms.settled hk)
    refine ⟨hc.file, fun key' hk' => (bytes_inj (hserves hs hc hk')).symm, ?_⟩
    have hrest : step dbPath ⟨some (bytes key), some (.rest key)⟩ (.rest (.ok ()))
        = some ⟨some (bytes key), some (.returned (.ok key))⟩ := rfl
    refine ⟨⟨some (bytes key), some (.returned (.ok key))⟩, ?_, rfl⟩
    refine Machine.run_cons.2 ⟨_, step_start, ?_⟩
    rw [hc.file]
    exact Machine.run_append.2 ⟨_, run_found_key key, Machine.run_cons.2 ⟨_, hrest, rfl⟩⟩
  · have hc' := hkeep content hc
    refine ⟨hc'.file, fun key => ⟨fun hk => ?_, fun hk => ?_⟩, ?_⟩
    · exact hlen (hserves hms hc hk ▸ length_bytes key)
    · exact hlen (hserves hs hc' hk ▸ length_bytes key)
    · refine ⟨⟨some content, some (.returned (.error "Invalid key file"))⟩, ?_, rfl⟩
      refine Machine.run_cons.2 ⟨_, step_start, ?_⟩
      rw [hc'.file]
      exact run_found_torn hlen

/-- A first start, that ends between emptying the key file and writing the key to it. -/
def cutShort (key : SecretKey) : List Act :=
  [.start, .exists false, .fill (.ok key), .createDirAll (.ok ()), .call (.create (.ok ())) "",
    .stop]

theorem run_cutShort (key : SecretKey) :
    run "xaeroflux.db" ⟨none, none⟩ (cutShort key) = some ⟨some [], none⟩ := by
  have hname : UnixPath.FileName "xaeroflux.db" := ⟨by decide, by decide⟩
  have hkey : UnixPath.FileName "node.key" := ⟨by decide, by decide⟩
  have hfill : step "xaeroflux.db" ⟨none, some .fill⟩ (.fill (.ok key))
      = some ⟨none, some (.createDirAll key)⟩ := by
    unfold step
    simp only [keyPath_fileName hname, hkey.parent_eq]
  have hcreate : step "xaeroflux.db" ⟨none, some (.write key .create)⟩
      (.call (.create (.ok ())) "") = some (settle key "" ⟨some [], _⟩) := rfl
  exact Machine.run_cons.2 ⟨_, step_start, Machine.run_cons.2 ⟨_, step_exists (by simp),
    Machine.run_cons.2 ⟨_, hfill, Machine.run_cons.2 ⟨_, rfl, Machine.run_cons.2 ⟨_, hcreate,
      Machine.run_cons.2 ⟨_, rfl, rfl⟩⟩⟩⟩⟩⟩

theorem finds_cutShort (key : SecretKey) : Finds dbPath ⟨none, none⟩ (cutShort key) := by
  refine Machine.eachStep_cons.2 ⟨nofun, fun m hm => ?_⟩
  obtain rfl := Option.some.inj hm
  refine Machine.eachStep_cons.2 ⟨fun _ => rfl, fun m _ => ?_⟩
  rintro pre a suf s heq hr rfl
  have := congrArg (Act.exists false ∈ ·) heq
  simp at this

theorem one_identity_cutShort :
    ∃ s, run "xaeroflux.db" ⟨some [], none⟩ [.start, .exists true, .read (.ok ())] = some s
      ∧ s.process = some (.returned (.error "Invalid key file")) := by
  have hsettled : Settled [] ⟨some [], none⟩ := ⟨rfl, nofun⟩
  have hfinds : Finds "xaeroflux.db" ⟨none, none⟩ (cutShort firstKey ++ []) := by
    rw [List.append_nil]
    exact finds_cutShort firstKey
  exact ((one_identity (run_cutShort firstKey) (Machine.run_nil.2 rfl) hfinds).2 [] hsettled
    (by decide)).2.2

end Startup

end XaeroFlux
