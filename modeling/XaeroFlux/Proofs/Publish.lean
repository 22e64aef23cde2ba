import XaeroFlux.Proofs.Rendezvous

/-!
# A config published

The text a sink holds is read back as the config signed, which verifies (`publish_fetch`).

The file sink empties the file before it writes to it. Until the file is open it is as it was
(`Waiting`), and from then on it holds what has been written, a prefix of the new bytes (`Opened`);
an error can leave any of them but the whole (`exists_run_error`).
-/

namespace XaeroFlux

namespace Signing

variable {κ σ φ : Type}

/-- What is published is fetched as it was signed, and verifies, with the key that signed it. -/
theorem publish_fetch (sg : Signing κ σ) (reader : ConfigReader) (sink : ConfigSink φ)
    (c : RendezvousConfig) (sk : σ) (st st' : φ) (hown : sg.AcceptsOwn sk) (hstores : sink.Stores)
    (hpub : publishSigned sink (sg.signConfig c sk) st = .ok st') :
    ∃ bytes signed, sink.content st' = some bytes ∧ reader.fromSlice bytes = .ok signed
      ∧ signed = sg.signConfig c sk
      ∧ sg.verifyConfig signed = .ok ()
      ∧ signed.signer = sg.keys.toStr (sg.publicKey sk) := by
  have hcontent := hstores _ _ _ hpub
  have hread := reader.reads (SignedRendezvousConfig.ofJson_toJson (sg.signConfig c sk))
    (Json.spells_toVecPretty _)
  refine ⟨_, _, hcontent, hread, rfl, ?_, rfl⟩
  rw [verifyConfig_eq rfl rfl, mapError_eq_ok]
  exact hown _

/-- The sum of the bytes, in each of the signature's. -/
def checksum (bytes : ByteArray) : Signature :=
  .replicate 64 (bytes.data.toList.foldl UInt8.add (.ofNat 0))

/-- Signs with the checksum. -/
def summing : Signing Unit Unit where
  keys := .only "node"
  publicKey _ := ()
  sign _ := checksum
  verify _ bytes signature :=
    if signature = checksum bytes then .ok () else .error "bad signature"
  decode := devSigning.decode
  decode_hex := devSigning.decode_hex

/-- Holds what was published last. -/
def memorySink : ConfigSink (Option ByteArray) where
  publish _ bytes := .ok (some bytes)
  content := id

theorem publish_fetch_dev :
    ∃ bytes signed, memorySink.content (some (summing.signConfig devConfig ()).toJson.toVecPretty)
        = some bytes
      ∧ ConfigReader.stripping.fromSlice bytes = .ok signed
      ∧ signed = summing.signConfig devConfig ()
      ∧ summing.verifyConfig signed = .ok ()
      ∧ signed.signer = summing.keys.toStr (summing.publicKey ()) := by
  have hown : summing.AcceptsOwn () := fun _ => if_pos rfl
  have hstores : memorySink.Stores := by
    intro st bytes st' h
    exact (Except.ok.inj h).symm
  exact publish_fetch summing .stripping memorySink devConfig () none _ hown hstores rfl

end Signing

namespace FileSink

/-- The bytes a call has written. -/
def Call.written : Call → ℕ
  | .write (.ok n) => n
  | .createDirAll _ | .create _ | .write (.error _) => 0

def written (calls : List Call) : ℕ := (calls.map Call.written).sum

@[simp] theorem written_nil : written [] = 0 := rfl

@[simp] theorem written_concat (calls : List Call) (call : Call) :
    written (calls ++ [call]) = written calls + call.written := by
  simp [written]

variable {sink : FileSink} {bytes : List UInt8} {prev : Option (List UInt8)} {calls : List Call}
  {call : Call} {s s' : State}

/-- Where `publish` can be while the file has not been opened. -/
def Phase.Before : Phase → Prop
  | .createDirAll _ | .create | .returned (.error _) => True
  | .writeAll _ | .returned (.ok ()) => False

/-- Where it can be once so many of the bytes are written. -/
def Phase.After (bytes : List UInt8) (n : ℕ) : Phase → Prop
  | .createDirAll _ | .create => False
  | .writeAll rest => rest = bytes.drop n
  | .returned (.ok ()) => n = bytes.length
  | .returned (.error _) => True

/-- The file is not open yet. -/
structure Waiting (prev : Option (List UInt8)) (calls : List Call) (s : State) : Prop where
  create : .create (.ok ()) ∉ calls
  file : s.file = prev
  written : written calls = 0
  phase : s.phase.Before

/-- The file has been opened. -/
structure Opened (bytes : List UInt8) (calls : List Call) (s : State) : Prop where
  create : .create (.ok ()) ∈ calls
  file : s.file = some (bytes.take (written calls))
  le : written calls ≤ bytes.length
  phase : s.phase.After bytes (FileSink.written calls)

theorem after_writeAll {n : ℕ} (h : n ≤ bytes.length) :
    (writeAll (bytes.drop n)).After bytes n := by
  unfold writeAll
  split_ifs with hd
  · have hle := List.drop_eq_nil_iff.1 hd
    show n = bytes.length
    omega
  · rfl

theorem start_cases (sink : FileSink) (prev : Option (List UInt8)) :
    sink.start prev = { file := prev, phase := .create }
      ∨ ∃ parent, sink.start prev = { file := prev, phase := .createDirAll parent } := by
  unfold start
  rcases UnixPath.parent sink.path with _ | parent
  · exact .inl rfl
  · by_cases h : parent = ""
    · exact .inl (by simp [h])
    · exact .inr ⟨parent, by simp [h]⟩

theorem waiting_start : Waiting prev [] (sink.start prev) := by
  rcases start_cases sink prev with h | ⟨parent, h⟩ <;> rw [h]
  · exact ⟨by simp, rfl, rfl, trivial⟩
  · exact ⟨by simp, rfl, rfl, trivial⟩

/-- One call and what it does, by where `publish` is. -/
theorem step_cases (h : sink.step bytes s call = some s') :
    (∃ parent r, s.phase = .createDirAll parent ∧ call = .createDirAll r ∧ s'.file = s.file
        ∧ (s'.phase = .create
          ∨ s'.phase = .returned (.error ("create rendezvous config dir " ++ parent))))
      ∨ (∃ e, s.phase = .create ∧ call = .create (.error e)
        ∧ s' = { s with phase := sink.writeFailed })
      ∨ (s.phase = .create ∧ call = .create (.ok ())
        ∧ s' = { file := some [], phase := writeAll bytes })
      ∨ (∃ rest n, s.phase = .writeAll rest ∧ call = .write (.ok n) ∧ n ≤ rest.length
        ∧ s' = { file := s.file.map (· ++ rest.take n), phase := writeAll (rest.drop n) })
      ∨ (∃ rest, s.phase = .writeAll rest ∧ call.written = 0 ∧ call ≠ .create (.ok ())
        ∧ s'.file = s.file ∧ (s'.phase = s.phase ∨ s'.phase = sink.writeFailed)) := by
  unfold step at h
  split at h
  · rename_i parent hp
    obtain rfl := Option.some.inj h
    exact .inl ⟨parent, _, hp, rfl, rfl, .inl rfl⟩
  · rename_i parent e hp
    obtain rfl := Option.some.inj h
    exact .inl ⟨parent, _, hp, rfl, rfl, .inr rfl⟩
  · rename_i hp
    obtain rfl := Option.some.inj h
    exact .inr (.inr (.inl ⟨hp, rfl, rfl⟩))
  · rename_i e hp
    obtain rfl := Option.some.inj h
    exact .inr (.inl ⟨e, hp, rfl, rfl⟩)
  · rename_i rest n hp
    split_ifs at h with hn hle
    · obtain rfl := Option.some.inj h
      subst hn
      exact .inr (.inr (.inr (.inr ⟨rest, hp, rfl, by simp, rfl, .inr rfl⟩)))
    · obtain rfl := Option.some.inj h
      exact .inr (.inr (.inr (.inl ⟨rest, n, hp, rfl, hle, rfl⟩)))
  · rename_i rest hp
    obtain rfl := Option.some.inj h
    exact .inr (.inr (.inr (.inr ⟨rest, hp, rfl, by simp, rfl, .inl rfl⟩)))
  · rename_i rest hp
    obtain rfl := Option.some.inj h
    exact .inr (.inr (.inr (.inr ⟨rest, hp, rfl, by simp, rfl, .inr rfl⟩)))
  · simp at h

theorem Waiting.step (hw : Waiting prev calls s) (h : sink.step bytes s call = some s') :
    Waiting prev (calls ++ [call]) s' ∨ Opened bytes (calls ++ [call]) s' := by
  obtain ⟨hcreate, hfile, hwritten, hphase⟩ := hw
  obtain ⟨parent, r, hp, rfl, hsame, hnext⟩ | ⟨e, hp, rfl, rfl⟩ | ⟨hp, rfl, rfl⟩
    | ⟨rest, n, hp, -, -, -⟩ | ⟨rest, hp, -, -, -, -⟩ := step_cases h
  · left
    refine ⟨by simpa using hcreate, hsame.trans hfile, by simp [hwritten, Call.written], ?_⟩
    rcases hnext with hnext | hnext <;> rw [hnext] <;> trivial
  · left
    exact ⟨by simpa using hcreate, hfile, by simp [hwritten, Call.written], trivial⟩
  · right
    have hzero : FileSink.written (calls ++ [.create (.ok ())]) = 0 := by
      simp [hwritten, Call.written]
    refine ⟨by simp, by simp [hzero], by omega, ?_⟩
    rw [hzero]
    exact after_writeAll (Nat.zero_le _)
  all_goals
    rw [hp] at hphase
    exact hphase.elim

theorem Opened.step (ho : Opened bytes calls s) (h : sink.step bytes s call = some s') :
    Opened bytes (calls ++ [call]) s' := by
  obtain ⟨hcreate, hfile, hle, hphase⟩ := ho
  have hcreate' : .create (.ok ()) ∈ calls ++ [call] := List.mem_append_left _ hcreate
  obtain ⟨parent, r, hp, -, -, -⟩ | ⟨e, hp, -, -⟩ | ⟨hp, -, -⟩
    | ⟨rest, n, hp, rfl, hn, rfl⟩ | ⟨rest, hp, hzero, -, hsame, hnext⟩ := step_cases h
  · rw [hp] at hphase
    exact hphase.elim
  · rw [hp] at hphase
    exact hphase.elim
  · rw [hp] at hphase
    exact hphase.elim
  · rw [hp] at hphase
    obtain rfl : rest = bytes.drop (FileSink.written calls) := hphase
    rw [List.length_drop] at hn
    have hw : FileSink.written (calls ++ [.write (.ok n)]) = FileSink.written calls + n := by
      simp [Call.written]
    refine ⟨hcreate', ?_, by omega, ?_⟩
    · simp only [hfile, hw, Option.map_some, List.take_add]
    · rw [hw, List.drop_drop]
      exact after_writeAll (by omega)
  · have hw : FileSink.written (calls ++ [call]) = FileSink.written calls := by simp [hzero]
    refine ⟨hcreate', by rw [hsame, hw, hfile], by omega, ?_⟩
    rw [hw]
    rcases hnext with hnext | hnext
    · rwa [hnext]
    · rw [hnext]
      trivial

/-- The file after any calls. -/
theorem waiting_or_opened (h : Machine.run (sink.step bytes) (sink.start prev) calls = some s) :
    Waiting prev calls s ∨ Opened bytes calls s := by
  refine Machine.run_induction (P := fun calls s => Waiting prev calls s ∨ Opened bytes calls s)
    (.inl waiting_start) (fun calls s call s' _ hP hs => ?_) h
  rcases hP with hw | ho
  · exact hw.step hs
  · exact .inr (ho.step hs)

theorem eq_of_returned (h : Machine.run (sink.step bytes) (sink.start prev) calls = some s)
    (hok : s.phase = .returned (.ok ())) : s.file = some bytes := by
  rcases waiting_or_opened h with hw | ho
  · have hphase := hw.phase
    rw [hok] at hphase
    exact hphase.elim
  · have hphase := ho.phase
    rw [hok] at hphase
    have hall : written calls = bytes.length := hphase
    rw [ho.file, hall, List.take_length]

/-- The file sink stores what it publishes. -/
theorem stores_toConfigSink (sink : FileSink) (calls : List Call) :
    (sink.toConfigSink calls).Stores := by
  intro prev bytes st' h
  simp only [toConfigSink] at h ⊢
  split at h
  · rename_i file result hrun
    rcases result with e | u
    · simp [Except.map] at h
    · obtain rfl : file = st' := by simpa [Except.map] using h
      have hfile : file = some bytes.data.toList := eq_of_returned hrun rfl
      rw [hfile, Option.map_some, Json.toByteArray_data]
  · simp at h

/-- A directory is the path's own, and an error names what it failed at. -/
def Phase.Names (sink : FileSink) : Phase → Prop
  | .createDirAll parent => UnixPath.parent sink.path = some parent
  | .returned (.error e) => e = "write rendezvous config to " ++ sink.path
    ∨ ∃ parent, UnixPath.parent sink.path = some parent
      ∧ e = "create rendezvous config dir " ++ parent
  | .create | .writeAll _ | .returned (.ok ()) => True

theorem names_start : (sink.start prev).phase.Names sink := by
  unfold start
  split
  · rename_i parent hparent
    by_cases h : parent = ""
    · simp [h, Phase.Names]
    · simpa [h, Phase.Names] using hparent
  · trivial

theorem names_writeAll (rest : List UInt8) : (writeAll rest).Names sink := by
  unfold writeAll
  split_ifs <;> trivial

theorem names_step (hs : s.phase.Names sink) (h : sink.step bytes s call = some s') :
    s'.phase.Names sink := by
  obtain ⟨parent, r, hp, -, -, hnext⟩ | ⟨e, -, -, rfl⟩ | ⟨-, -, rfl⟩
    | ⟨rest, n, -, -, -, rfl⟩ | ⟨rest, hp, -, -, -, hnext⟩ := step_cases h
  · rw [hp] at hs
    rcases hnext with hnext | hnext <;> rw [hnext]
    · trivial
    · exact .inr ⟨parent, hs, rfl⟩
  · exact .inl rfl
  · exact names_writeAll bytes
  · exact names_writeAll (rest.drop n)
  · rcases hnext with hnext | hnext <;> rw [hnext]
    · exact hs
    · exact .inl rfl

theorem error_of_run {e : String}
    (h : Machine.run (sink.step bytes) (sink.start prev) calls = some s)
    (he : s.phase = .returned (.error e)) :
    e = "write rendezvous config to " ++ sink.path
      ∨ ∃ parent, UnixPath.parent sink.path = some parent
        ∧ e = "create rendezvous config dir " ++ parent := by
  have hnames := Machine.run_invariant (I := fun s => s.phase.Names sink)
    (fun _ _ _ hs hst => names_step hs hst) names_start h
  rwa [he] at hnames

/-- The file is as it was until it is opened, then what has been written of the bytes, which is all
of them where `publish` returns `Ok`. -/
theorem file_of_run (sink : FileSink) (bytes : List UInt8) (prev : Option (List UInt8))
    (calls : List Call) (s : State)
    (h : Machine.run (sink.step bytes) (sink.start prev) calls = some s) :
    (.create (.ok ()) ∉ calls → s.file = prev)
      ∧ (.create (.ok ()) ∈ calls →
        s.file = some (bytes.take (written calls)) ∧ written calls ≤ bytes.length)
      ∧ (s.phase = .returned (.ok ()) → s.file = some bytes) := by
  rcases waiting_or_opened h with hw | ho
  · exact ⟨fun _ => hw.file, fun hc => absurd hc hw.create, eq_of_returned h⟩
  · exact ⟨fun hc => absurd ho.create hc, fun _ => ⟨ho.file, ho.le⟩, eq_of_returned h⟩

/-- A file in the working directory. -/
def wellKnown : FileSink := ⟨"rendezvous.json"⟩

theorem start_wellKnown (prev : Option (List UInt8)) :
    wellKnown.start prev = { file := prev, phase := .create } := by
  have hname : UnixPath.FileName "rendezvous.json" := ⟨by decide, by decide⟩
  simp [start, wellKnown, hname.parent_eq]

/-- The disk is full after one byte. -/
def fullDisk : List Call := [.create (.ok ()), .write (.ok 1), .write (.error .other)]

def halfWritten : State := { file := some [2], phase := wellKnown.writeFailed }

theorem file_of_run_fullDisk :
    (.create (.ok ()) ∉ fullDisk → halfWritten.file = some [1])
      ∧ (.create (.ok ()) ∈ fullDisk →
        halfWritten.file = some ([2, 3].take (written fullDisk)) ∧ written fullDisk ≤ 2)
      ∧ (halfWritten.phase = .returned (.ok ()) → halfWritten.file = some [2, 3]) := by
  have hrun : Machine.run (wellKnown.step [2, 3]) (wellKnown.start (some [1])) fullDisk
      = some halfWritten := by
    rw [start_wellKnown]
    rfl
  exact file_of_run wellKnown [2, 3] (some [1]) fullDisk halfWritten hrun

theorem exists_run_create (sink : FileSink) (bytes : List UInt8) (prev : Option (List UInt8)) :
    ∃ calls, Machine.run (sink.step bytes) (sink.start prev) calls
      = some { file := some [], phase := writeAll bytes } := by
  rcases start_cases sink prev with h | ⟨parent, h⟩ <;> rw [h]
  · exact ⟨[.create (.ok ())], rfl⟩
  · exact ⟨[.createDirAll (.ok ()), .create (.ok ())], rfl⟩

/-- An error can cut the new bytes anywhere. -/
theorem exists_run_error (sink : FileSink) {bytes : List UInt8} (prev : Option (List UInt8)) {n : ℕ}
    (h : n < bytes.length) :
    ∃ calls, Machine.run (sink.step bytes) (sink.start prev) calls
      = some { file := some (bytes.take n), phase := sink.writeFailed } := by
  obtain ⟨calls, hcalls⟩ := exists_run_create sink bytes prev
  have hbytes : bytes ≠ [] := List.length_pos_iff.1 (by omega)
  rw [writeAll, if_neg hbytes] at hcalls
  by_cases hn : n = 0
  · subst hn
    refine ⟨calls ++ [.write (.error .other)], Machine.run_concat.2 ⟨_, hcalls, rfl⟩⟩
  · have hdrop : bytes.drop n ≠ [] := by
      rw [Ne, List.drop_eq_nil_iff]
      omega
    have hwrite : sink.step bytes { file := some [], phase := .writeAll bytes } (.write (.ok n))
        = some { file := some (bytes.take n), phase := .writeAll (bytes.drop n) } := by
      simp [step, writeAll, hn, hdrop, h.le]
    refine ⟨calls ++ [.write (.ok n), .write (.error .other)],
      Machine.run_append.2 ⟨_, hcalls, Machine.run_cons.2 ⟨_, hwrite, rfl⟩⟩⟩

/-- A publish that fails can leave the file empty. -/
theorem failed_publish_not_atomic :
    ¬ ∀ (sink : FileSink) (bytes : List UInt8) (prev : Option (List UInt8)) (calls : List Call)
      (s : State), Machine.run (sink.step bytes) (sink.start prev) calls = some s →
        s.phase ≠ .returned (.ok ()) → s.file = prev ∨ s.file = some bytes := by
  intro hall
  obtain ⟨calls, hcalls⟩ := exists_run_error wellKnown (some [1])
    (show 0 < [(2 : UInt8), 3].length by simp)
  have hfile := hall wellKnown [2, 3] (some [1]) calls _ hcalls (by simp [writeFailed])
  simp at hfile

end FileSink

end XaeroFlux
