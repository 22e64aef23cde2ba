import XaeroFlux.Rendezvous

/-!
# Publishing at every start

A bootstrap publishes its config each time it starts (`signed_rendezvous_config` of `src/lib.rs`,
`publish_rendezvous` of `src/bin/xaeroflux_bootstrap.rs`), over what the starts before it left. It
may stop anywhere, inside `publish` too, and the file may be read at any time.
-/

namespace XaeroFlux

/-- The addresses that `iroh` knows for the endpoint. -/
structure EndpointAddr where
  ipAddrs : List String
  relayUrls : List String

/-- What a running node signs its config with and of. -/
structure RunningNode {κ σ : Type} (sg : Signing κ σ) where
  discoveryKey : String
  nodeId : String
  secretKey : σ
  addr : EndpointAddr
  nodeId_eq : nodeId = sg.keys.toStr (sg.publicKey secretKey)

namespace RunningNode

variable {κ σ : Type} {sg : Signing κ σ}

/-- The relay configured, or else one seen on the endpoint's address. -/
def signedRendezvousConfig (xf : RunningNode sg) (env : String) (relayUrl : Option String)
    (ts : UInt64) : SignedRendezvousConfig :=
  let config : RendezvousConfig :=
    { env := env
      discoveryKey := xf.discoveryKey
      bootstrap := { nodeId := xf.nodeId, addr := xf.addr.ipAddrs }
      relayUrl := relayUrl.or xf.addr.relayUrls.head?
      ts := ts }
  sg.signConfig config xf.secretKey

end RunningNode

/-- `serde_json::from_slice::<SignedRendezvousConfig>` on what is published. -/
structure PublishedReader where
  fromSlice : ByteArray → Except String SignedRendezvousConfig
  reads : ∀ {j : Json} {s : SignedRendezvousConfig}, SignedRendezvousConfig.ofJson j = some s →
    fromSlice j.toVecPretty = .ok s
  /-- Nothing is accepted but JSON texts. -/
  isText : ∀ {bytes : ByteArray} {s : SignedRendezvousConfig}, fromSlice bytes = .ok s →
    Json.IsText bytes.data.toList

/-- Reads pretty texts and no others. -/
def PublishedReader.pretty : PublishedReader where
  fromSlice bytes :=
    match (Json.readSpaced bytes).filter fun j => j.toVecPretty.data = bytes.data with
    | some j => (SignedRendezvousConfig.ofJson j).elim (.error "not a config") .ok
    | none => .error "not a text"
  reads {j s} h := by
    rw [Json.readSpaced_of_spells (Json.spells_toVecPretty j), Option.filter_some, if_pos (by simp)]
    simp [h]
  isText {bytes s} h := by
    split at h
    · rename_i j hj
      obtain ⟨-, hb⟩ := Option.filter_eq_some_iff.1 hj
      rw [← show j.toVecPretty.data = bytes.data by simpa using hb]
      exact Json.isText_toVecPretty j
    · simp at h

/-- The file at the sink's path, and the publish under way with what it publishes. -/
structure Republish where
  file : Option (List UInt8)
  publish : Option (SignedRendezvousConfig × FileSink.Phase)

namespace Republish

variable {κ σ : Type} {sg : Signing κ σ} (sink : FileSink)

inductive Act (sg : Signing κ σ) where
  /-- A process starts; the one before it is gone. -/
  | publish (xf : RunningNode sg) (env : String) (relayUrl : Option String) (ts : UInt64)
  | call (c : FileSink.Call)
  | stop

/-- Nothing is published yet. -/
def start : Republish := ⟨none, none⟩

/-- What `publish_signed` writes. -/
def text (signed : SignedRendezvousConfig) : List UInt8 := signed.toJson.toVecPretty.data.toList

def step (s : Republish) : Act sg → Option Republish
  | .publish xf env relayUrl ts =>
    let st := sink.start s.file
    some ⟨st.file, some (xf.signedRendezvousConfig env relayUrl ts, st.phase)⟩
  | .call c =>
    match s.publish with
    | none => none
    | some (signed, phase) =>
      (sink.step (text signed) ⟨s.file, phase⟩ c).map fun st => ⟨st.file, some (signed, st.phase)⟩
  | .stop => some { s with publish := none }

abbrev run (s : Republish) (as : List (Act sg)) : Option Republish := Machine.run (step sink) s as

end Republish

end XaeroFlux
