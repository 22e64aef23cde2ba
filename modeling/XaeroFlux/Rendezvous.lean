import XaeroFlux.Keys
import XaeroFlux.Lib.JsonFields
import XaeroFlux.Lib.JsonPretty
import XaeroFlux.Lib.Machine
import XaeroFlux.Lib.UnixPath
import XaeroFlux.Lib.Utf8

/-!
# The rendezvous config

What a bootstrap publishes of itself for the apps to find it, signed with its node key
(`src/rendezvous.rs`).

It is signed as its compact text and published as its pretty one. The sink may be any; the
bootstrap's own, a file, is modelled call by call (`FileSink.step`), so a process that stops inside
`publish` leaves the state that the answers so far led to.
-/

namespace XaeroFlux

structure BootstrapInfo where
  nodeId : String
  addr : List String
deriving DecidableEq

structure RendezvousConfig where
  env : String
  discoveryKey : String
  bootstrap : BootstrapInfo
  relayUrl : Option String
  ts : UInt64
deriving DecidableEq

structure SignedRendezvousConfig where
  config : RendezvousConfig
  signer : String
  signature : String
deriving DecidableEq

/-! ## `Serialize` and `Deserialize` -/

namespace BootstrapInfo

def toJson (b : BootstrapInfo) : Json :=
  .obj [("node_id", .str b.nodeId), ("addr", .arr (b.addr.map .str))]

def ofJson : Json → Option BootstrapInfo :=
  Json.record ["node_id", "addr"] fun j => do
    let nodeId ← j.field "node_id" Json.asStr
    let addr ← j.field "addr" (Json.asVec Json.asStr)
    return { nodeId, addr }

@[simp] theorem ofJson_toJson (b : BootstrapInfo) : ofJson b.toJson = some b := by
  rw [ofJson, Json.record_of_once (by simp [Json.Once, toJson])]
  simp [toJson, Json.asVec_map Json.asStr_str]

end BootstrapInfo

namespace RendezvousConfig

def toJson (c : RendezvousConfig) : Json :=
  .obj [("env", .str c.env), ("discovery_key", .str c.discoveryKey),
    ("bootstrap", c.bootstrap.toJson), ("relay_url", .ofOption c.relayUrl),
    ("ts", .int c.ts.toNat)]

def ofJson : Json → Option RendezvousConfig :=
  Json.record ["env", "discovery_key", "bootstrap", "relay_url", "ts"] fun j => do
    let env ← j.field "env" Json.asStr
    let discoveryKey ← j.field "discovery_key" Json.asStr
    let bootstrap ← j.field "bootstrap" BootstrapInfo.ofJson
    let relayUrl ← j.optField "relay_url" Json.asStr
    let ts ← j.field "ts" Json.asUInt64
    return { env, discoveryKey, bootstrap, relayUrl, ts }

@[simp] theorem ofJson_toJson (c : RendezvousConfig) : ofJson c.toJson = some c := by
  rw [ofJson, Json.record_of_once (by simp [Json.Once, toJson])]
  simp [toJson]

end RendezvousConfig

namespace SignedRendezvousConfig

def toJson (s : SignedRendezvousConfig) : Json :=
  .obj [("config", s.config.toJson), ("signer", .str s.signer), ("signature", .str s.signature)]

def ofJson : Json → Option SignedRendezvousConfig :=
  Json.record ["config", "signer", "signature"] fun j => do
    let config ← j.field "config" RendezvousConfig.ofJson
    let signer ← j.field "signer" Json.asStr
    let signature ← j.field "signature" Json.asStr
    return { config, signer, signature }

theorem ofJson_toJson (s : SignedRendezvousConfig) : ofJson s.toJson = some s := by
  rw [ofJson, Json.record_of_once (by simp [Json.Once, toJson])]
  simp [toJson]

end SignedRendezvousConfig

/-- `serde_json::from_slice::<SignedRendezvousConfig>`. -/
structure ConfigReader where
  fromSlice : ByteArray → Except String SignedRendezvousConfig
  /-- A text of a value, whatever white space is between its tokens, reads as what the derived
  `Deserialize` takes the value for. -/
  reads : ∀ {j : Json} {s : SignedRendezvousConfig} {bytes : ByteArray},
    SignedRendezvousConfig.ofJson j = some s → j.Spells bytes → fromSlice bytes = .ok s

/-- Leaves out the white space and reads the compact text. -/
def ConfigReader.stripping : ConfigReader where
  fromSlice bytes :=
    ((Json.readSpaced bytes).bind SignedRendezvousConfig.ofJson).elim (.error "not a config") .ok
  reads {j s bytes} h hj := by
    rw [Json.readSpaced_of_spells hj, Option.bind_some, h, Option.elim_some]

/-! ## Signing -/

/-- The bytes that are signed. Writing them does not fail. -/
def canonicalBytes (config : RendezvousConfig) : ByteArray := config.toJson.toVec

abbrev Signature := Vector UInt8 64

/-- What the code outside the repository gives the signing: node ids `κ`, secret keys `σ`, the
signature scheme and `hex::decode`. -/
structure Signing (κ σ : Type) where
  keys : PublicKeys κ
  publicKey : σ → κ
  sign : σ → ByteArray → Signature
  verify : κ → ByteArray → Signature → Except String Unit
  decode : String → Except String (List UInt8)
  decode_hex : ∀ bytes, decode (Utf8.hex bytes) = .ok bytes

namespace Signing

variable {κ σ : Type} (sg : Signing κ σ)

def signConfig (config : RendezvousConfig) (secretKey : σ) : SignedRendezvousConfig where
  config := config
  signer := sg.keys.toStr (sg.publicKey secretKey)
  signature := Utf8.hex (sg.sign secretKey (canonicalBytes config)).toList

/-- `try_into` an array of the length. -/
def toSignature (bytes : List UInt8) : Except String Signature :=
  if h : bytes.length = 64 then .ok ⟨bytes.toArray, h⟩ else .error "signature must be 64 bytes"

def verifyConfig (signed : SignedRendezvousConfig) : Except String Unit := do
  let pubkey ← (sg.keys.fromStr signed.signer).mapError ("invalid signer public key: " ++ ·)
  let decoded ← (sg.decode signed.signature).mapError fun _ => "decode signature hex"
  let signature ← toSignature decoded
  (sg.verify pubkey (canonicalBytes signed.config) signature).mapError
    ("rendezvous signature verification failed: " ++ ·)

/-- What is signed with the key verifies. -/
def AcceptsOwn (secretKey : σ) : Prop :=
  ∀ bytes, sg.verify (sg.publicKey secretKey) bytes (sg.sign secretKey bytes) = .ok ()

/-- The signature of these bytes verifies for no others. -/
def Ideal (secretKey : σ) (bytes : ByteArray) : Prop :=
  ∀ bytes', sg.verify (sg.publicKey secretKey) bytes' (sg.sign secretKey bytes) = .ok () ↔
    bytes' = bytes

end Signing

/-! ## Publishing -/

/-- A sink with the states `φ` of what stores the bytes for it. -/
structure ConfigSink (φ : Type) where
  publish : φ → ByteArray → Except String φ
  content : φ → Option ByteArray

/-- What it published it holds. -/
def ConfigSink.Stores {φ : Type} (sink : ConfigSink φ) : Prop :=
  ∀ st bytes st', sink.publish st bytes = .ok st' → sink.content st' = some bytes

/-- Writing the text does not fail. -/
def publishSigned {φ : Type} (sink : ConfigSink φ) (signed : SignedRendezvousConfig) (st : φ) :
    Except String φ :=
  sink.publish st signed.toJson.toVecPretty

structure FileSink where
  path : String

namespace FileSink

inductive ErrorKind where
  | interrupted
  | other
deriving DecidableEq

/-- A call of `publish`, with what the system answers it. -/
inductive Call where
  | createDirAll (result : Except ErrorKind Unit)
  /-- `File::create`, which makes the file or empties it. -/
  | create (result : Except ErrorKind Unit)
  | write (result : Except ErrorKind ℕ)

/-- The call that is next. -/
inductive Phase where
  | createDirAll (parent : String)
  | create
  | writeAll (rest : List UInt8)
  | returned (result : Except String Unit)

/-- The file at the sink's path, and where `publish` is. -/
structure State where
  file : Option (List UInt8)
  phase : Phase

variable (sink : FileSink) (bytes : List UInt8)

def start (prev : Option (List UInt8)) : State where
  file := prev
  phase :=
    match UnixPath.parent sink.path with
    | some parent => if parent ≠ "" then .createDirAll parent else .create
    | none => .create

/-- `write_all`, at the head of its loop. -/
def writeAll (rest : List UInt8) : Phase := if rest = [] then .returned (.ok ()) else .writeAll rest

/-- The error of `std::fs::write`, by its context. -/
def writeFailed : Phase := .returned (.error ("write rendezvous config to " ++ sink.path))

def step (s : State) (call : Call) : Option State :=
  match s.phase, call with
  | .createDirAll _, .createDirAll (.ok ()) => some { s with phase := .create }
  | .createDirAll parent, .createDirAll (.error _) =>
    some { s with phase := .returned (.error ("create rendezvous config dir " ++ parent)) }
  | .create, .create (.ok ()) => some { file := some [], phase := writeAll bytes }
  | .create, .create (.error _) => some { s with phase := sink.writeFailed }
  | .writeAll rest, .write (.ok n) =>
    -- `write_all` takes a write of nothing for an error
    if n = 0 then some { s with phase := sink.writeFailed }
    else if n ≤ rest.length then
      some { file := s.file.map (· ++ rest.take n), phase := writeAll (rest.drop n) }
    else none
  | .writeAll _, .write (.error .interrupted) => some s
  | .writeAll _, .write (.error .other) => some { s with phase := sink.writeFailed }
  | _, _ => none

/-- The sink where the system answers so, with the file for its state. -/
def toConfigSink (calls : List Call) : ConfigSink (Option (List UInt8)) where
  publish prev bytes :=
    match Machine.run (sink.step bytes.data.toList) (sink.start prev) calls with
    | some { file, phase := .returned result } => result.map fun _ => file
    | _ => .error "not returned"
  content file := file.map List.toByteArray

end FileSink

end XaeroFlux
