import Mathlib.Data.Finset.Basic
import XaeroFlux.Keys
import XaeroFlux.Topic

/-!
# The blob swarm

Who holds which blob, and fetching one from its holders (`src/swarm.rs`). The registry is filled
by the messages of others, under the strings they carry; `fetch` parses every holder's id before
it dials the first.

The store of `iroh-blobs` is known here by the verified ranges it has of each blob: it has a blob
when it has all its ranges, a transfer only ever adds ranges, and its calls do not fail.
-/

namespace XaeroFlux

inductive SwarmMessage where
  /-- "I have this blob." -/
  | iHave (hash holderNodeId : String)
  /-- "Who has this blob?" -/
  | whoHas (hash requesterNodeId : String)
deriving DecidableEq

namespace SwarmMessage

/-- The derived `Serialize`, the variant's name under `type`. -/
def toJson : SwarmMessage → Json
  | .iHave hash holder =>
    .obj [("type", .str "IHave"), ("hash", .str hash), ("holder_node_id", .str holder)]
  | .whoHas hash requester =>
    .obj [("type", .str "WhoHas"), ("hash", .str hash), ("requester_node_id", .str requester)]

def toVec (m : SwarmMessage) : ByteArray := m.toJson.toVec

def ofJson (j : Json) : Option SwarmMessage :=
  match j.get "type", j.get "hash" with
  | some (.str "IHave"), some (.str hash) =>
    match j.get "holder_node_id" with
    | some (.str holder) => some (.iHave hash holder)
    | _ => none
  | some (.str "WhoHas"), some (.str hash) =>
    match j.get "requester_node_id" with
    | some (.str requester) => some (.whoHas hash requester)
    | _ => none
  | _, _ => none

theorem ofJson_toJson (m : SwarmMessage) : ofJson m.toJson = some m := by
  cases m <;> simp only [ofJson, toJson, Json.get, List.find?, decide_true, Option.map_some,
    String.reduceEq, decide_false]

end SwarmMessage

/-- What the code outside the repository gives a swarm: `serde_json`'s reading of a message, the
keys, the hashes and the blobs. -/
structure SwarmEnv (κ : Type) where
  fromSlice : ByteArray → Except String SwarmMessage
  fromSlice_toVec : ∀ m : SwarmMessage, fromSlice m.toVec = .ok m
  keys : PublicKeys κ
  hashFromStr : String → Except String Digest
  blake3 : ByteArray → Digest
  ranges : Digest → Finset ℕ
  /-- What `get_bytes` reads where all ranges are present. -/
  bytes : Digest → ByteArray

structure BlobSwarm where
  /-- The verified ranges present of each blob. -/
  store : Digest → Finset ℕ
  nodeId : String
  /-- Hash (hex) to the node ids that announced they hold it. -/
  holders : KeyedMap String (List String)

inductive Attempt where
  | dialFailed (error : String)
  | dialTimedOut
  /-- Ranges arrive, and the transfer ends well or with an error. -/
  | transfer (got : Finset ℕ) (error : Option String)

namespace BlobSwarm

variable {κ : Type} (env : SwarmEnv κ)

def new (store : Digest → Finset ℕ) (nodeId : String) : BlobSwarm where
  store := store
  nodeId := nodeId
  holders := .empty

def has (s : BlobSwarm) (hash : Digest) : Bool := env.ranges hash ⊆ s.store hash

def announce (s : BlobSwarm) (hash : Digest) : SwarmMessage := .iHave hash.toHex s.nodeId

def query (s : BlobSwarm) (hash : Digest) : SwarmMessage := .whoHas hash.toHex s.nodeId

/-- A node never lists itself as a remote holder. -/
def recordHolder (s : BlobSwarm) (hashHex holder : String) : BlobSwarm :=
  if holder = s.nodeId then s
  else
    let add (set : List String) := if holder ∈ set then set else set ++ [holder]
    { s with holders := s.holders.entry hashHex [] add }

/-- The holders known, in some order of the set. -/
def holdersOf (s : BlobSwarm) (hash : Digest) : List String := (s.holders.get hash.toHex).getD []

def onMessage (s : BlobSwarm) (raw : ByteArray) : Except String (Option SwarmMessage) × BlobSwarm :=
  match env.fromSlice raw with
  | .error e => (.error ("malformed swarm message: " ++ e), s)
  | .ok (.iHave hash holder) => (.ok none, s.recordHolder hash holder)
  | .ok (.whoHas hash _) =>
    match env.hashFromStr hash with
    | .error e => (.error ("WhoHas carried an unparseable hash: " ++ e), s)
    | .ok parsed => (.ok (if s.has env parsed then some (s.announce parsed) else none), s)

def onMessages (s : BlobSwarm) (msgs : List ByteArray) : BlobSwarm :=
  msgs.foldl (fun s raw => (s.onMessage env raw).2) s

/-! ## Multi-source fetch -/

def parseHolders (holders : List String) : Except String (List κ) :=
  holders.mapM fun id => (env.keys.fromStr id).mapError fun e =>
    "holder id '" ++ id ++ "' is not a valid node id: " ++ e

/-- The ranges a transfer adds are verified: ranges of the blob. -/
def addRanges (s : BlobSwarm) (hash : Digest) (got : Finset ℕ) : BlobSwarm :=
  { s with store := Function.update s.store hash (s.store hash ∪ (got ∩ env.ranges hash)) }

/-- The loop over the providers: the swarm and the last error. `dial n` is what comes of the
`n`-th dial. -/
def tryProviders (dial : ℕ → κ → Attempt) (hash : Digest) :
    BlobSwarm → Option String → ℕ → List κ → BlobSwarm × Option String
  | s, lastErr, _, [] => (s, lastErr)
  | s, lastErr, n, provider :: providers =>
    if s.has env hash then (s, lastErr)
    else
      let id := env.keys.toStr provider
      match dial n provider with
      | .dialFailed e =>
        tryProviders dial hash s (some ("dial holder " ++ id ++ " failed: " ++ e)) (n + 1) providers
      | .dialTimedOut =>
        tryProviders dial hash s (some ("dial holder " ++ id ++ " timed out (likely departed)"))
          (n + 1) providers
      | .transfer got none =>
        tryProviders dial hash (s.addRanges env hash got) lastErr (n + 1) providers
      | .transfer got (some e) =>
        tryProviders dial hash (s.addRanges env hash got)
          (some ("fetch from holder " ++ id ++ " failed: " ++ e)) (n + 1) providers

def fetch (s : BlobSwarm) (dial : ℕ → κ → Attempt) (hash : Digest) (holders : List String) :
    Except String ByteArray × BlobSwarm :=
  if holders.isEmpty then
    (.error ("cannot fetch " ++ hash.toHex ++ ": no holders provided"), s)
  else
    match parseHolders env holders with
    | .error e => (.error e, s)
    | .ok providers =>
      let (s, lastErr) := tryProviders env dial hash s none 0 providers
      if s.has env hash then
        let bytes := env.bytes hash
        let computed := env.blake3 bytes
        if computed = hash then (.ok bytes, s)
        else (.error ("integrity check failed: fetched content hashes to " ++ computed.toHex
          ++ ", expected " ++ hash.toHex), s)
      else
        (.error (lastErr.getD ("no holder in the set could serve " ++ hash.toHex)), s)

/-- The same loop, with the providers it dials. -/
def tryProvidersDialing (dial : ℕ → κ → Attempt) (hash : Digest) :
    BlobSwarm → Option String → ℕ → List κ → List κ × BlobSwarm × Option String
  | s, lastErr, _, [] => ([], s, lastErr)
  | s, lastErr, n, provider :: providers =>
    if s.has env hash then ([], s, lastErr)
    else
      let id := env.keys.toStr provider
      let (s, lastErr) := match dial n provider with
        | .dialFailed e => (s, some ("dial holder " ++ id ++ " failed: " ++ e))
        | .dialTimedOut => (s, some ("dial holder " ++ id ++ " timed out (likely departed)"))
        | .transfer got none => (s.addRanges env hash got, lastErr)
        | .transfer got (some e) =>
          (s.addRanges env hash got, some ("fetch from holder " ++ id ++ " failed: " ++ e))
      let (dialed, out) := tryProvidersDialing dial hash s lastErr (n + 1) providers
      (provider :: dialed, out)

/-- The providers `fetch` dials. -/
def dialed (s : BlobSwarm) (dial : ℕ → κ → Attempt) (hash : Digest) (holders : List String) :
    List κ :=
  match parseHolders env holders with
  | .error _ => []
  | .ok providers => (tryProvidersDialing env dial hash s none 0 providers).1

/-- The holder is reachable whenever it is dialed, and serves the whole blob. -/
def Serves (dial : ℕ → κ → Attempt) (hash : Digest) (k : κ) : Prop :=
  ∀ n, ∃ got, dial n k = .transfer got none ∧ env.ranges hash ⊆ got

end BlobSwarm

end XaeroFlux
