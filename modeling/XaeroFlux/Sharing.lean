import XaeroFlux.Negotiation

/-!
# Sharing blobs

The negotiation with the blobs: nodes add blobs, tell each other of them and fetch them, any number
of fetches at a time. A fetch goes from one dial to the next, and between two of its dials any node
may do anything. What a dialed node sends of a blob is of the ranges it has itself.
-/

namespace XaeroFlux

namespace BlobSwarm

variable {κ : Type} (env : SwarmEnv κ)

/-- The blob added, under its hash. -/
def add (s : BlobSwarm) (data : ByteArray) : Digest × BlobSwarm :=
  let hash := env.blake3 data
  (hash, { s with store := Function.update s.store hash (env.ranges hash) })

/-- What the loop over the providers makes of one dial. -/
def dialProvider (s : BlobSwarm) (hash : Digest) (lastErr : Option String) (provider : κ) :
    Attempt → BlobSwarm × Option String
  | .dialFailed e =>
    (s, some ("dial holder " ++ env.keys.toStr provider ++ " failed: " ++ e))
  | .dialTimedOut =>
    (s, some ("dial holder " ++ env.keys.toStr provider ++ " timed out (likely departed)"))
  | .transfer got none => (s.addRanges env hash got, lastErr)
  | .transfer got (some e) =>
    (s.addRanges env hash got,
      some ("fetch from holder " ++ env.keys.toStr provider ++ " failed: " ++ e))

/-- What `fetch` returns when the loop is done. -/
def surface (s : BlobSwarm) (hash : Digest) (lastErr : Option String) : Except String ByteArray :=
  if s.has env hash then
    let bytes := env.bytes hash
    let computed := env.blake3 bytes
    if computed = hash then .ok bytes
    else .error ("integrity check failed: fetched content hashes to " ++ computed.toHex
      ++ ", expected " ++ hash.toHex)
  else .error (lastErr.getD ("no holder in the set could serve " ++ hash.toHex))

end BlobSwarm

/-- A fetch between two dials, or returned, with what it was asked for and has dialed. -/
structure Fetch (ι κ : Type) where
  node : ι
  hash : Digest
  holders : List String
  /-- The providers not dialed yet. -/
  providers : List κ
  lastErr : Option String
  dialed : List (κ × Attempt)
  result : Option (Except String ByteArray)

namespace Fetch

variable {ι κ : Type} (env : SwarmEnv κ)

/-- `fetch` up to the loop. -/
def begin (i : ι) (hash : Digest) (holders : List String) : Fetch ι κ :=
  let f : Fetch ι κ := ⟨i, hash, holders, [], none, [], none⟩
  if holders.isEmpty then
    { f with result := some (.error ("cannot fetch " ++ hash.toHex ++ ": no holders provided")) }
  else
    match BlobSwarm.parseHolders env holders with
    | .error e => { f with result := some (.error e) }
    | .ok providers => { f with providers }

/-- What is left to do after a dial. -/
def after (f : Fetch ι κ) (provider : κ) (providers : List κ) (a : Attempt)
    (lastErr : Option String) : Fetch ι κ :=
  { f with providers, lastErr, dialed := f.dialed ++ [(provider, a)] }

def returned (s : BlobSwarm) (f : Fetch ι κ) : Fetch ι κ :=
  { f with result := some (s.surface env f.hash f.lastErr) }

/-- One turn of the loop, where the dial, if there is one, comes out as `a`; or else the return. -/
def turn (s : BlobSwarm) (f : Fetch ι κ) (a : Attempt) : BlobSwarm × Fetch ι κ :=
  match f.providers with
  | [] => (s, f.returned env s)
  | provider :: providers =>
    if s.has env f.hash then (s, f.returned env s)
    else
      let (s, lastErr) := s.dialProvider env f.hash f.lastErr provider a
      (s, f.after provider providers a lastErr)

end Fetch

structure Sharing (ι κ : Type) where
  net : Negotiation ι
  /-- Every fetch begun so far. -/
  fetches : List (Fetch ι κ)

namespace Sharing

inductive Act (ι : Type) where
  | add (i : ι) (data : ByteArray)
  | query (i : ι) (hash : Digest)
  | announce (i : ι) (hash : Digest)
  | deliver (i : ι) (m : SwarmMessage)
  | fetch (i : ι) (hash : Digest) (holders : List String)
  /-- The `j`-th fetch goes on; if it dials and a node answers, that is `peer`. -/
  | turn (j : ℕ) (peer : ι) (a : Attempt)

variable {ι κ : Type} [DecidableEq ι] [DecidableEq κ] (env : SwarmEnv κ) (key : ι → κ)

/-- Nothing is in any store yet, and a node's id is its endpoint's. -/
def start : Sharing ι κ where
  net := .start (fun _ _ => ∅) fun i => env.keys.toStr (key i)
  fetches := []

/-- The node that answers is the one dialed, and sends no more of a blob than it has. -/
def sends (net : Negotiation ι) (hash : Digest) (provider : κ) (peer : ι) : Attempt → Bool
  | .transfer got _ => key peer = provider ∧ got ⊆ (net.nodes peer).store hash
  | _ => true

def step (s : Sharing ι κ) : Act ι → Option (Sharing ι κ)
  | .add i data =>
    some { s with net := s.net.setNode i ((s.net.nodes i).add env data).2 }
  | .query i hash => (s.net.step env (.query i hash)).map fun net => { s with net }
  | .announce i hash => (s.net.step env (.announce i hash)).map fun net => { s with net }
  | .deliver i m => (s.net.step env (.deliver i m)).map fun net => { s with net }
  | .fetch i hash holders => some { s with fetches := s.fetches ++ [.begin env i hash holders] }
  | .turn j peer a =>
    match s.fetches[j]? with
    | none => none
    | some f =>
      if f.result.isNone ∧ f.providers.head?.all fun k => sends key s.net f.hash k peer a then
        let (node, f') := f.turn env (s.net.nodes f.node) a
        some { net := s.net.setNode f.node node, fetches := s.fetches.set j f' }
      else none

abbrev run (s : Sharing ι κ) (as : List (Act ι)) : Option (Sharing ι κ) :=
  Machine.run (step env key) s as

end Sharing

end XaeroFlux
