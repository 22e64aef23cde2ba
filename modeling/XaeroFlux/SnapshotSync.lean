import XaeroFlux.Lib.Machine
import XaeroFlux.Snapshot

/-!
# The snapshot protocol

Nodes that feed their providers, ask each other for snapshots, offer them and download them. A
message is broadcast once and comes to any node at any time, any number of times or never. Between
a download's request, the provider's reply to it and the reply's arrival, any node may do anything;
the reply comes whole, cut short or not at all. The nodes' logs are at `info` or not.
-/

namespace XaeroFlux

/-- A download under way, or returned. -/
structure Download (ι : Type) where
  node : ι
  provider : String
  groupId : String
  /-- What the provider wrote on the stream. -/
  reply : Option (List UInt8)
  /-- What came of `serve_snapshot`. -/
  served : Option (Exec (Except String Unit))
  /-- What came of the connection. -/
  received : Option (Except String (List UInt8))
  /-- What came of `download_snapshot`. -/
  result : Option (Exec (Except String GroupSnapshot))

structure SnapshotSync (ι : Type) where
  providers : ι → SnapshotProvider
  requesters : ι → SnapshotRequester
  /-- Every message broadcast so far. -/
  sent : List SnapshotMessage
  /-- Every download begun so far. -/
  downloads : List (Download ι)

namespace SnapshotSync

inductive Act (ι : Type) where
  | update (i : ι) (groupId : String) (event : Event)
  | request (i : ι) (groupId : String)
  /-- A request comes, and the node's answer to it is broadcast. -/
  | answer (i : ι) (m : SnapshotMessage)
  | download (i : ι) (provider groupId : String)
  /-- The `j`-th download's request comes to the node, and the stream answers its writes so. -/
  | serve (i : ι) (j : ℕ) (written : Except String Unit)
  | finish (j : ℕ) (received : Except String (List UInt8))
  | markSynced (i : ι) (groupId : String) (ts : UInt64)

variable {ι κ : Type} [DecidableEq ι] [DecidableEq κ] (env : RequesterEnv κ)
  (fromStr : String → Option Json) (checks : Bool) (info : ι → Bool) (key : ι → κ)

/-- A node's id is its endpoint's. -/
def start : SnapshotSync ι where
  providers i := .new (env.keys.toStr (key i))
  requesters i := .new (env.keys.toStr (key i))
  sent := []
  downloads := []

def send (s : SnapshotSync ι) (m : SnapshotMessage) : SnapshotSync ι :=
  { s with sent := s.sent ++ [m] }

def setProvider (s : SnapshotSync ι) (i : ι) (p : SnapshotProvider) : SnapshotSync ι :=
  { s with providers := Function.update s.providers i p }

def setRequester (s : SnapshotSync ι) (i : ι) (r : SnapshotRequester) : SnapshotSync ι :=
  { s with requesters := Function.update s.requesters i r }

def setDownload (s : SnapshotSync ι) (j : ℕ) (d : Download ι) : SnapshotSync ι :=
  { s with downloads := s.downloads.set j d }

/-- Bytes come only of a reply, and in its order. -/
def arrives (d : Download ι) : Except String (List UInt8) → Bool
  | .ok bytes => d.reply.any bytes.isPrefixOf
  | .error _ => true

def step (s : SnapshotSync ι) : Act ι → Option (SnapshotSync ι)
  | .update i groupId event =>
    some (s.setProvider i ((s.providers i).updateFromEvent fromStr groupId event))
  | .request i groupId => some (s.send ((s.requesters i).createRequest groupId))
  | .answer i m =>
    if m ∈ s.sent then
      match m with
      | .requestSnapshot groupId _ _ =>
        match (s.providers i).handleRequest checks groupId with
        | some (some reply) => some (s.send reply)
        -- nothing to offer, or the count panicked
        | _ => some s
      | .snapshotAvailable .. => some s
    else none
  | .download i provider groupId =>
    some { s with downloads := s.downloads ++ [⟨i, provider, groupId, none, none, none, none⟩] }
  | .serve i j written =>
    match s.downloads[j]? with
    | none => none
    | some d =>
      if d.reply.isNone ∧ d.result.isNone
          ∧ (env.keys.fromStr d.provider).toOption = some (key i) then
        -- where there is nothing to serve the stream is closed with nothing on it
        let (reply, served) := (s.providers i).serveSnapshotLogging (info i) written d.groupId
        some (s.setDownload j { d with reply := some reply, served := some served })
      else none
  | .finish j received =>
    match s.downloads[j]? with
    | none => none
    | some d =>
      if d.result.isNone ∧ arrives d received then
        let (result, r) :=
          (s.requesters d.node).downloadSnapshotLogging env (info d.node) (fun _ _ => received)
            d.provider d.groupId
        some ((s.setRequester d.node r).setDownload j
          { d with received := some received, result := some result })
      else none
  | .markSynced i groupId ts => some (s.setRequester i ((s.requesters i).markSynced groupId ts))

abbrev run (s : SnapshotSync ι) (as : List (Act ι)) : Option (SnapshotSync ι) :=
  Machine.run (step env fromStr checks info key) s as

/-- What the node's provider was given, in order. -/
def given (as : List (Act ι)) (i : ι) : List (String × Event) :=
  as.filterMap fun
    | .update j groupId event => if j = i then some (groupId, event) else none
    | _ => none

end SnapshotSync

end XaeroFlux
