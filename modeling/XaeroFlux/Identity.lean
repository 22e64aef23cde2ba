import XaeroFlux.Lib.UnixPath
import XaeroFlux.Node

/-!
# A node's identity

`XaeroFlux::from_config` keeps the node's secret key in a file beside the database, and two nodes
it started run at once, over two databases or over one.
-/

namespace XaeroFlux

/-- The 32 bytes of a `SecretKey`. -/
abbrev SecretKey := { bytes : ByteArray // bytes.size = 32 }

/-- `bytes.try_into()` and `SecretKey::from_bytes`. -/
def SecretKey.fromBytes (bytes : ByteArray) : Except String SecretKey :=
  if h : bytes.size = 32 then .ok ⟨bytes, h⟩ else .error "Invalid key file"

/-- The file system as `std::fs` and SQLite show it: `φ` are its states, `ν` its files. -/
structure Host (φ ν : Type) where
  pathExists : φ → String → Bool
  read : φ → String → Except String ByteArray
  createDirAll : φ → String → Except String φ
  write : φ → String → ByteArray → Except String φ
  /-- `Connection::open`, then `ensure_schema`. -/
  openDb : φ → String → Except String φ
  file : φ → String → Option ν
  content : φ → ν → Option ByteArray
  /-- The file of the database a path opens, unless it is the connection's own (`:memory:`). -/
  database : φ → String → Option ν
  pathExists_of_file : ∀ {fs path n}, file fs path = some n → pathExists fs path = true
  read_eq_ok : ∀ {fs path bytes}, read fs path = .ok bytes →
    ∃ n, file fs path = some n ∧ content fs n = some bytes
  content_createDirAll : ∀ {fs fs' path}, createDirAll fs path = .ok fs' →
    content fs' = content fs
  write_eq_ok : ∀ {fs fs' path bytes}, write fs path bytes = .ok fs' →
    ∃ n, file fs' path = some n ∧ content fs' n = some bytes ∧ ∀ m ≠ n, content fs' m = content fs m
  /-- SQLite opens no file as short as a key, and makes none. -/
  content_openDb : ∀ {fs fs' path n} {key : SecretKey}, openDb fs path = .ok fs' →
    (content fs' n = some key.1 ↔ content fs n = some key.1)
  file_openDb : ∀ {fs fs' path path' n} {key : SecretKey}, openDb fs path = .ok fs' →
    file fs path' = some n → content fs n = some key.1 → file fs' path' = some n

namespace Host

variable {φ ν : Type} (host : Host φ ν)

def KeysUnique (fs : φ) : Prop :=
  ∀ key : SecretKey, ∀ n m, host.content fs n = some key.1 → host.content fs m = some key.1 → n = m

/-- The key generated, if one is, is in no file. -/
def IsNew (fs : φ) (generated : Except String SecretKey) : Prop :=
  ∀ key, generated = .ok key → ∀ n, host.content fs n ≠ some key.1

def SharedDb (fs : φ) (p q : String) : Prop :=
  ∃ n, host.database fs p = some n ∧ host.database fs q = some n

instance [DecidableEq ν] (fs : φ) (p q : String) : Decidable (host.SharedDb fs p q) :=
  decidable_of_iff (∃ n ∈ host.database fs p, host.database fs q = some n) Iff.rfl

end Host

/-! ## `from_config` -/

section FromConfig

variable {φ ν : Type} (host : Host φ ν) (generated : Except String SecretKey)

def keyPath (dbPath : String) : String :=
  UnixPath.join ((UnixPath.parent dbPath).getD ".") "node.key"

def createParent (path : String) (fs : φ) : Except String φ :=
  match UnixPath.parent path with
  | some parent => host.createDirAll fs parent
  | none => .ok fs

/-- The key of the file, or else the one generated, written to it. -/
def loadKey (path : String) (fs : φ) : Except String (φ × SecretKey) :=
  if host.pathExists fs path then do
    let bytes ← host.read fs path
    let key ← SecretKey.fromBytes bytes
    .ok (fs, key)
  else do
    let key ← generated.mapError ("Failed to get random seed: " ++ ·)
    let fs ← createParent host path fs
    let fs ← host.write fs path key.1
    .ok (fs, key)

/-- What `from_config` leaves on the file system, and the key of the node it starts. -/
def fromConfig (dbPath : String) (fs : φ) : Except String (φ × SecretKey) := do
  let (fs, key) ← loadKey host generated (keyPath dbPath) fs
  let fs ← host.openDb fs dbPath
  .ok (fs, key)

end FromConfig

/-! ## Two nodes at once -/

abbrev Pair := Bool → Node

namespace Pair

def start (tables : Bool → EventTable) : Pair := fun i => Node.start (tables i)

/-- What the other node has of a node's step: its rows, where the two are over one database. -/
def step (env : Bool → Env) (shared : Bool) (s : Pair) : Bool × Act → Option Pair
  | (i, a) => (Node.step (env i) (s i) a).map fun n j =>
    if j = i then n else if shared then { s j with events := n.events } else s j

abbrev run (env : Bool → Env) (shared : Bool) (s : Pair) (as : List (Bool × Act)) : Option Pair :=
  Machine.run (step env shared) s as

def actsOf (i : Bool) (as : List (Bool × Act)) : List Act :=
  as.filterMap fun x => if x.1 = i then some x.2 else none

/-- While `i` handles the event, its process goes on, the database does not fail its network
actor, and the event's id is inserted by nothing else. -/
structure Undisturbed (i : Bool) (e : Event) (as : List (Bool × Act)) : Prop where
  goes_on : (i, .restart) ∉ as
  inserts : ∀ e', (i, .insertNetwork e' none) ∉ as
  only : ∀ x ∈ as, ∀ e', x.2.inserts = some e' → e'.id = e.id → x = (i, .insertNetwork e (some 1))

/-- What either node submits as its own event, and gossip delivers to the other, the other stores
and hands over, if it has no event of its id. -/
def Syncs (env : Bool → Env) (shared : Bool) : Prop :=
  ∀ tables as s, (shared → tables false = tables true) →
    run env shared (start tables) as = some s →
    ∀ i e, e.source = (env i).nodeId → e ∈ submitted (actsOf i as) → e ∈ broadcasted (actsOf i as) →
    ¬ (s !i).events.Has e.id → ∀ bs s', Undisturbed (!i) e bs →
    run env shared s ((!i, .recvGossip e.toVec) :: bs) = some s' → (s' !i).network = .waiting →
    e ∈ (s' !i).events.rows ∧ e ∈ forwarded (actsOf (!i) bs)

end Pair

def nodesOf (env : Bool → Env) (nodeId : SecretKey → String) (k l : SecretKey) : Bool → Env
  | false => { env false with nodeId := nodeId k }
  | true => { env true with nodeId := nodeId l }

end XaeroFlux
