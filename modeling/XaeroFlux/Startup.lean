import XaeroFlux.Identity
import XaeroFlux.Rendezvous

/-!
# Starts over one key file

What `XaeroFlux::from_config` does for the node's key, one call at a time with what the system
answers it, start after start over one database path. A process may end at any call, inside
`std::fs::write` too.
-/

namespace XaeroFlux

/-- Where `from_config` is: at the call it makes next, or where it returned. -/
inductive Startup.Phase where
  /-- `key_path.exists()` -/
  | exists
  | read
  /-- `getrandom::fill`, for the seed of the key. -/
  | fill
  | createDirAll (key : SecretKey)
  | write (key : SecretKey) (phase : FileSink.Phase)
  /-- The database, its schema and the network actor. -/
  | rest (key : SecretKey)
  | returned (result : Except String SecretKey)

/-- The key file, and the process there is. -/
structure Startup where
  file : Option (List UInt8)
  process : Option Startup.Phase

namespace Startup

inductive Act where
  /-- A process starts; the one before it is gone. -/
  | start
  | stop
  /-- Whether the file is found. It is not if the call fails. -/
  | exists (found : Bool)
  | read (result : Except String Unit)
  | fill (result : Except String SecretKey)
  | createDirAll (result : Except String Unit)
  /-- A call of `std::fs::write`, and how the error it may return reads. -/
  | call (c : FileSink.Call) (error : String)
  | rest (result : Except String Unit)

def bytes (key : SecretKey) : List UInt8 := key.1.data.toList

/-- `std::fs::write`, once a call has returned to it. -/
def settle (key : SecretKey) (error : String) (st : FileSink.State) : Startup where
  file := st.file
  process := some <|
    match st.phase with
    | .returned (.ok ()) => .rest key
    | .returned (.error _) => .returned (.error error)
    | phase => .write key phase

variable (dbPath : String)

def step (s : Startup) (a : Act) : Option Startup :=
  match s.process, a with
  | _, .start => some { s with process := some .exists }
  | _, .stop => some { s with process := none }
  | some .exists, .exists found =>
    if found → s.file.isSome then
      some { s with process := some (if found then .read else .fill) }
    else none
  | some .read, .read (.ok ()) =>
    s.file.map fun content =>
      match SecretKey.fromBytes content.toByteArray with
      | .ok key => { s with process := some (.rest key) }
      | .error e => { s with process := some (.returned (.error e)) }
  | some .read, .read (.error e) => some { s with process := some (.returned (.error e)) }
  | some .fill, .fill (.ok key) =>
    match UnixPath.parent (keyPath dbPath) with
    | some _ => some { s with process := some (.createDirAll key) }
    | none => some { s with process := some (.write key .create) }
  | some .fill, .fill (.error e) =>
    some { s with process := some (.returned (.error ("Failed to get random seed: " ++ e))) }
  | some (.createDirAll key), .createDirAll (.ok ()) =>
    some { s with process := some (.write key .create) }
  | some (.createDirAll _), .createDirAll (.error e) =>
    some { s with process := some (.returned (.error e)) }
  | some (.write key phase), .call c error =>
    (FileSink.step ⟨keyPath dbPath⟩ (bytes key) ⟨s.file, phase⟩ c).map (settle key error)
  | some (.rest key), .rest result =>
    some { s with process := some (.returned (result.map fun _ => key)) }
  | _, _ => none

abbrev run (s : Startup) (as : List Act) : Option Startup := Machine.run (step dbPath) s as

end Startup

end XaeroFlux
