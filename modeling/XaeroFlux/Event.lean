import Mathlib.Algebra.GroupWithZero.Nat
import Mathlib.Algebra.Ring.Int.Defs
import XaeroFlux.Lib.JsonRead
import XaeroFlux.Lib.Keyed

/-!
# Events and the `events` table

An event as the app, the gossip messages and the database have it (`src/lib.rs`). Its bytes on
the wire are those of the derived `Serialize`; reading bytes back is `serde_json`'s, of which the
code relies on `fromSlice_toVec` alone (`EventReader`).
-/

namespace XaeroFlux

@[ext]
structure Event where
  /-- Unique event ID. -/
  id : String
  /-- Application-specific data. -/
  payload : String
  /-- Node ID that created this event. -/
  source : String
  /-- Unix timestamp. -/
  ts : UInt64
deriving DecidableEq

namespace Event

/-- The derived `Serialize`: the fields in the order they are declared. -/
def toJson (e : Event) : Json :=
  .obj [("id", .str e.id), ("payload", .str e.payload), ("source", .str e.source),
    ("ts", .int e.ts.toNat)]

def toVec (e : Event) : ByteArray := e.toJson.toVec

def ofJson (j : Json) : Option Event :=
  match j.get "id", j.get "payload", j.get "source", j.get "ts" with
  | some (.str id), some (.str payload), some (.str source), some (.int ts) =>
    if 0 ≤ ts ∧ ts < 2 ^ 64 then some ⟨id, payload, source, UInt64.ofNat ts.toNat⟩ else none
  | _, _, _, _ => none

theorem ofJson_toJson (e : Event) : ofJson e.toJson = some e := by
  have hlt : (e.ts.toNat : ℤ) < 2 ^ 64 := by exact_mod_cast e.ts.toNat_lt
  have hts : (0 : ℤ) ≤ e.ts.toNat ∧ (e.ts.toNat : ℤ) < 2 ^ 64 := ⟨by omega, hlt⟩
  simp only [ofJson, toJson, Json.get, List.find?, decide_true, Option.map_some, String.reduceEq,
    decide_false, hts, and_self, if_true, Int.toNat_natCast, UInt64.ofNat_toNat]

end Event

/-- `serde_json::from_slice::<Event>`. -/
structure EventReader where
  fromSlice : ByteArray → Option Event
  fromSlice_toVec : ∀ e : Event, fromSlice e.toVec = some e

def EventReader.compact : EventReader where
  fromSlice bytes := (Json.fromSlice bytes).bind Event.ofJson
  fromSlice_toVec e := by
    rw [Event.toVec, Json.fromSlice_toVec, Option.bind_some, Event.ofJson_toJson]

/-! ## The table -/

/-- The `events` table: `id` is its primary key. -/
abbrev EventTable := Keyed Event.id

/-- `ts` can be bound as an SQLite integer, an `i64`. -/
def Event.Bindable (e : Event) : Prop := e.ts.toNat < 2 ^ 63

instance (e : Event) : Decidable e.Bindable := inferInstanceAs (Decidable (_ < _))

/-- `INSERT OR IGNORE INTO events ...`: the table after and the rows changed, or `none` where the
statement fails on its parameters. -/
def EventTable.execInsert (t : EventTable) (e : Event) : Option (EventTable × ℕ) :=
  if e.Bindable then some (t.insertOrIgnore e) else none

theorem EventTable.execInsert_eq_some {t t' : EventTable} {e : Event} {n : ℕ} :
    t.execInsert e = some (t', n) ↔ e.Bindable ∧
      (t.Has e.id ∧ t' = t ∧ n = 0 ∨ ¬ t.Has e.id ∧ t'.rows = t.rows ++ [e] ∧ n = 1) := by
  unfold execInsert
  split_ifs with hb
  · simp only [Option.some.injEq, hb, true_and]
    rcases Keyed.insertOrIgnore_cases t e with ⟨hk, h⟩ | ⟨hk, h1, h2⟩
    · simp [h, hk, eq_comm]
    · rw [Prod.ext_iff, Keyed.ext_iff, h1, h2]
      simp [hk, eq_comm]
  · simp [hb]

end XaeroFlux
