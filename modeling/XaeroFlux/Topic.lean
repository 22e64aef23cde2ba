import XaeroFlux.Lib.Utf8
import XaeroFlux.Event

/-!
# Topics and the group forwarder

A topic's id is the Blake3 hash of its label. What a group topic carries is not an event but any
bytes, and the forwarder a subscription spawns makes an event of them: its id is the hash of the
content, its source names the group. The id the app gives an event is the hash of the event's other
fields, written in a row.

The log statements cut strings at a byte offset (`short`); a cut that does not exist panics, and
at a level that is not logged no cut is taken (`logs`).
-/

namespace XaeroFlux

/-- A Blake3 hash. -/
abbrev Digest := Vector UInt8 32

def Digest.toHex (d : Digest) : String := Utf8.hex d.toList

/-- The hash of the two bytes of `hi`. -/
def Digest.hi : Digest :=
  #v[0x85, 0x05, 0x2e, 0x9a, 0xab, 0x1b, 0x67, 0xb6, 0x62, 0x2d, 0x94, 0xa0, 0x84, 0x41, 0xb0, 0x9f,
    0xd5, 0xb7, 0xac, 0xa6, 0x1e, 0xe3, 0x60, 0x41, 0x6d, 0x70, 0xde, 0x5d, 0xa6, 0x7d, 0x86, 0xca]

/-- `&s[..16.min(s.len())]`. -/
def short (s : String) : Option String := Utf8.sliceTo s (min 16 (Utf8.len s))

/-- A log statement that cuts these strings is passed, at a level that is logged or not. -/
def logs (enabled : Bool) (cut : List (Option String)) : Bool := !enabled || cut.all Option.isSome

/-! ## Topic ids -/

inductive Topic where
  | discovery (key : String)
  | events (key : String)
  | group (gid : String)
deriving DecidableEq

def Topic.label : Topic → String
  | .discovery key => "cyan/discovery/" ++ key
  | .events key => "cyan/events/" ++ key
  | .group gid => "cyan/group/" ++ gid

/-- `TopicId::from_bytes(blake3::hash(label))`. -/
def Topic.id (blake3 : ByteArray → Digest) (t : Topic) : Digest := blake3 t.label.toUTF8

/-! ## The forwarder of a group topic -/

/-- What the code outside the repository gives a node: its identity, `serde_json`'s reading of an
event, Blake3, and whether the log is at `info` or off. -/
structure Env where
  nodeId : String
  reader : EventReader
  blake3 : ByteArray → Digest
  info : Bool

variable (env : Env)

def groupEvent (gid : String) (content : ByteArray) (now : UInt64) : Event where
  id := (env.blake3 content).toHex
  payload := Utf8.fromUtf8Lossy content
  source := "group/" ++ gid
  ts := now

/-- The forwarder's handling of a message: the event it hands to `event_rx`, or `none` where its
log statement panics. -/
def forwardGroup (gid : String) (content : ByteArray) (now : UInt64) : Option Event :=
  let evt := groupEvent env gid content now
  if logs env.info [short gid, Utf8.sliceTo evt.id 16] then some evt else none

theorem sliceTo_toHex (d : Digest) : (Utf8.sliceTo d.toHex 16).isSome := by
  refine Utf8.sliceTo_of_ascii (Utf8.hex_ascii _) ?_
  rw [Utf8.len_hex, Vector.length_toList]
  decide

theorem Digest.toHex_injective : Function.Injective Digest.toHex := fun _ _ h =>
  Vector.toList_inj.1 (Utf8.hex_injective h)

theorem forwardGroup_isSome {gid : String} {content : ByteArray} {now : UInt64} :
    (forwardGroup env gid content now).isSome ↔ (env.info → (short gid).isSome) := by
  have := sliceTo_toHex (env.blake3 content)
  rcases h : env.info <;> simp [forwardGroup, logs, groupEvent, h, this]

theorem forwardGroup_eq_some {gid : String} {content : ByteArray} {now : UInt64} {e : Event} :
    forwardGroup env gid content now = some e ↔
      (env.info → (short gid).isSome) ∧ e = groupEvent env gid content now := by
  rw [← @forwardGroup_isSome env gid content now]
  simp only [forwardGroup]
  split_ifs
  · simp [eq_comm]
  · simp

/-- The sixth character of a label says which kind of topic it is of. -/
def Topic.tag : Topic → Char
  | .discovery _ => 'd'
  | .events _ => 'e'
  | .group _ => 'g'

theorem Topic.label_tag (t : Topic) : t.label.toList[5]? = some t.tag := by
  rcases t with key | key | gid <;>
    rw [Topic.label, String.toList_append, List.getElem?_append_left (by decide)] <;> rfl

/-- Different topics have different labels, whatever the keys and group ids. -/
theorem Topic.label_injective : Function.Injective Topic.label := by
  intro t t' h
  have htag : t.tag = t'.tag := by
    have := t.label_tag
    rw [h, t'.label_tag] at this
    exact (Option.some.inj this).symm
  rcases t with key | key | gid <;> rcases t' with key' | key' | gid' <;>
    simp only [Topic.tag, Char.reduceEq] at htag <;>
    simpa only [Topic.label, String.append_right_inj, Topic.discovery.injEq, Topic.events.injEq,
      Topic.group.injEq] using h

theorem Topic.eq_of_id_eq {blake3 : ByteArray → Digest} {t t' : Topic}
    (hb : blake3 t.label.toUTF8 = blake3 t'.label.toUTF8 → t.label.toUTF8 = t'.label.toUTF8)
    (h : t.id blake3 = t'.id blake3) : t = t' :=
  Topic.label_injective (String.toByteArray_inj.1 (hb h))

/-! ## The id of an event -/

/-- `format!("{}{}{}", payload, source, ts)`. -/
def eventInput (payload source : String) (ts : UInt64) : String :=
  payload ++ source ++ String.ofList (Nat.toDigits 10 ts.toNat)

def generateEventId (blake3 : ByteArray → Digest) (payload source : String) (ts : UInt64) :
    String :=
  (blake3 (eventInput payload source ts).toUTF8).toHex

/-- The event that `main.rs` makes of a message. -/
def newEvent (blake3 : ByteArray → Digest) (payload source : String) (ts : UInt64) : Event where
  id := generateEventId blake3 payload source ts
  payload := payload
  source := source
  ts := ts

end XaeroFlux
