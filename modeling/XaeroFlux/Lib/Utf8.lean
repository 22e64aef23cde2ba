import Mathlib.Algebra.GroupWithZero.Nat
import Mathlib.Algebra.Ring.Int.Defs
import Mathlib.Data.List.Basic
import Mathlib.Data.String.Basic

/-!
# Strings by their UTF-8 bytes

A slice of a string by byte offset exists exactly where the offset is the size of some first
characters (`sliceTo_isSome`); elsewhere taking it panics. The lossy decoding of bytes puts a
replacement character for each maximal malformed sequence.
-/

namespace Utf8

/-- Bytes are compared by their arrays, whatever other instance there is. -/
instance (priority := high) instDecidableEqBytes : DecidableEq ByteArray := fun a b =>
  decidable_of_iff (a.data = b.data) ByteArray.ext_iff.symm

def size (cs : List Char) : ℕ := (cs.map Char.utf8Size).sum

@[simp] theorem size_cons (c : Char) (cs : List Char) : size (c :: cs) = c.utf8Size + size cs := by
  simp [size]

theorem size_eq_zero {cs : List Char} : size cs = 0 ↔ cs = [] := by
  rcases cs with _ | ⟨c, cs⟩
  · simp [size]
  · have := c.utf8Size_pos
    simp only [size_cons, reduceCtorEq, iff_false]
    omega

def len (s : String) : ℕ := size s.toList

/-! ## Slices -/

/-- The first characters that take exactly so many bytes, if some do. -/
def takeBytes : List Char → ℕ → Option (List Char)
  | _, 0 => some []
  | [], _ + 1 => none
  | c :: cs, n + 1 =>
    if c.utf8Size ≤ n + 1 then (takeBytes cs (n + 1 - c.utf8Size)).map (c :: ·) else none

theorem takeBytes_eq_some : ∀ {cs p : List Char} {n : ℕ},
    takeBytes cs n = some p ↔ p <+: cs ∧ size p = n
  | cs, p, 0 => by
    rw [takeBytes, Option.some.injEq, size_eq_zero]
    constructor
    · rintro rfl
      exact ⟨List.nil_prefix, rfl⟩
    · rintro ⟨-, rfl⟩
      rfl
  | [], p, n + 1 => by
    simp only [takeBytes, reduceCtorEq, List.prefix_nil, false_iff, not_and]
    rintro rfl
    simp [size]
  | c :: cs, [], n + 1 => by
    simp only [takeBytes, size, List.map_nil, List.sum_nil]
    split_ifs <;> simp
  | c :: cs, d :: p, n + 1 => by
    have ih := @takeBytes_eq_some cs p (n + 1 - c.utf8Size)
    have := c.utf8Size_pos
    simp only [takeBytes, List.cons_prefix_cons, size_cons]
    split_ifs with h
    · simp only [Option.map_eq_some_iff, List.cons.injEq]
      constructor
      · rintro ⟨q, hq, rfl, rfl⟩
        obtain ⟨h1, h2⟩ := ih.1 hq
        exact ⟨⟨rfl, h1⟩, by omega⟩
      · rintro ⟨⟨rfl, h1⟩, h2⟩
        exact ⟨p, ih.2 ⟨h1, by omega⟩, rfl, rfl⟩
    · simp only [false_iff, not_and]
      rintro ⟨rfl, -⟩
      omega

/-- The slice of a string up to a byte offset; there is none where taking it panics. -/
def sliceTo (s : String) (n : ℕ) : Option String := (takeBytes s.toList n).map String.ofList

/-- A slice exists exactly where its end is the end of some first characters. -/
theorem sliceTo_isSome {s : String} {n : ℕ} :
    (sliceTo s n).isSome ↔ ∃ p, p <+: s.toList ∧ size p = n := by
  simp [sliceTo, Option.isSome_iff_exists, takeBytes_eq_some]

theorem size_of_ascii : ∀ {cs : List Char}, (∀ c ∈ cs, c.utf8Size = 1) → size cs = cs.length
  | [], _ => rfl
  | c :: cs, h => by
    have hc := h c List.mem_cons_self
    have ih := size_of_ascii fun d hd => h d (List.mem_cons_of_mem c hd)
    simp only [size_cons, List.length_cons]
    omega

theorem sliceTo_of_ascii {s : String} (h : ∀ c ∈ s.toList, c.utf8Size = 1) {n : ℕ}
    (hn : n ≤ len s) : (sliceTo s n).isSome := by
  have ht : ∀ c ∈ s.toList.take n, c.utf8Size = 1 := fun c hc => h c (List.mem_of_mem_take hc)
  refine sliceTo_isSome.2 ⟨s.toList.take n, List.take_prefix _ _, ?_⟩
  rw [size_of_ascii ht, List.length_take]
  rw [len, size_of_ascii h] at hn
  omega

/-! ## Lossy decoding -/

/-- How many bytes must follow a first byte, and the bounds of the first of them. -/
def lead (b : ℕ) : Option (ℕ × ℕ × ℕ) :=
  if 0xC2 ≤ b ∧ b ≤ 0xDF then some (1, 0x80, 0xBF)
  else if b = 0xE0 then some (2, 0xA0, 0xBF)
  else if b = 0xED then some (2, 0x80, 0x9F)
  else if 0xE1 ≤ b ∧ b ≤ 0xEF then some (2, 0x80, 0xBF)
  else if b = 0xF0 then some (3, 0x90, 0xBF)
  else if 0xF1 ≤ b ∧ b ≤ 0xF3 then some (3, 0x80, 0xBF)
  else if b = 0xF4 then some (3, 0x80, 0x8F)
  else none

/-- How many of the bytes that must follow do. -/
def follow : ℕ → ℕ → ℕ → List ℕ → ℕ
  | n + 1, lo, hi, b :: bs => if lo ≤ b ∧ b ≤ hi then 1 + follow n 0x80 0xBF bs else 0
  | _, _, _, _ => 0

/-- The character of a first byte with `n` to follow, and those. -/
def assemble (n b : ℕ) (bs : List ℕ) : Char :=
  Char.ofNat (bs.foldl (fun acc b => 64 * acc + b % 64) (b % 2 ^ (6 - n)))

/-- The characters of some bytes, each maximal malformed sequence read as `U+FFFD`. -/
def lossy : ℕ → List ℕ → List Char
  | 0, _ => []
  | _, [] => []
  | fuel + 1, b :: bs =>
    if b < 0x80 then Char.ofNat b :: lossy fuel bs
    else match lead b with
      | none => '\uFFFD' :: lossy fuel bs
      | some (n, lo, hi) =>
        (if follow n lo hi bs = n then assemble n b (bs.take n) else '\uFFFD')
          :: lossy fuel (bs.drop (follow n lo hi bs))

/-- `String::from_utf8_lossy`. -/
def fromUtf8Lossy (bytes : ByteArray) : String :=
  String.ofList (lossy bytes.size (bytes.data.toList.map UInt8.toNat))

/-! ## Hexadecimal -/

def hex (bytes : List UInt8) : String :=
  String.ofList (bytes.flatMap fun b => [Nat.digitChar (b.toNat / 16), Nat.digitChar (b.toNat % 16)])

theorem utf8Size_digitChar : ∀ n < 16, (Nat.digitChar n).utf8Size = 1 := by decide

theorem hex_ascii (bytes : List UInt8) : ∀ c ∈ (hex bytes).toList, c.utf8Size = 1 := by
  intro c hc
  simp only [hex, String.toList_ofList, List.mem_flatMap, List.mem_cons, List.not_mem_nil,
    or_false] at hc
  obtain ⟨b, -, rfl | rfl⟩ := hc
  · exact utf8Size_digitChar _ (by have := b.toNat_lt; omega)
  · exact utf8Size_digitChar _ (Nat.mod_lt _ (by decide))

theorem digitChar_inj : ∀ m < 16, ∀ n < 16, Nat.digitChar m = Nat.digitChar n → m = n := by decide

theorem hex_injective : Function.Injective hex := by
  intro a
  induction a with
  | nil =>
    intro b h
    rcases b with _ | ⟨y, b⟩
    · rfl
    · simp [hex] at h
  | cons x a ih =>
    intro b h
    rcases b with _ | ⟨y, b⟩
    · simp [hex] at h
    have hx := x.toNat_lt
    have hy := y.toNat_lt
    have hlist := congrArg String.toList h
    simp only [hex, String.toList_ofList, List.flatMap_cons, List.cons_append, List.nil_append,
      List.cons.injEq] at hlist
    obtain ⟨hhigh, hlow, hrest⟩ := hlist
    have hdiv := digitChar_inj _ (by omega) _ (by omega) hhigh
    have hmod := digitChar_inj _ (by omega) _ (by omega) hlow
    rw [UInt8.toNat_inj.1 (show x.toNat = y.toNat by omega), ih (congrArg String.ofList hrest)]

/-- The bytes of lower-case digits. -/
def unhex : List Char → Option (List UInt8)
  | [] => some []
  | [_] => none
  | a :: b :: cs => do
    let high ← (List.range 16).find? fun n => Nat.digitChar n = a
    let low ← (List.range 16).find? fun n => Nat.digitChar n = b
    let bytes ← unhex cs
    return UInt8.ofNat (16 * high + low) :: bytes

theorem find?_digitChar : ∀ m < 16,
    ((List.range 16).find? fun n => Nat.digitChar n = Nat.digitChar m) = some m := by decide

theorem unhex_hex (bytes : List UInt8) : unhex (bytes.flatMap fun b =>
    [Nat.digitChar (b.toNat / 16), Nat.digitChar (b.toNat % 16)]) = some bytes := by
  induction bytes with
  | nil => rfl
  | cons b bytes ih =>
    have hb := b.toNat_lt
    have hsum : 16 * (b.toNat / 16) + b.toNat % 16 = b.toNat := by omega
    rw [List.flatMap_cons]
    simp only [List.cons_append, List.nil_append, unhex, ih]
    rw [find?_digitChar _ (by omega), find?_digitChar _ (by omega)]
    simp only [Option.bind_eq_bind, Option.bind_some, Option.pure_def, hsum, UInt8.ofNat_toNat]

theorem len_hex (bytes : List UInt8) : len (hex bytes) = 2 * bytes.length := by
  rw [len, size_of_ascii (hex_ascii bytes), hex, String.toList_ofList]
  simp [Nat.mul_comm]

end Utf8
