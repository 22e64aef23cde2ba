import XaeroFlux.Topic

/-!
# What an event's id tells apart

An id is the hash of payload, source and timestamp written in a row, and nothing between them says
where one ends. A source has a known length, a timestamp has not, so the same text can be cut in a
second way: with the last characters of a source as the first digits of a timestamp
(`List.append_append_eq_iff`). Two events get one id exactly if they are one text cut in both ways
(`newEvent_ids_iff`).
-/

namespace List

variable {α : Type*} {a b c a' b' c' : List α}

/-- Both boundaries move by as many elements: the end `u` of `a` begins `b'`, and the end `w` of `b`
begins `c'`. -/
def Shifted (a b c a' b' c' : List α) : Prop :=
  ∃ u v w, u ≠ [] ∧ a = a' ++ u ∧ b' = u ++ v ∧ b = v ++ w ∧ c' = w ++ c

theorem Shifted.append_eq (h : Shifted a b c a' b' c') : a ++ b ++ c = a' ++ b' ++ c' := by
  obtain ⟨u, v, w, -, rfl, rfl, rfl, rfl⟩ := h
  simp

/-- Last parts of one length leave no room for a shift. -/
theorem not_shifted (hb : b.length = b'.length) (hc : c.length = c'.length) :
    ¬ Shifted a b c a' b' c' := by
  rintro ⟨u, v, w, hu, -, rfl, rfl, rfl⟩
  rw [length_append] at hc
  rw [length_append, length_append] at hb
  have := length_pos_iff.2 hu
  omega

theorem shifted_of_append {u : List α} (hb : b.length = b'.length) (hc' : c'.length < b.length)
    (hu : u ≠ []) (h : b' ++ c' = u ++ (b ++ c)) : Shifted (a' ++ u) b c a' b' c' := by
  have hpos := length_pos_iff.2 hu
  have hlen := congrArg length h
  simp only [length_append] at hlen
  rcases append_eq_append_iff.1 h with ⟨v, rfl, -⟩ | ⟨v, rfl, hv⟩
  · -- `u` would be longer than the last part
    rw [length_append] at hlen
    omega
  rcases append_eq_append_iff.1 hv with ⟨w, rfl, -⟩ | ⟨w, rfl, hw⟩
  · -- the middle parts would differ in length
    simp only [length_append] at hb
    omega
  · exact ⟨u, v, w, hu, rfl, rfl, rfl, hw⟩

/-- Three parts in a row, the middle one of a known length and longer than the last, are found
again up to a shift. -/
theorem append_append_eq_iff (hb : b.length = b'.length) (hc : c.length < b.length)
    (hc' : c'.length < b.length) :
    a ++ b ++ c = a' ++ b' ++ c' ↔
      (a = a' ∧ b = b' ∧ c = c') ∨ Shifted a b c a' b' c' ∨ Shifted a' b' c' a b c := by
  constructor
  · intro h
    rw [append_assoc, append_assoc] at h
    rcases append_eq_append_iff.1 h with ⟨u, rfl, hu⟩ | ⟨u, rfl, hu⟩
    · rcases eq_or_ne u [] with rfl | hne
      · obtain ⟨rfl, rfl⟩ := append_inj (hu.trans (nil_append _)) hb
        exact .inl ⟨(append_nil a).symm, rfl, rfl⟩
      · exact .inr (.inr (shifted_of_append hb.symm (hb ▸ hc) hne hu))
    · rcases eq_or_ne u [] with rfl | hne
      · obtain ⟨rfl, rfl⟩ := append_inj (hu.trans (nil_append _)) hb.symm
        exact .inl ⟨append_nil a', rfl, rfl⟩
      · exact .inr (.inl (shifted_of_append hb hc' hne hu))
  · rintro (⟨rfl, rfl, rfl⟩ | h | h)
    · rfl
    · exact h.append_eq
    · exact h.append_eq.symm

end List

namespace XaeroFlux

/-- 64 lowercase hex characters. -/
def IsNodeId (s : String) : Prop :=
  s.toList.length = 64 ∧ s.toList.all fun c => c.isDigit || 'a' ≤ c && c ≤ 'f'

instance (s : String) : Decidable (IsNodeId s) := inferInstanceAs (Decidable (_ ∧ _))

theorem length_digits (ts : UInt64) : (Nat.toDigits 10 ts.toNat).length < 64 := by
  have hlen : (Nat.toDigits 10 ts.toNat).length ≤ 20 := by
    rw [Nat.length_toDigits_le_iff (by decide) (by decide)]
    exact ts.toNat_lt.trans (by decide)
  omega

theorem digits_injective {ts ts' : UInt64}
    (h : Nat.toDigits 10 ts.toNat = Nat.toDigits 10 ts'.toNat) : ts = ts' := by
  have hval := congrArg (fun ds => Nat.ofDigitChars 10 ds 0) h
  simp only [Nat.ofDigitChars_ten_toDigits] at hval
  exact UInt64.toNat_inj.1 hval

/-- The second triple's boundaries lie earlier in the same text: its source begins with the end of
the first payload, its timestamp with the end of the first source. -/
def BoundaryShifted (payload source : String) (ts : UInt64) (payload' source' : String)
    (ts' : UInt64) : Prop :=
  List.Shifted payload.toList source.toList (Nat.toDigits 10 ts.toNat)
    payload'.toList source'.toList (Nat.toDigits 10 ts'.toNat)

variable {payload source payload' source' : String} {ts ts' : UInt64}

theorem toList_eventInput : (eventInput payload source ts).toList
    = payload.toList ++ source.toList ++ Nat.toDigits 10 ts.toNat := by
  simp [eventInput]

theorem eventInput_eq_iff (hs : IsNodeId source) (hs' : IsNodeId source') :
    eventInput payload source ts = eventInput payload' source' ts' ↔
      (payload = payload' ∧ source = source' ∧ ts = ts')
        ∨ BoundaryShifted payload source ts payload' source' ts'
        ∨ BoundaryShifted payload' source' ts' payload source ts := by
  have hlen := hs.1
  have hdigits : Nat.toDigits 10 ts.toNat = Nat.toDigits 10 ts'.toNat ↔ ts = ts' :=
    ⟨digits_injective, fun h => by rw [h]⟩
  rw [← String.toList_inj, toList_eventInput, toList_eventInput,
    List.append_append_eq_iff (hlen.trans hs'.1.symm) (hlen ▸ length_digits ts)
      (hlen ▸ length_digits ts'), String.toList_inj, String.toList_inj, hdigits]
  rfl

theorem generateEventId_eq_iff {blake3 : ByteArray → Digest}
    (hb : blake3 (eventInput payload source ts).toUTF8
        = blake3 (eventInput payload' source' ts').toUTF8 →
      (eventInput payload source ts).toUTF8 = (eventInput payload' source' ts').toUTF8) :
    generateEventId blake3 payload source ts = generateEventId blake3 payload' source' ts' ↔
      eventInput payload source ts = eventInput payload' source' ts' := by
  constructor
  · intro h
    exact String.toByteArray_inj.1 (hb (Digest.toHex_injective h))
  · intro h
    rw [generateEventId, h]
    rfl

/-- Without a collision of the hash, two triples get different ids where they differ, and neither
event is taken for the other in the table, exactly if neither is the other with its boundaries
shifted. -/
theorem newEvent_ids_iff {blake3 : ByteArray → Digest} (hs : IsNodeId source)
    (hs' : IsNodeId source')
    (hb : blake3 (eventInput payload source ts).toUTF8
        = blake3 (eventInput payload' source' ts').toUTF8 →
      (eventInput payload source ts).toUTF8 = (eventInput payload' source' ts').toUTF8) :
    ((generateEventId blake3 payload source ts = generateEventId blake3 payload' source' ts' →
        payload = payload' ∧ source = source' ∧ ts = ts')
      ∧ ∀ t t' : EventTable,
        t.find (newEvent blake3 payload source ts).id
            = some (newEvent blake3 payload' source' ts') →
          t.execInsert (newEvent blake3 payload source ts) = some (t', 0) →
            newEvent blake3 payload source ts ∈ t') ↔
      ¬ BoundaryShifted payload source ts payload' source' ts'
        ∧ ¬ BoundaryShifted payload' source' ts' payload source ts := by
  rw [generateEventId_eq_iff hb, eventInput_eq_iff hs hs']
  have hunshifted : payload = payload' ∧ source = source' ∧ ts = ts' →
      ¬ BoundaryShifted payload source ts payload' source' ts'
        ∧ ¬ BoundaryShifted payload' source' ts' payload source ts := by
    rintro ⟨rfl, rfl, rfl⟩
    exact ⟨List.not_shifted rfl rfl, List.not_shifted rfl rfl⟩
  constructor
  · intro ⟨h, _⟩
    exact ⟨fun hshift => (hunshifted (h (.inr (.inl hshift)))).1 hshift,
      fun hshift => (hunshifted (h (.inr (.inr hshift)))).2 hshift⟩
  · intro ⟨hfst, hsnd⟩
    have hsame (h : (payload = payload' ∧ source = source' ∧ ts = ts')
        ∨ BoundaryShifted payload source ts payload' source' ts'
        ∨ BoundaryShifted payload' source' ts' payload source ts) :
        payload = payload' ∧ source = source' ∧ ts = ts' :=
      h.resolve_right fun h => h.elim hfst hsnd
    refine ⟨hsame, fun t t' hfind hinsert => ?_⟩
    obtain ⟨hmem, hid⟩ := Keyed.find_eq_some.1 hfind
    -- the row under the id is the event itself
    obtain ⟨rfl, rfl, rfl⟩ :=
      hsame ((eventInput_eq_iff hs hs').1 ((generateEventId_eq_iff hb).1 hid.symm))
    obtain ⟨-, ⟨-, rfl, -⟩ | ⟨-, -, hrows⟩⟩ := EventTable.execInsert_eq_some.1 hinsert
    · exact hmem
    · cases hrows

/-- A source. -/
def author : String := "d75a980182b10ab7d54bfed3c964073a0ee172f3daa62325af021a68f707511a"

/-- Hashes the inputs of two events, `hi` and `yo` of `author`. -/
def hashTwo (bytes : ByteArray) : Digest :=
  if bytes = (eventInput "hi" author 1700000000).toUTF8 then
    #v[0xc4, 0x79, 0x39, 0x69, 0x28, 0xe1, 0x9a, 0xa0, 0x04, 0x43, 0x17, 0xaa, 0x1e, 0x52, 0xfd,
      0x57, 0x40, 0x4b, 0x29, 0xc7, 0x68, 0x71, 0xf6, 0x2d, 0x61, 0x1e, 0x21, 0x3e, 0x63, 0x61,
      0xb1, 0xad]
  else
    #v[0x6f, 0x61, 0xd9, 0x48, 0x45, 0xfe, 0x86, 0x2c, 0xfb, 0xaa, 0xdf, 0xbf, 0x7f, 0x56, 0x9d,
      0xc3, 0xa7, 0xd6, 0x9e, 0x55, 0x3e, 0xff, 0xc9, 0xfd, 0xb6, 0x5e, 0x56, 0x70, 0x2e, 0x7b,
      0x81, 0x54]

theorem newEvent_ids_hi_yo :
    (generateEventId hashTwo "hi" author 1700000000
          = generateEventId hashTwo "yo" author 1700000000 →
        "hi" = "yo" ∧ author = author ∧ (1700000000 : UInt64) = 1700000000)
      ∧ ∀ t t' : EventTable,
        t.find (newEvent hashTwo "hi" author 1700000000).id
            = some (newEvent hashTwo "yo" author 1700000000) →
          t.execInsert (newEvent hashTwo "hi" author 1700000000) = some (t', 0) →
            newEvent hashTwo "hi" author 1700000000 ∈ t' := by
  have hne : (eventInput "yo" author 1700000000).toUTF8
      ≠ (eventInput "hi" author 1700000000).toUTF8 := by decide
  have hb : hashTwo (eventInput "hi" author 1700000000).toUTF8
        = hashTwo (eventInput "yo" author 1700000000).toUTF8 →
      (eventInput "hi" author 1700000000).toUTF8 = (eventInput "yo" author 1700000000).toUTF8 := by
    rw [hashTwo, if_pos rfl, hashTwo, if_neg hne]
    intro h
    revert h
    decide
  exact (newEvent_ids_iff (by decide) (by decide) hb).2
    ⟨List.not_shifted rfl rfl, List.not_shifted rfl rfl⟩

/-- Sixty-three characters of a source. -/
def stem : String := "bbbbbbbbbbbbbbbbbbbbbbbbbbbbbbbbbbbbbbbbbbbbbbbbbbbbbbbbbbbbbbb"

/-- A payload that ends in the first character of the other's source, and a source that ends in the
first digit of the other's timestamp. -/
theorem shifted_ids_equal : ¬ ∀ (blake3 : ByteArray → Digest)
    (payload source payload' source' : String) (ts ts' : UInt64),
    IsNodeId source → IsNodeId source' →
    (blake3 (eventInput payload source ts).toUTF8
        = blake3 (eventInput payload' source' ts').toUTF8 →
      (eventInput payload source ts).toUTF8 = (eventInput payload' source' ts').toUTF8) →
    generateEventId blake3 payload source ts = generateEventId blake3 payload' source' ts' →
      payload = payload' ∧ source = source' ∧ ts = ts' := by
  intro h
  have hinput : eventInput "hia" (stem ++ "1") 5 = eventInput "hi" ("a" ++ stem) 15 := by decide
  have heq := h (fun _ => Digest.hi) "hia" (stem ++ "1") "hi" ("a" ++ stem) 5 15 (by decide)
    (by decide) (fun _ => by rw [hinput]) rfl
  exact absurd heq.1 (by decide)

end XaeroFlux
