import XaeroFlux.Lib.Json

/-!
# The reader gives back what was written

Token by token: the digits of a number end where the text past it does not go on with one
(`Stops`), and an escaped string ends at its own closing quote. The values follow by recursion on
the value, its items and its fields.
-/

namespace Json

/-- The text past a number does not read on as one. -/
def Stops (cs : List Char) : Prop := ∀ c ∈ cs.head?, ¬ c.isDigit ∧ c ≠ 'e'

@[simp] theorem stops_nil : Stops [] := by simp [Stops]

theorem stops_cons {c : Char} {cs : List Char} (h : ¬ c.isDigit) (he : c ≠ 'e') :
    Stops (c :: cs) := by
  simp only [Stops, List.head?_cons, Option.mem_def, Option.some.injEq]
  rintro _ rfl
  exact ⟨h, he⟩

/-! ## Numbers -/

theorem isDigit_of_mem_toDigits {n : ℕ} {c : Char} (h : c ∈ Nat.toDigits 10 n) : c.isDigit :=
  Nat.isDigit_of_mem_toDigits (by decide) (by decide) h

theorem toDigits_eq_cons (n : ℕ) : ∃ d ds, Nat.toDigits 10 n = d :: ds ∧ d.isDigit := by
  rcases h : Nat.toDigits 10 n with _ | ⟨d, ds⟩
  · exact absurd h Nat.toDigits_ne_nil
  · exact ⟨d, ds, rfl, isDigit_of_mem_toDigits (h ▸ List.mem_cons_self)⟩

theorem takeWhile_digits {ds rest : List Char} (hd : ∀ c ∈ ds, c.isDigit)
    (hr : ∀ c ∈ rest.head?, ¬ c.isDigit) :
    (ds ++ rest).takeWhile Char.isDigit = ds ∧ (ds ++ rest).dropWhile Char.isDigit = rest := by
  rw [List.takeWhile_append_of_pos hd, List.dropWhile_append_of_pos hd]
  rcases rest with _ | ⟨c, cs⟩
  · simp
  · have hc : ¬ c.isDigit := hr c (by simp)
    simp [hc]

theorem readNat_toDigits (n : ℕ) {rest : List Char} (hr : ∀ c ∈ rest.head?, ¬ c.isDigit) :
    readNat (Nat.toDigits 10 n ++ rest) = some (n, rest) := by
  obtain ⟨ht, hd⟩ := takeWhile_digits (fun c => isDigit_of_mem_toDigits (n := n)) hr
  simp only [readNat, ht, hd, Nat.toDigits_ne_nil, if_false, Nat.ofDigitChars_ten_toDigits]

theorem readInt_writeInt (n : ℤ) {rest : List Char} (hr : ∀ c ∈ rest.head?, ¬ c.isDigit) :
    readInt (writeInt n ++ rest) = some (n, rest) := by
  rcases n with n | n
  · obtain ⟨d, ds, hds, hdig⟩ := toDigits_eq_cons n
    have hne : d ≠ '-' := by rintro rfl; simp at hdig
    have h := readNat_toDigits n hr
    simp only [writeInt, hds, List.cons_append] at h ⊢
    rw [readInt, h]
    · simp
    · rintro cs h'
      exact hne (List.cons.inj h').1
  · simp only [writeInt, List.cons_append, readInt, readNat_toDigits (n + 1) hr, Option.map_some,
      Option.some.injEq, Prod.mk.injEq, and_true]
    omega

theorem writeInt_eq_cons (n : ℤ) : ∃ c cs, writeInt n = c :: cs ∧ (c.isDigit ∨ c = '-') := by
  rcases n with n | n
  · obtain ⟨d, ds, h, hd⟩ := toDigits_eq_cons n
    exact ⟨d, ds, h, .inl hd⟩
  · exact ⟨_, _, rfl, .inr rfl⟩

theorem readNum_int (n : ℤ) {rest : List Char} (h : Stops rest) :
    readNum (writeInt n ++ rest) = some (.int n, rest) := by
  rw [readNum, readInt_writeInt n fun c hc => (h c hc).1]
  rcases rest with _ | ⟨c, cs⟩
  · rfl
  · have hc : c ≠ 'e' := (h c (by simp)).2
    split
    · rename_i heq
      simp only [Option.some.injEq, Prod.mk.injEq, List.cons.injEq] at heq
      exact absurd heq.2.1 hc
    · rename_i heq
      simp only [Option.some.injEq, Prod.mk.injEq] at heq
      rw [heq.1, heq.2]
    · rename_i heq
      simp at heq

theorem readNum_dec (m e : ℤ) {rest : List Char} (h : Stops rest) :
    readNum ((writeInt m ++ 'e' :: writeInt e) ++ rest) = some (.dec m e, rest) := by
  have hm : readInt (writeInt m ++ ('e' :: (writeInt e ++ rest)))
      = some (m, 'e' :: (writeInt e ++ rest)) := readInt_writeInt m (by simp)
  rw [List.append_assoc, List.cons_append, readNum, hm]
  simp only [readInt_writeInt e fun c hc => (h c hc).1, Option.map_some]

/-- A text that starts as a number does reads as one. -/
theorem readAt_num {fuel : ℕ} {c : Char} {cs : List Char} (h : c.isDigit ∨ c = '-') :
    readAt (fuel + 1) (c :: cs) = readNum (c :: cs) := by
  have hne : ∀ d : Char, ¬ d.isDigit → d ≠ '-' → c ≠ d := by
    rintro d hd hm rfl
    exact h.elim hd hm
  rw [readAt]
  · rintro rest h'; exact hne 'n' (by decide) (by decide) (List.cons.inj h').1
  · rintro rest h'; exact hne 't' (by decide) (by decide) (List.cons.inj h').1
  · rintro rest h'; exact hne 'f' (by decide) (by decide) (List.cons.inj h').1
  · rintro rest h'; exact hne '"' (by decide) (by decide) (List.cons.inj h').1
  · rintro rest h'; exact hne '[' (by decide) (by decide) (List.cons.inj h').1
  · rintro rest h'; exact hne '[' (by decide) (by decide) (List.cons.inj h').1
  · rintro rest h'; exact hne '{' (by decide) (by decide) (List.cons.inj h').1
  · rintro rest h'; exact hne '{' (by decide) (by decide) (List.cons.inj h').1

/-! ## Strings -/

theorem hexVal_digitChar : ∀ n < 16, hexVal (Nat.digitChar n) = some n := by decide

theorem char_of_toNat {c d : Char} (h : c.toNat = d.toNat) : c = d := by
  rw [← Char.ofNat_toNat c, h, Char.ofNat_toNat]

theorem readChars_escape (c : Char) (cs : List Char) :
    readChars (escape c ++ cs) = (readChars cs).map fun p => (c :: p.1, p.2) := by
  unfold escape
  split_ifs with h1 h2 h3 h4 h5 h6 h7 h8
  · subst h1; rcases h : readChars cs <;> simp [readChars, unescape, h]
  · subst h2; rcases h : readChars cs <;> simp [readChars, unescape, h]
  · subst h3; rcases h : readChars cs <;> simp [readChars, unescape, h]
  · subst h4; rcases h : readChars cs <;> simp [readChars, unescape, h]
  · subst h5; rcases h : readChars cs <;> simp [readChars, unescape, h]
  · obtain rfl : c = Char.ofNat 8 := char_of_toNat h6
    rcases h : readChars cs <;> simp [readChars, unescape, h]
  · obtain rfl : c = Char.ofNat 12 := char_of_toNat h7
    rcases h : readChars cs <;> simp [readChars, unescape, h]
  · have hc : Char.ofNat (16 * (c.toNat / 16) + c.toNat % 16) = c := by
      rw [Nat.div_add_mod, Char.ofNat_toNat]
    simp only [List.cons_append, List.nil_append, readChars,
      hexVal_digitChar (c.toNat / 16) (by omega), hexVal_digitChar (c.toNat % 16) (by omega)]
    rcases readChars cs with _ | p
    · rfl
    · simp only [hc, Option.map_some]
  · rw [List.cons_append, List.nil_append, readChars]
    · exact h1
    · rintro a b cs' h -
      exact h2 h
    · rintro c' cs' h -
      exact h2 h

theorem readChars_flatMap (rest : List Char) :
    ∀ s : List Char, readChars (s.flatMap escape ++ '"' :: rest) = some (s, rest)
  | [] => by simp [readChars]
  | c :: s => by
    rw [List.flatMap_cons, List.append_assoc, readChars_escape, readChars_flatMap rest s]
    rfl

theorem readStr_writeStr (s : String) (rest : List Char) :
    readStr (writeStr s ++ rest) = some (s, rest) := by
  simp [readStr, writeStr, readChars_flatMap]

/-! ## Values -/

theorem write_eq_cons (j : Json) : ∃ c cs, write j = c :: cs ∧ c ≠ ']' := by
  rcases j with _ | _ | n | ⟨m, e⟩ | s | js | fs
  · exact ⟨_, _, rfl, by decide⟩
  · rename_i b
    cases b <;> exact ⟨_, _, rfl, by decide⟩
  · obtain ⟨c, cs, h, hc⟩ := writeInt_eq_cons n
    exact ⟨c, cs, h, by rintro rfl; revert hc; decide⟩
  · obtain ⟨c, cs, h, hc⟩ := writeInt_eq_cons m
    exact ⟨c, cs ++ 'e' :: writeInt e, by simp [write, h], by rintro rfl; revert hc; decide⟩
  · exact ⟨_, _, rfl, by decide⟩
  · rcases js with _ | ⟨j, js⟩ <;> exact ⟨_, _, rfl, by decide⟩
  · rcases fs with _ | ⟨⟨k, j⟩, fs⟩ <;> exact ⟨_, _, rfl, by decide⟩

theorem stops_writeItems (js : List Json) (rest : List Char) : Stops (writeItems js ++ rest) := by
  rcases js with _ | ⟨j, js⟩ <;> exact stops_cons (by decide) (by decide)

theorem stops_writeFields (fs : List (String × Json)) (rest : List Char) :
    Stops (writeFields fs ++ rest) := by
  rcases fs with _ | ⟨⟨k, j⟩, fs⟩ <;> exact stops_cons (by decide) (by decide)

theorem readField_of_readAt {k : String} {j : Json} {fuel : ℕ} {rest : List Char}
    (h : readAt fuel (write j ++ rest) = some (j, rest)) :
    readField (fuel + 1) (writeStr k ++ ':' :: (write j ++ rest)) = some ((k, j), rest) := by
  simp only [readField, readStr_writeStr, h, Option.map_some]

mutual

/-- The reader gives back a written value and leaves the text past it. -/
theorem readAt_write : ∀ (j : Json) {fuel : ℕ} {rest : List Char}, (write j).length ≤ fuel →
    Stops rest → readAt fuel (write j ++ rest) = some (j, rest)
  | j, 0, rest, hf, _ => by
    obtain ⟨c, cs, h, -⟩ := write_eq_cons j
    simp [h] at hf
  | .null, _ + 1, rest, _, _ => by simp [write, readAt]
  | .bool true, _ + 1, rest, _, _ => by simp [write, readAt]
  | .bool false, _ + 1, rest, _, _ => by simp [write, readAt]
  | .int n, _ + 1, rest, _, hr => by
    obtain ⟨c, cs, h, hc⟩ := writeInt_eq_cons n
    rw [← readNum_int n hr, write, h, List.cons_append, readAt_num hc]
  | .dec m e, _ + 1, rest, _, hr => by
    obtain ⟨c, cs, h, hc⟩ := writeInt_eq_cons m
    rw [← readNum_dec m e hr, write, h, List.cons_append, List.cons_append, readAt_num hc]
  | .str s, _ + 1, rest, _, _ => by
    have h := readStr_writeStr s rest
    simp only [writeStr, List.cons_append] at h
    simp only [write, writeStr, List.cons_append, readAt, h, Option.map_some]
  | .arr [], _ + 1, rest, _, _ => by simp [write, readAt]
  | .arr (j :: js), fuel + 1, rest, hf, _ => by
    simp only [write, List.length_cons, List.length_append] at hf
    have hj : readAt fuel (write j ++ (writeItems js ++ rest)) = some (j, writeItems js ++ rest) :=
      readAt_write j (by omega) (stops_writeItems js rest)
    have hjs : readItems fuel (writeItems js ++ rest) = some (js, rest) :=
      readItems_write js (by omega)
    obtain ⟨c, cs, h, hc⟩ := write_eq_cons j
    rw [write, List.cons_append, List.append_assoc, readAt]
    · simp only [hj, hjs, Option.bind_some, Option.map_some]
    · rw [h]
      rintro cs' h'
      exact hc (List.cons.inj h').1
  | .obj [], _ + 1, rest, _, _ => by simp [write, readAt]
  | .obj ((k, j) :: fs), fuel + 1, rest, hf, _ => by
    simp only [write, writeStr, List.length_cons, List.length_append] at hf
    obtain ⟨fuel, rfl⟩ : ∃ f, fuel = f + 1 := ⟨fuel - 1, by omega⟩
    have hj : readAt fuel (write j ++ (writeFields fs ++ rest))
        = some (j, writeFields fs ++ rest) :=
      readAt_write j (by omega) (stops_writeFields fs rest)
    have hfs : readFields (fuel + 1) (writeFields fs ++ rest) = some (fs, rest) :=
      readFields_write fs (by omega)
    have hk := readField_of_readAt (k := k) hj
    rw [write, List.cons_append, List.append_assoc, List.cons_append, List.append_assoc, readAt]
    · simp only [hk, hfs, Option.bind_some, Option.map_some]
    · rintro cs' h'
      simp [writeStr] at h'

theorem readItems_write : ∀ (js : List Json) {fuel : ℕ} {rest : List Char},
    (writeItems js).length ≤ fuel → readItems fuel (writeItems js ++ rest) = some (js, rest)
  | [], 0, _, hf => by simp [writeItems] at hf
  | _ :: _, 0, _, hf => by simp [writeItems] at hf
  | [], _ + 1, rest, _ => by simp [writeItems, readItems]
  | j :: js, fuel + 1, rest, hf => by
    simp only [writeItems, List.length_cons, List.length_append] at hf
    have hj : readAt fuel (write j ++ (writeItems js ++ rest)) = some (j, writeItems js ++ rest) :=
      readAt_write j (by omega) (stops_writeItems js rest)
    have hjs : readItems fuel (writeItems js ++ rest) = some (js, rest) :=
      readItems_write js (by omega)
    simp only [writeItems, List.cons_append, List.append_assoc, readItems, hj, hjs,
      Option.bind_some, Option.map_some]

theorem readFields_write : ∀ (fs : List (String × Json)) {fuel : ℕ} {rest : List Char},
    (writeFields fs).length ≤ fuel → readFields fuel (writeFields fs ++ rest) = some (fs, rest)
  | [], 0, _, hf => by simp [writeFields] at hf
  | (_, _) :: _, 0, _, hf => by simp [writeFields] at hf
  | [], _ + 1, rest, _ => by simp [writeFields, readFields]
  | (k, j) :: fs, fuel + 1, rest, hf => by
    simp only [writeFields, writeStr, List.length_cons, List.length_append] at hf
    obtain ⟨fuel, rfl⟩ : ∃ f, fuel = f + 1 := ⟨fuel - 1, by omega⟩
    have hj : readAt fuel (write j ++ (writeFields fs ++ rest))
        = some (j, writeFields fs ++ rest) :=
      readAt_write j (by omega) (stops_writeFields fs rest)
    have hfs : readFields (fuel + 1) (writeFields fs ++ rest) = some (fs, rest) :=
      readFields_write fs (by omega)
    have hk := readField_of_readAt (k := k) hj
    rw [writeFields, List.cons_append, List.append_assoc, List.cons_append, List.append_assoc,
      readFields]
    simp only [hk, hfs, Option.bind_some, Option.map_some]

end

theorem read_write (j : Json) : read (write j) = some j := by
  have h := readAt_write j (le_refl _) stops_nil
  rw [List.append_nil] at h
  simp only [read, h]

theorem fromUTF8?_toUTF8 (s : String) : String.fromUTF8? s.toUTF8 = some s := by
  have h : s.toUTF8.IsValidUTF8 := s.isValidUTF8
  exact dif_pos h

theorem fromSlice_toVec (j : Json) : fromSlice (toVec j) = some j := by
  rw [fromSlice, toVec, fromUTF8?_toUTF8, Option.bind_some, String.toList_ofList, read_write]

end Json
