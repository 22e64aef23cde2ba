import Mathlib.Data.List.Nodup

/-!
# Rows under a primary key

A `Keyed key` is a list of rows no two of which agree on `key`: a table with a primary key, or a
map whose rows are its entries. Uniqueness is a field, so a lookup has at most one answer
(`find_eq_some`) and no operation can build a second row of one key.
-/

universe u v

@[ext]
structure Keyed {ρ : Type u} {κ : Type v} (key : ρ → κ) where
  rows : List ρ
  nodup : (rows.map key).Nodup

namespace Keyed

variable {ρ : Type u} {κ : Type v} {key : ρ → κ}

instance [DecidableEq ρ] : DecidableEq (Keyed key) := fun t t' =>
  decidable_of_iff (t.rows = t'.rows) Keyed.ext_iff.symm

instance : Membership ρ (Keyed key) := ⟨fun t r => r ∈ t.rows⟩

theorem mem_def {t : Keyed key} {r : ρ} : r ∈ t ↔ r ∈ t.rows := Iff.rfl

instance [DecidableEq ρ] (t : Keyed key) (r : ρ) : Decidable (r ∈ t) :=
  inferInstanceAs (Decidable (r ∈ t.rows))

def Has (t : Keyed key) (k : κ) : Prop := k ∈ t.rows.map key

instance [DecidableEq κ] (t : Keyed key) (k : κ) : Decidable (t.Has k) :=
  inferInstanceAs (Decidable (k ∈ t.rows.map key))

theorem has_iff {t : Keyed key} {k : κ} : t.Has k ↔ ∃ r ∈ t, key r = k := by
  simp [Has, mem_def]

theorem has_of_mem {t : Keyed key} {r : ρ} (h : r ∈ t) : t.Has (key r) :=
  has_iff.2 ⟨r, h, rfl⟩

theorem eq_of_key {t : Keyed key} {r r' : ρ} (h : r ∈ t) (h' : r' ∈ t) (hk : key r = key r') :
    r = r' :=
  List.inj_on_of_nodup_map t.nodup h h' hk

theorem rows_nodup (t : Keyed key) : t.rows.Nodup := t.nodup.of_map

def empty : Keyed key := ⟨[], by simp⟩

@[simp] theorem rows_empty : (empty : Keyed key).rows = [] := rfl

@[simp] theorem not_mem_empty {r : ρ} : r ∉ (empty : Keyed key) := by simp [mem_def]

/-- A new row under a key no row has. -/
def insert (t : Keyed key) (r : ρ) (h : ¬ t.Has (key r)) : Keyed key where
  rows := t.rows ++ [r]
  nodup := by
    rw [List.map_append, List.nodup_append]
    refine ⟨t.nodup, by simp, ?_⟩
    rintro k hk _ hr rfl
    obtain rfl : k = key r := by simpa using hr
    exact h hk

@[simp] theorem mem_insert {t : Keyed key} {r r' : ρ} {h : ¬ t.Has (key r)} :
    r' ∈ t.insert r h ↔ r' ∈ t ∨ r' = r := by
  simp [insert, mem_def]

@[simp] theorem has_insert {t : Keyed key} {r : ρ} {h : ¬ t.Has (key r)} {k : κ} :
    (t.insert r h).Has k ↔ t.Has k ∨ k = key r := by
  simp [insert, Has]

theorem has_of_append {t t' : Keyed key} {r : ρ} (h : t'.rows = t.rows ++ [r]) (k : κ) :
    t'.Has k ↔ t.Has k ∨ k = key r := by
  simp [Has, h]

/-- Rows rewritten in place, keys kept: SQL's `UPDATE`, with its `WHERE` inside `f`. -/
def update (t : Keyed key) (f : ρ → ρ) (hf : ∀ r, key (f r) = key r) : Keyed key where
  rows := t.rows.map f
  nodup := by
    rw [List.map_map, show key ∘ f = key from funext hf]
    exact t.nodup

@[simp] theorem mem_update {t : Keyed key} {f : ρ → ρ} {hf : ∀ r, key (f r) = key r} {r : ρ} :
    r ∈ t.update f hf ↔ ∃ r' ∈ t, f r' = r := by
  simp [update, mem_def]

@[simp] theorem has_update {t : Keyed key} {f : ρ → ρ} {hf : ∀ r, key (f r) = key r} {k : κ} :
    (t.update f hf).Has k ↔ t.Has k := by
  simp only [Has, update, List.map_map, show key ∘ f = key from funext hf]

section Lookup

variable [DecidableEq κ]

def find (t : Keyed key) (k : κ) : Option ρ := t.rows.find? fun r => key r = k

theorem find_eq_some {t : Keyed key} {k : κ} {r : ρ} :
    t.find k = some r ↔ r ∈ t ∧ key r = k := by
  constructor
  · intro h
    exact ⟨List.mem_of_find?_eq_some h, by simpa using List.find?_some h⟩
  · rintro ⟨hr, rfl⟩
    rcases hf : t.find (key r) with _ | r'
    · have := List.find?_eq_none.1 hf r hr
      simp at this
    · have hm : r' ∈ t := List.mem_of_find?_eq_some hf
      have hk : key r' = key r := by simpa using List.find?_some hf
      rw [eq_of_key hm hr hk]

theorem find_eq_none {t : Keyed key} {k : κ} : t.find k = none ↔ ¬ t.Has k := by
  simp [find, Has]

theorem find_isSome {t : Keyed key} {k : κ} : (t.find k).isSome ↔ t.Has k := by
  rw [← not_iff_not, ← find_eq_none, Option.not_isSome_iff_eq_none]

theorem find_insert {t : Keyed key} {r : ρ} {h : ¬ t.Has (key r)} {k : κ} :
    (t.insert r h).find k = if k = key r then some r else t.find k := by
  ext r'
  split_ifs with hk
  · subst hk
    rw [find_eq_some, mem_insert, Option.some.injEq]
    constructor
    · rintro ⟨hr | rfl, hk⟩
      · exact absurd (hk ▸ has_of_mem hr) h
      · rfl
    · rintro rfl
      exact ⟨.inr rfl, rfl⟩
  · rw [find_eq_some, find_eq_some, mem_insert]
    exact ⟨fun ⟨hr, hk'⟩ => ⟨hr.elim id fun he => absurd (he ▸ hk'.symm) hk, hk'⟩,
      fun ⟨hr, hk'⟩ => ⟨.inl hr, hk'⟩⟩

theorem find_update {t : Keyed key} {f : ρ → ρ} {hf : ∀ r, key (f r) = key r} {k : κ} :
    (t.update f hf).find k = (t.find k).map f := by
  ext r
  simp only [find_eq_some, mem_update, Option.map_eq_some_iff]
  constructor
  · rintro ⟨⟨r', hr', rfl⟩, hk⟩
    exact ⟨r', ⟨hr', (hf r').symm.trans hk⟩, rfl⟩
  · rintro ⟨r', ⟨hr', hk⟩, rfl⟩
    exact ⟨⟨r', hr', rfl⟩, (hf r').trans hk⟩

@[simp] theorem find_empty {k : κ} : (empty : Keyed key).find k = none := rfl

/-- `INSERT OR IGNORE`: the table after, and how many rows the statement changed. -/
def insertOrIgnore (t : Keyed key) (r : ρ) : Keyed key × ℕ :=
  if h : t.Has (key r) then (t, 0) else (t.insert r h, 1)

theorem insertOrIgnore_of_has {t : Keyed key} {r : ρ} (h : t.Has (key r)) :
    t.insertOrIgnore r = (t, 0) := by
  simp [insertOrIgnore, h]

theorem insertOrIgnore_of_not_has {t : Keyed key} {r : ρ} (h : ¬ t.Has (key r)) :
    t.insertOrIgnore r = (t.insert r h, 1) := by
  simp [insertOrIgnore, h]

theorem insertOrIgnore_cases (t : Keyed key) (r : ρ) :
    t.Has (key r) ∧ t.insertOrIgnore r = (t, 0) ∨
      ¬ t.Has (key r) ∧ (t.insertOrIgnore r).2 = 1
        ∧ (t.insertOrIgnore r).1.rows = t.rows ++ [r] := by
  by_cases h : t.Has (key r)
  · exact .inl ⟨h, insertOrIgnore_of_has h⟩
  · rw [insertOrIgnore_of_not_has h]
    exact .inr ⟨h, rfl, rfl⟩

end Lookup

/-! ## Maps -/

end Keyed

/-- A map: its rows are its entries, in whatever order they come. -/
abbrev KeyedMap (κ : Type u) (ν : Type v) := Keyed (Prod.fst : κ × ν → κ)

namespace KeyedMap

variable {κ : Type u} {ν : Type v} [DecidableEq κ]

def get (m : KeyedMap κ ν) (k : κ) : Option ν := (m.find k).map Prod.snd

/-- `*map.entry(k).or_insert(v) = f(..)`. -/
def entry (m : KeyedMap κ ν) (k : κ) (v : ν) (f : ν → ν) : KeyedMap κ ν :=
  if h : m.Has k then
    m.update (fun e => if e.1 = k then (e.1, f e.2) else e) fun e => by split_ifs <;> rfl
  else m.insert (k, f v) h

/-- `map.insert(k, v)`. -/
def put (m : KeyedMap κ ν) (k : κ) (v : ν) : KeyedMap κ ν := m.entry k v fun _ => v

/-- Every value changed: a loop over `values_mut`. -/
def mapValues (m : KeyedMap κ ν) (f : ν → ν) : KeyedMap κ ν :=
  m.update (fun e => (e.1, f e.2)) fun _ => rfl

theorem get_eq_some {m : KeyedMap κ ν} {k : κ} {v : ν} : m.get k = some v ↔ (k, v) ∈ m := by
  simp only [get, Option.map_eq_some_iff, Keyed.find_eq_some]
  constructor
  · rintro ⟨⟨k', v'⟩, ⟨h, rfl⟩, rfl⟩
    exact h
  · exact fun h => ⟨(k, v), ⟨h, rfl⟩, rfl⟩

theorem get_eq_none {m : KeyedMap κ ν} {k : κ} : m.get k = none ↔ ¬ m.Has k := by
  rw [get, Option.map_eq_none_iff, Keyed.find_eq_none]

theorem get_isSome {m : KeyedMap κ ν} {k : κ} : (m.get k).isSome ↔ m.Has k := by
  rw [get, Option.isSome_map, Keyed.find_isSome]

@[simp] theorem get_empty {k : κ} : get (Keyed.empty : KeyedMap κ ν) k = none := rfl

@[simp] theorem get_mapValues {m : KeyedMap κ ν} {f : ν → ν} {k : κ} :
    (m.mapValues f).get k = (m.get k).map f := by
  ext v
  simp only [get_eq_some, mapValues, Keyed.mem_update, Option.map_eq_some_iff]
  constructor
  · rintro ⟨⟨k', v'⟩, h, he⟩
    obtain ⟨rfl, rfl⟩ := Prod.mk.inj he
    exact ⟨v', h, rfl⟩
  · rintro ⟨v', h, rfl⟩
    exact ⟨(k, v'), h, rfl⟩

theorem get_entry {m : KeyedMap κ ν} {k k' : κ} {v : ν} {f : ν → ν} :
    (m.entry k v f).get k' = if k' = k then some (f ((m.get k).getD v)) else m.get k' := by
  ext w
  unfold entry
  split_ifs with h hk hk
  · subst hk
    obtain ⟨v', hv'⟩ := Option.isSome_iff_exists.1 (get_isSome.2 h)
    rw [hv', Option.getD_some, Option.some.injEq, get_eq_some, Keyed.mem_update]
    constructor
    · rintro ⟨⟨k₀, v₀⟩, hm, he⟩
      split_ifs at he with h₀
      · obtain rfl : k₀ = k' := h₀
        obtain rfl : v₀ = v' := Option.some.inj ((get_eq_some.2 hm).symm.trans hv')
        exact (Prod.mk.inj he).2
      · exact absurd (Prod.mk.inj he).1 h₀
    · rintro rfl
      exact ⟨(k', v'), get_eq_some.1 hv', by simp⟩
  · rw [get_eq_some, get_eq_some, Keyed.mem_update]
    constructor
    · rintro ⟨⟨k₀, v₀⟩, hm, he⟩
      split_ifs at he with h₀
      · exact absurd ((Prod.mk.inj he).1.symm.trans h₀) hk
      · exact he ▸ hm
    · exact fun hm => ⟨(k', w), hm, by simp [hk]⟩
  · subst hk
    rw [get_eq_none.2 h, Option.getD_none, Option.some.injEq, get_eq_some, Keyed.mem_insert]
    constructor
    · rintro (hm | he)
      · exact absurd (Keyed.has_of_mem hm) h
      · exact (Prod.mk.inj he).2.symm
    · rintro rfl
      exact .inr rfl
  · rw [get_eq_some, get_eq_some, Keyed.mem_insert]
    exact ⟨fun h' => h'.elim id fun he => absurd (Prod.mk.inj he).1 hk, .inl⟩

/-- An entry that is there and that `f` leaves as it is: the map is as it was. -/
theorem entry_eq_self {m : KeyedMap κ ν} {k : κ} {v w : ν} {f : ν → ν} (hk : m.get k = some w)
    (hf : f w = w) : m.entry k v f = m := by
  have hhas : m.Has k := get_isSome.1 (by rw [hk, Option.isSome_some])
  rw [entry, dif_pos hhas]
  refine Keyed.ext ?_
  rw [Keyed.update]
  refine (List.map_congr_left fun e he => ?_).trans (List.map_id' _)
  split_ifs with h
  · obtain ⟨k', v'⟩ := e
    obtain rfl : k' = k := h
    obtain rfl : v' = w := Option.some.inj ((get_eq_some.2 he).symm.trans hk)
    rw [hf]
  · rfl

theorem get_put {m : KeyedMap κ ν} {k k' : κ} {v : ν} :
    (m.put k v).get k' = if k' = k then some v else m.get k' := get_entry

end KeyedMap
