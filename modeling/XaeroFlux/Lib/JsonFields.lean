import Mathlib.Algebra.GroupWithZero.Nat
import Mathlib.Algebra.Ring.Int.Defs
import Mathlib.Data.List.Perm.Basic
import Mathlib.Data.List.Nodup
import XaeroFlux.Lib.JsonRead

/-!
# Reading a value's fields

What a derived `Deserialize` takes a value for: a record has none of its fields twice, a field of
an optional type may be left out, and fields that are no record's are passed over.
-/

namespace Json

variable {α : Type}

/-- `Value::as_i64`. -/
def asInt64 : Json → Option Int64
  | .int n => if -2 ^ 63 ≤ n ∧ n < 2 ^ 63 then some (Int64.ofInt n) else none
  | _ => none

/-- `Value::as_u64`. -/
def asUInt64 : Json → Option UInt64
  | .int n => if 0 ≤ n ∧ n < 2 ^ 64 then some (UInt64.ofNat n.toNat) else none
  | _ => none

def asOption (f : Json → Option α) : Json → Option (Option α)
  | .null => some none
  | j => (f j).map some

def asVec (f : Json → Option α) : Json → Option (List α)
  | .arr items => items.mapM f
  | _ => none

def field (name : String) (f : Json → Option α) (j : Json) : Option α := (j.get name).bind f

/-- A field of an optional type. -/
def optField (name : String) (f : Json → Option α) (j : Json) : Option (Option α) :=
  match j.get name with
  | some v => asOption f v
  | none => some none

/-- An object with none of these fields twice. -/
def Once (names : List String) : Json → Prop
  | .obj fields => ∀ name ∈ names, (fields.map Prod.fst).count name ≤ 1
  | _ => False

instance (names : List String) : (j : Json) → Decidable (Once names j)
  | .obj fields =>
    inferInstanceAs (Decidable (∀ name ∈ names, (fields.map Prod.fst).count name ≤ 1))
  | .null | .bool _ | .int _ | .dec _ _ | .str _ | .arr _ => inferInstanceAs (Decidable False)

def record (names : List String) (f : Json → Option α) (j : Json) : Option α :=
  if j.Once names then f j else none

def ofOption : Option String → Json
  | some s => .str s
  | none => .null

/-! ## What was written -/

@[simp] theorem get_nil (name : String) : get name (.obj []) = none := rfl

@[simp] theorem get_cons (name k : String) (v : Json) (fs : List (String × Json)) :
    get name (.obj ((k, v) :: fs)) = if k = name then some v else get name (.obj fs) := by
  by_cases h : k = name <;> simp [get, h]

@[simp] theorem field_cons (name k : String) (f : Json → Option α) (v : Json)
    (fs : List (String × Json)) : field name f (.obj ((k, v) :: fs)) =
      if k = name then f v else field name f (.obj fs) := by
  by_cases h : k = name <;> simp [field, h]

@[simp] theorem optField_cons (name k : String) (f : Json → Option α) (v : Json)
    (fs : List (String × Json)) : optField name f (.obj ((k, v) :: fs)) =
      if k = name then asOption f v else optField name f (.obj fs) := by
  by_cases h : k = name <;> simp [optField, h]

theorem record_of_once {names : List String} {f : Json → Option α} {j : Json}
    (h : j.Once names) : record names f j = f j := if_pos h

@[simp] theorem asStr_str (s : String) : asStr (.str s) = some s := rfl

@[simp] theorem asInt64_int (n : Int64) : asInt64 (.int n.toInt) = some n := by
  have h : -2 ^ 63 ≤ n.toInt ∧ n.toInt < 2 ^ 63 := ⟨n.le_toInt, n.toInt_lt⟩
  rw [asInt64, if_pos h, Int64.ofInt_toInt]

@[simp] theorem asUInt64_int (n : UInt64) : asUInt64 (.int n.toNat) = some n := by
  have h : (0 : ℤ) ≤ n.toNat ∧ (n.toNat : ℤ) < 2 ^ 64 :=
    ⟨by omega, by exact_mod_cast n.toNat_lt⟩
  rw [asUInt64, if_pos h, Int.toNat_natCast, UInt64.ofNat_toNat]

@[simp] theorem asStr_ofOption (s : Option String) : (ofOption s).asStr = s := by
  cases s <;> rfl

@[simp] theorem asOption_ofOption (s : Option String) : asOption asStr (ofOption s) = some s := by
  cases s <;> rfl

theorem asVec_map {f : Json → Option α} {g : α → Json} (h : ∀ a, f (g a) = some a) :
    ∀ as : List α, asVec f (.arr (as.map g)) = some as
  | [] => rfl
  | a :: as => by
    have ih : (as.map g).mapM f = some as := asVec_map h as
    simp [asVec, List.mapM_cons, h, ih]

/-! ## The order of fields -/

section Perm

variable {fields fields' : List (String × Json)}

theorem get_eq_some_iff (h : (fields.map Prod.fst).Nodup) {name : String} {v : Json} :
    get name (.obj fields) = some v ↔ (name, v) ∈ fields := by
  induction fields with
  | nil => simp
  | cons f fs ih =>
    obtain ⟨k, w⟩ := f
    obtain ⟨hk, hfs⟩ := List.nodup_cons.1 h
    rw [get_cons, List.mem_cons, Prod.mk.injEq]
    split_ifs with he
    · subst he
      have hm : (k, v) ∉ fs := fun hm => hk (List.mem_map.2 ⟨(k, v), hm, rfl⟩)
      simp [hm, eq_comm]
    · rw [ih hfs]
      simp [Ne.symm he]

/-- An object's fields have the same values in whatever order they come. -/
theorem get_perm (hp : fields'.Perm fields) (h : (fields.map Prod.fst).Nodup) (name : String) :
    get name (.obj fields') = get name (.obj fields) := by
  ext v
  rw [get_eq_some_iff h, get_eq_some_iff ((hp.map _).nodup_iff.2 h), hp.mem_iff]

theorem once_perm (hp : fields'.Perm fields) (h : (fields.map Prod.fst).Nodup)
    (names : List String) : Once names (.obj fields') := fun name _ =>
  List.nodup_iff_count_le_one.1 ((hp.map _).nodup_iff.2 h) name

end Perm

/-! ## Reading a text -/

/-- A value with no parts; an integer fits a machine word. -/
def Plain : Json → Prop
  | .null | .bool _ | .str _ => True
  | .int n => -2 ^ 63 ≤ n ∧ n < 2 ^ 64
  | .dec _ _ | .arr _ | .obj _ => False

@[simp] theorem plain_str (s : String) : (Json.str s).Plain := trivial

@[simp] theorem plain_ofOption (s : Option String) : (ofOption s).Plain := by
  cases s <;> trivial

@[simp] theorem plain_int64 (n : Int64) : (Json.int n.toInt).Plain := by
  have hle := n.le_toInt
  have hlt := n.toInt_lt
  exact ⟨hle, by omega⟩

@[simp] theorem plain_uint64 (n : UInt64) : (Json.int n.toNat).Plain := by
  have hlt := n.toNat_lt
  exact ⟨by omega, by omega⟩

/-- The compact text of a value. -/
def text (j : Json) : String := String.ofList j.write

end Json

/-- `serde_json::from_str::<Value>`, which keeps an object's fields in an order of its own. -/
structure ValueReader where
  fromStr : String → Option Json
  fromStr_text : ∀ fields : List (String × Json), (fields.map Prod.fst).Nodup →
    (∀ f ∈ fields, f.2.Plain) →
    ∃ fields' : List (String × Json), fields'.Perm fields
      ∧ fromStr (Json.obj fields).text = some (.obj fields')

def ValueReader.compact : ValueReader where
  fromStr s := Json.read s.toList
  fromStr_text fields _ _ := by
    refine ⟨fields, .refl _, ?_⟩
    rw [Json.text, String.toList_ofList, Json.read_write]

theorem ValueReader.compact_text (j : Json) : compact.fromStr j.text = some j := by
  show Json.read (String.ofList j.write).toList = some j
  rw [String.toList_ofList, Json.read_write]
