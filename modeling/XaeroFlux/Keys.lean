import Mathlib.Data.Vector.Basic

/-!
# Node keys

The ids and keys of `iroh` as the code relies on them.
-/

namespace XaeroFlux

/-- The node ids of `iroh`: `from_str` inverts `to_string`, and may accept other spellings. -/
structure PublicKeys (κ : Type) where
  fromStr : String → Except String κ
  toStr : κ → String
  fromStr_toStr : ∀ k, fromStr (toStr k) = .ok k

def PublicKeys.only (id : String) : PublicKeys Unit where
  fromStr s := if s = id then .ok () else .error "not a key"
  toStr _ := id
  fromStr_toStr _ := if_pos rfl

/-- One key under two spellings. -/
def PublicKeys.spelled (id other : String) : PublicKeys Unit where
  fromStr s := if s = id ∨ s = other then .ok () else .error "not a key"
  toStr _ := id
  fromStr_toStr _ := if_pos (.inl rfl)

end XaeroFlux
