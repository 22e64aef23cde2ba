import Mathlib.Algebra.GroupWithZero.Nat
import Mathlib.Algebra.Ring.Int.Defs
import Mathlib.Data.List.Infix
import XaeroFlux.Lib.JsonRead

/-!
# JSON texts

Which bytes are a JSON text, by the grammar of the format, a little wide: a scalar is any run of
letters, digits, signs and points, and a string any run of bytes whose quotes are escaped.

The brackets of a text pair up outside its strings (`level_of_derives`), so what is cut off a text
of an object leaves no text (`not_isText_of_prefix`). What `toVec` writes is one (`isText_toVec`).
-/

namespace Json

def ascii (c : Char) : UInt8 := UInt8.ofNat c.toNat

/-! ## The grammar -/

def isScalar (b : UInt8) : Bool :=
  ascii '0' ≤ b ∧ b ≤ ascii '9' ∨ ascii 'a' ≤ b ∧ b ≤ ascii 'z' ∨ ascii 'A' ≤ b ∧ b ≤ ascii 'Z'
    ∨ b = ascii '+' ∨ b = ascii '-' ∨ b = ascii '.'

def isSpace (b : UInt8) : Bool := b = ascii ' ' ∨ b = ascii '\n' ∨ b = ascii '\r' ∨ b = ascii '\t'

/-- What stands between the quotes of a string. -/
inductive Chars : List UInt8 → Prop where
  | nil : Chars []
  | char {b : UInt8} {w : List UInt8} (hq : b ≠ ascii '"') (hs : b ≠ ascii '\\') (h : Chars w) :
      Chars (b :: w)
  | escaped {b : UInt8} {w : List UInt8} (h : Chars w) : Chars (ascii '\\' :: b :: w)

inductive Symbol where
  | value
  | element
  | elements
  | members

inductive Derives : Symbol → List UInt8 → Prop where
  | scalar {w : List UInt8} (hne : w ≠ []) (h : ∀ b ∈ w, isScalar b) : Derives .value w
  | string {w : List UInt8} (h : Chars w) : Derives .value (ascii '"' :: (w ++ [ascii '"']))
  | emptyArray {w : List UInt8} (h : ∀ b ∈ w, isSpace b) :
      Derives .value (ascii '[' :: (w ++ [ascii ']']))
  | array {w : List UInt8} (h : Derives .elements w) :
      Derives .value (ascii '[' :: (w ++ [ascii ']']))
  | emptyObject {w : List UInt8} (h : ∀ b ∈ w, isSpace b) :
      Derives .value (ascii '{' :: (w ++ [ascii '}']))
  | object {w : List UInt8} (h : Derives .members w) :
      Derives .value (ascii '{' :: (w ++ [ascii '}']))
  | element {a w b : List UInt8} (ha : ∀ x ∈ a, isSpace x) (h : Derives .value w)
      (hb : ∀ x ∈ b, isSpace x) : Derives .element (a ++ (w ++ b))
  | last {w : List UInt8} (h : Derives .element w) : Derives .elements w
  | cons {w u : List UInt8} (h : Derives .element w) (hu : Derives .elements u) :
      Derives .elements (w ++ ascii ',' :: u)
  | member {a k b w : List UInt8} (ha : ∀ x ∈ a, isSpace x) (hk : Chars k)
      (hb : ∀ x ∈ b, isSpace x) (h : Derives .element w) :
      Derives .members (a ++ ascii '"' :: (k ++ ascii '"' :: (b ++ ascii ':' :: w)))
  | append {w u : List UInt8} (h : Derives .members w) (hu : Derives .members u) :
      Derives .members (w ++ ascii ',' :: u)

def IsText (w : List UInt8) : Prop := Derives .element w

theorem Derives.ne_nil {s : Symbol} {w : List UInt8} (h : Derives s w) : w ≠ [] := by
  induction h with
  | scalar hne h => exact hne
  | last h ih => exact ih
  | _ => simp_all

/-! ## Brackets -/

inductive Mode where
  | out
  | inString
  | escaped

/-- One byte read, with how many brackets are open outside strings. -/
def scan (s : Mode × ℤ) (b : UInt8) : Mode × ℤ :=
  match s.1 with
  | .escaped => (.inString, s.2)
  | .inString =>
    if b = ascii '"' then (.out, s.2) else if b = ascii '\\' then (.escaped, s.2) else s
  | .out =>
    if b = ascii '"' then (.inString, s.2)
    else if b = ascii '[' ∨ b = ascii '{' then (.out, s.2 + 1)
    else if b = ascii ']' ∨ b = ascii '}' then (.out, s.2 - 1)
    else s

/-- At least so many brackets are open all along. -/
def Above (d : ℤ) : Mode × ℤ → List UInt8 → Prop
  | s, [] => d ≤ s.2
  | s, b :: bs => d ≤ s.2 ∧ Above d (scan s b) bs

theorem above_append {d : ℤ} :
    ∀ {a b : List UInt8} {s : Mode × ℤ},
      Above d s (a ++ b) ↔ Above d s a ∧ Above d (a.foldl scan s) b
  | [], [], s => by simp [Above]
  | [], b :: bs, s => by simp +contextual [Above]
  | a :: as, b, s => by simp [Above, @above_append d as b, and_assoc]

theorem Above.mono {d d' : ℤ} (hd : d' ≤ d) :
    ∀ {w : List UInt8} {s : Mode × ℤ}, Above d s w → Above d' s w
  | [], _, h => hd.trans h
  | _ :: _, _, h => ⟨hd.trans h.1, Above.mono hd h.2⟩

theorem Above.le {d : ℤ} {a b : List UInt8} {s : Mode × ℤ} (h : Above d s (a ++ b)) :
    d ≤ (a.foldl scan s).2 := by
  have hb := (above_append.1 h).2
  rcases b with _ | ⟨b, bs⟩
  · exact hb
  · exact hb.1

/-- Brackets pair up: as many are open at the end as at the start, and never fewer between. -/
def Level (w : List UInt8) : Prop :=
  ∀ d, w.foldl scan (.out, d) = (.out, d) ∧ Above d (.out, d) w

theorem level_nil : Level [] := fun d => ⟨rfl, le_refl d⟩

theorem Level.append {a b : List UInt8} (ha : Level a) (hb : Level b) : Level (a ++ b) := by
  intro d
  rw [List.foldl_append, (ha d).1, above_append, (ha d).1]
  exact ⟨(hb d).1, (ha d).2, (hb d).2⟩

theorem Level.cons {b : UInt8} {w : List UInt8} (hb : ∀ d, scan (.out, d) b = (.out, d))
    (hw : Level w) : Level (b :: w) := by
  intro d
  rw [List.foldl_cons, hb d, Above, hb d]
  exact ⟨(hw d).1, le_refl d, (hw d).2⟩

theorem level_of_plain :
    ∀ {w : List UInt8}, (∀ b ∈ w, ∀ d, scan (.out, d) b = (.out, d)) → Level w
  | [], _ => level_nil
  | b :: _, h =>
    .cons (h b List.mem_cons_self) (level_of_plain fun c hc => h c (List.mem_cons_of_mem b hc))

/-- A byte of a kind that no quote or bracket is of changes nothing. -/
theorem scan_of_kind {kind : UInt8 → Bool} {b : UInt8} (h : kind b) (d : ℤ)
    (hk : [ascii '"', ascii '[', ascii '{', ascii ']', ascii '}'].all (!kind ·)) :
    scan (.out, d) b = (.out, d) := by
  have hne : ∀ c ∈ [ascii '"', ascii '[', ascii '{', ascii ']', ascii '}'], b ≠ c := by
    rintro c hc rfl
    have := List.all_eq_true.1 hk b hc
    rw [h] at this
    simp at this
  simp only [List.forall_mem_cons] at hne
  simp only [scan, hne, or_self, if_false]

theorem level_of_isSpace {w : List UInt8} (h : ∀ b ∈ w, isSpace b) : Level w :=
  level_of_plain fun b hb d => scan_of_kind (h b hb) d (by decide)

theorem level_of_isScalar {w : List UInt8} (h : ∀ b ∈ w, isScalar b) : Level w :=
  level_of_plain fun b hb d => scan_of_kind (h b hb) d (by decide)

/-- Inside a string no bracket counts. -/
theorem scan_chars {w : List UInt8} (h : Chars w) (d : ℤ) :
    w.foldl scan (.inString, d) = (.inString, d) ∧ Above d (.inString, d) w := by
  induction h with
  | nil => exact ⟨rfl, le_refl d⟩
  | char hq hs _ ih =>
    have hscan : ∀ b, b ≠ ascii '"' → b ≠ ascii '\\' →
        scan (.inString, d) b = (.inString, d) := fun b hq hs => by simp [scan, hq, hs]
    rw [List.foldl_cons, Above, hscan _ hq hs]
    exact ⟨ih.1, le_refl d, ih.2⟩
  | @escaped b w _ ih =>
    have h1 : scan (.inString, d) (ascii '\\') = (.escaped, d) := rfl
    have h2 : scan (.escaped, d) b = (.inString, d) := rfl
    rw [List.foldl_cons, List.foldl_cons, Above, Above, h1, h2]
    exact ⟨ih.1, le_refl d, le_refl d, ih.2⟩

theorem level_string {w : List UInt8} (h : Chars w) :
    Level (ascii '"' :: (w ++ [ascii '"'])) := by
  intro d
  obtain ⟨hend, habove⟩ := scan_chars h d
  have h1 : scan (.out, d) (ascii '"') = (.inString, d) := rfl
  have h2 : scan (.inString, d) (ascii '"') = (.out, d) := rfl
  rw [List.foldl_cons, Above, h1, List.foldl_append, above_append, hend]
  exact ⟨h2, le_refl d, habove, le_refl d, le_refl d⟩

/-- What stands between two brackets keeps the first of them open. -/
theorem above_bracket {o : UInt8} {w : List UInt8}
    (ho : ∀ d, scan (.out, d) o = (.out, d + 1)) (h : Level w) (d : ℤ) :
    (o :: w).foldl scan (.out, d) = (.out, d + 1) ∧ Above (d + 1) (.out, d + 1) w := by
  rw [List.foldl_cons, ho d]
  exact h (d + 1)

theorem level_bracket {o c : UInt8} {w : List UInt8} (ho : ∀ d, scan (.out, d) o = (.out, d + 1))
    (hc : ∀ d, scan (.out, d + 1) c = (.out, d)) (h : Level w) : Level (o :: (w ++ [c])) := by
  intro d
  obtain ⟨hend, habove⟩ := h (d + 1)
  rw [List.foldl_cons, Above, ho d, List.foldl_append, above_append, hend]
  refine ⟨hc d, le_refl d, habove.mono (by omega), show d ≤ d + 1 by omega, ?_⟩
  rw [hc d]
  exact le_refl d

theorem scan_openArray (d : ℤ) : scan (.out, d) (ascii '[') = (.out, d + 1) := rfl
theorem scan_openObject (d : ℤ) : scan (.out, d) (ascii '{') = (.out, d + 1) := rfl

theorem scan_closeArray (d : ℤ) : scan (.out, d + 1) (ascii ']') = (.out, d) := by
  rw [show scan (.out, d + 1) (ascii ']') = (.out, d + 1 - 1) from rfl, Int.add_sub_cancel]

theorem scan_closeObject (d : ℤ) : scan (.out, d + 1) (ascii '}') = (.out, d) := by
  rw [show scan (.out, d + 1) (ascii '}') = (.out, d + 1 - 1) from rfl, Int.add_sub_cancel]

/-- The brackets of anything derived pair up. -/
theorem level_of_derives {s : Symbol} {w : List UInt8} (h : Derives s w) : Level w := by
  induction h with
  | scalar _ h => exact level_of_isScalar h
  | string h => exact level_string h
  | emptyArray h => exact level_bracket scan_openArray scan_closeArray (level_of_isSpace h)
  | array _ ih => exact level_bracket scan_openArray scan_closeArray ih
  | emptyObject h => exact level_bracket scan_openObject scan_closeObject (level_of_isSpace h)
  | object _ ih => exact level_bracket scan_openObject scan_closeObject ih
  | element ha _ hb ih => exact (level_of_isSpace ha).append (ih.append (level_of_isSpace hb))
  | last _ ih => exact ih
  | cons _ _ ih ihu => exact ih.append (.cons (fun _ => rfl) ihu)
  | @member a k b w ha hk hb _ ih =>
    have hrest : Level (b ++ ascii ':' :: w) :=
      (level_of_isSpace hb).append (.cons (fun _ => rfl) ih)
    have hkey := (level_string hk).append hrest
    rw [List.cons_append, List.append_assoc] at hkey
    exact (level_of_isSpace ha).append hkey
  | append _ _ ih ihu => exact ih.append (.cons (fun _ => rfl) ihu)

/-- A text of an object, cut short, is no text. -/
theorem not_isText_of_prefix {w p : List UInt8} (h : Derives .value w)
    (hw : w.head? = some (ascii '{')) (hp : p <+: w) (hne : p ≠ w) : ¬ IsText p := by
  intro htext
  obtain ⟨u, rfl, hu⟩ : ∃ u, w = ascii '{' :: (u ++ [ascii '}']) ∧ Level u := by
    cases h with
    | scalar hs h =>
      obtain ⟨b, w, rfl⟩ := List.exists_cons_of_ne_nil hs
      obtain rfl : b = ascii '{' := by simpa using hw
      exact absurd (h _ List.mem_cons_self) (by decide)
    | emptyObject h => exact ⟨_, rfl, level_of_isSpace h⟩
    | object h => exact ⟨_, rfl, level_of_derives h⟩
    | string | emptyArray | array => exact absurd hw (by simp [ascii])
  rcases p with _ | ⟨b, p⟩
  · exact htext.ne_nil rfl
  obtain ⟨rfl, hpu⟩ := List.cons_prefix_cons.1 hp
  -- what is cut off holds the last bracket
  obtain ⟨t, rfl⟩ : p <+: u := by
    rcases List.prefix_concat_iff.1 hpu with rfl | hpu
    · exact absurd rfl hne
    · exact hpu
  have hopen := Above.le (above_bracket scan_openObject hu 0).2
  have hclosed := (level_of_derives htext 0).1
  rw [List.foldl_cons, scan_openObject] at hclosed
  rw [hclosed] at hopen
  simp at hopen

/-! ## What `toVec` writes -/

def bytesOf (cs : List Char) : List UInt8 := cs.flatMap String.utf8EncodeChar

theorem toByteArray_data (b : ByteArray) : b.data.toList.toByteArray = b := by
  rw [ByteArray.ext_iff, List.data_toByteArray]

theorem toVec_toList (j : Json) : j.toVec.data.toList = bytesOf j.write := by
  rw [toVec, show (String.ofList j.write).toUTF8 = (String.ofList j.write).toByteArray from rfl,
    String.toByteArray_ofList]
  exact List.toList_data_toByteArray

theorem bytesOf_append (a b : List Char) : bytesOf (a ++ b) = bytesOf a ++ bytesOf b :=
  List.flatMap_append

theorem encode_ascii {c : Char} (h : c.toNat < 128) : String.utf8EncodeChar c = [ascii c] :=
  if_pos (show c.val.toNat ≤ 0x7f from Nat.le_of_lt_succ h)

theorem bytesOf_cons {c : Char} (h : c.toNat < 128) (cs : List Char) :
    bytesOf (c :: cs) = ascii c :: bytesOf cs := by
  rw [bytesOf, List.flatMap_cons, encode_ascii h]
  rfl

/-- No byte of a character outside ASCII is one of ASCII. -/
theorem encode_high {c : Char} (h : 128 ≤ c.toNat) :
    ∀ b ∈ String.utf8EncodeChar c, 128 ≤ b.toNat := by
  have hv : ¬ c.val.toNat ≤ 0x7f := by
    have : c.val.toNat = c.toNat := rfl
    omega
  unfold String.utf8EncodeChar
  simp only [hv, if_false]
  split_ifs <;> simp only [List.forall_mem_cons, List.not_mem_nil, false_implies, implies_true,
    and_true, UInt8.toNat_ofNat'] <;> omega

theorem Chars.append {a b : List UInt8} (ha : Chars a) (hb : Chars b) : Chars (a ++ b) := by
  induction ha with
  | nil => exact hb
  | char hq hs _ ih => exact .char hq hs ih
  | escaped _ ih => exact .escaped ih

theorem chars_of_ne :
    ∀ {w : List UInt8}, (∀ b ∈ w, b ≠ ascii '"' ∧ b ≠ ascii '\\') → Chars w
  | [], _ => .nil
  | b :: _, h => .char (h b List.mem_cons_self).1 (h b List.mem_cons_self).2
      (chars_of_ne fun c hc => h c (List.mem_cons_of_mem b hc))

theorem ascii_ne {c d : Char} (hc : c.toNat < 128) (hd : d.toNat < 128) (h : c ≠ d) :
    ascii c ≠ ascii d := by
  intro he
  have := congrArg UInt8.toNat he
  simp only [ascii, UInt8.toNat_ofNat'] at this
  exact h (char_of_toNat (by omega))

theorem chars_encode {c : Char} (hq : c ≠ '"') (hs : c ≠ '\\') :
    Chars (String.utf8EncodeChar c) := by
  refine chars_of_ne fun b hb => ?_
  rcases Nat.lt_or_ge c.toNat 128 with h | h
  · rw [encode_ascii h] at hb
    obtain rfl := List.mem_singleton.1 hb
    exact ⟨ascii_ne h (by decide) hq, ascii_ne h (by decide) hs⟩
  · have := encode_high h b hb
    constructor <;> rintro rfl <;> exact absurd this (by decide)

theorem digitChar_lt : ∀ n < 16, (Nat.digitChar n).toNat < 128 ∧ Nat.digitChar n ≠ '"' ∧
    Nat.digitChar n ≠ '\\' := by decide

theorem chars_escape (c : Char) : Chars (bytesOf (escape c)) := by
  have hpair : ∀ d : Char, d.toNat < 128 → Chars (bytesOf ['\\', d]) := by
    intro d hd
    rw [bytesOf_cons (by decide), bytesOf_cons hd]
    exact .escaped .nil
  unfold escape
  split_ifs with h1 h2 h3 h4 h5 h6 h7 h8
  · exact hpair _ (by decide)
  · exact hpair _ (by decide)
  · exact hpair _ (by decide)
  · exact hpair _ (by decide)
  · exact hpair _ (by decide)
  · exact hpair _ (by decide)
  · exact hpair _ (by decide)
  · obtain ⟨ha, haq, has⟩ := digitChar_lt (c.toNat / 16) (by omega)
    obtain ⟨hb, hbq, hbs⟩ := digitChar_lt (c.toNat % 16) (by omega)
    simp only [bytesOf_cons (show ('\\' : Char).toNat < 128 by decide),
      bytesOf_cons (show ('u' : Char).toNat < 128 by decide),
      bytesOf_cons (show ('0' : Char).toNat < 128 by decide), bytesOf_cons ha, bytesOf_cons hb]
    refine .escaped (.char (by decide) (by decide) (.char (by decide) (by decide) ?_))
    refine .char (ascii_ne ha (by decide) haq) (ascii_ne ha (by decide) has) ?_
    exact .char (ascii_ne hb (by decide) hbq) (ascii_ne hb (by decide) hbs) .nil
  · simpa [bytesOf] using chars_encode h1 h2

theorem chars_flatMap : ∀ cs : List Char, Chars (bytesOf (cs.flatMap escape))
  | [] => .nil
  | c :: cs => by
    rw [List.flatMap_cons, bytesOf_append]
    exact (chars_escape c).append (chars_flatMap cs)

theorem bytesOf_writeStr (s : String) : bytesOf (writeStr s)
    = ascii '"' :: (bytesOf (s.toList.flatMap escape) ++ [ascii '"']) := by
  rw [writeStr, List.cons_append, bytesOf_cons (by decide), bytesOf_append]
  rfl

theorem isScalar_digit {c : Char} (h : c.isDigit) : c.toNat < 128 ∧ isScalar (ascii c) := by
  have hc : 48 ≤ c.toNat ∧ c.toNat ≤ 57 := by
    simpa [Char.isDigit, UInt32.le_iff_toNat_le] using h
  refine ⟨by omega, ?_⟩
  simp only [isScalar, decide_eq_true_eq, UInt8.le_iff_toNat_le, ascii, UInt8.toNat_ofNat']
  left
  constructor
  · show 48 % 2 ^ 8 ≤ c.toNat % 2 ^ 8
    omega
  · show c.toNat % 2 ^ 8 ≤ 57 % 2 ^ 8
    omega

/-- Characters a scalar is made of. -/
def IsScalarText (cs : List Char) : Prop := ∀ c ∈ cs, c.toNat < 128 ∧ isScalar (ascii c)

instance (cs : List Char) : Decidable (IsScalarText cs) := List.decidableBAll _ cs

theorem isScalarText_writeInt (n : ℤ) : IsScalarText (writeInt n) := by
  have hdigits : ∀ m : ℕ, IsScalarText (Nat.toDigits 10 m) := fun m c hc =>
    isScalar_digit (isDigit_of_mem_toDigits hc)
  rcases n with n | n
  · exact hdigits n
  · exact List.forall_mem_cons.2 ⟨by decide, hdigits (n + 1)⟩

theorem derives_scalar {cs : List Char} (hne : cs ≠ []) (h : IsScalarText cs) :
    Derives .value (bytesOf cs) := by
  have hbytes : bytesOf cs = cs.map ascii := by
    rw [bytesOf, List.map_eq_flatMap]
    exact List.flatMap_congr fun c hc => encode_ascii (h c hc).1
  rw [hbytes]
  refine .scalar (by simpa using hne) fun b hb => ?_
  obtain ⟨c, hc, rfl⟩ := List.mem_map.1 hb
  exact (h c hc).2

theorem Derives.toElement {w : List UInt8} (h : Derives .value w) : Derives .element w := by
  simpa using Derives.element (a := []) (b := []) (by simp) h (by simp)

theorem derives_member (k : String) {w : List UInt8} (h : Derives .element w) :
    Derives .members (bytesOf (writeStr k) ++ ascii ':' :: w) := by
  rw [bytesOf_writeStr]
  simpa using Derives.member (a := []) (b := []) (by simp) (chars_flatMap k.toList) (by simp) h

mutual

theorem derives_write : ∀ j : Json, Derives .value (bytesOf (write j))
  | .null => derives_scalar (by decide) (by decide)
  | .bool true => derives_scalar (by decide) (by decide)
  | .bool false => derives_scalar (by decide) (by decide)
  | .int n => by
    obtain ⟨c, cs, h, -⟩ := writeInt_eq_cons n
    exact derives_scalar (by rw [write, h]; simp) (isScalarText_writeInt n)
  | .dec m e => by
    refine derives_scalar (by simp [write]) fun c hc => ?_
    rcases List.mem_append.1 hc with hc | hc
    · exact isScalarText_writeInt m c hc
    · exact List.forall_mem_cons.2 ⟨by decide, isScalarText_writeInt e⟩ c hc
  | .str s => by
    rw [write, bytesOf_writeStr]
    exact .string (chars_flatMap s.toList)
  | .arr [] => .emptyArray (w := []) (by simp)
  | .arr (j :: js) => by
    obtain ⟨w, hw, h⟩ := derives_items js (derives_write j).toElement
    rw [write, bytesOf_cons (by decide), bytesOf_append, hw]
    exact .array h
  | .obj [] => .emptyObject (w := []) (by simp)
  | .obj ((k, j) :: fs) => by
    obtain ⟨w, hw, h⟩ := derives_fields fs (derives_member k (derives_write j).toElement)
    rw [List.append_assoc, List.cons_append] at hw
    rw [write, bytesOf_cons (by decide), bytesOf_append, bytesOf_cons (by decide), bytesOf_append,
      hw]
    exact .object h

theorem derives_items : ∀ (js : List Json) {w₀ : List UInt8}, Derives .element w₀ →
    ∃ w, w₀ ++ bytesOf (writeItems js) = w ++ [ascii ']'] ∧ Derives .elements w
  | [], w₀, h => ⟨w₀, rfl, .last h⟩
  | j :: js, w₀, h => by
    obtain ⟨w, hw, hjs⟩ := derives_items js (derives_write j).toElement
    refine ⟨w₀ ++ ascii ',' :: w, ?_, .cons h hjs⟩
    rw [writeItems, bytesOf_cons (by decide), bytesOf_append, hw, List.append_assoc,
      List.cons_append]

theorem derives_fields : ∀ (fs : List (String × Json)) {w₀ : List UInt8}, Derives .members w₀ →
    ∃ w, w₀ ++ bytesOf (writeFields fs) = w ++ [ascii '}'] ∧ Derives .members w
  | [], w₀, h => ⟨w₀, rfl, h⟩
  | (k, j) :: fs, w₀, h => by
    obtain ⟨w, hw, hfs⟩ := derives_fields fs (derives_member k (derives_write j).toElement)
    refine ⟨w₀ ++ ascii ',' :: w, ?_, .append h hfs⟩
    rw [List.append_assoc, List.cons_append] at hw
    rw [writeFields, bytesOf_cons (by decide), bytesOf_append, bytesOf_cons (by decide),
      bytesOf_append, hw, List.append_assoc, List.cons_append]

end

theorem derives_toVec (j : Json) : Derives .value j.toVec.data.toList := by
  rw [toVec_toList]
  exact derives_write j

theorem isText_toVec (j : Json) : IsText j.toVec.data.toList := (derives_toVec j).toElement

theorem head_toVec_obj (fields : List (String × Json)) :
    (Json.obj fields).toVec.data.toList.head? = some (ascii '{') := by
  rw [toVec_toList]
  rcases fields with _ | ⟨⟨k, j⟩, fs⟩ <;> rfl

end Json
