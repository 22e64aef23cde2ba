import XaeroFlux.Lib.JsonText

/-!
# Pretty JSON

The text of a value with a line for each item and field, as `serde_json` lays it out. A text of a
value is its tokens with white space around them (`Spaced`), which the pretty text is
(`spaced_writePretty`); with the white space outside its strings left out it is the compact one
(`strip_of_spaced`), so the reader of that reads it (`readSpaced_of_spells`). What is cut off the
pretty text of an object leaves no text (`not_isText_of_cut`).
-/

namespace Json

/-! ## Writing -/

/-- The start of a line, two spaces deep for each open bracket. -/
def newline (n : ℕ) : List Char := '\n' :: List.replicate (2 * n) ' '

mutual

def writePretty (n : ℕ) : Json → List Char
  | .arr (j :: js) => '[' :: (newline (n + 1) ++ (writePretty (n + 1) j ++ prettyItems n js))
  | .obj ((k, j) :: fs) =>
    '{' :: (newline (n + 1)
      ++ (writeStr k ++ ':' :: ' ' :: (writePretty (n + 1) j ++ prettyFields n fs)))
  | j => write j

def prettyItems (n : ℕ) : List Json → List Char
  | [] => newline n ++ [']']
  | j :: js => ',' :: (newline (n + 1) ++ (writePretty (n + 1) j ++ prettyItems n js))

def prettyFields (n : ℕ) : List (String × Json) → List Char
  | [] => newline n ++ ['}']
  | (k, j) :: fs =>
    ',' :: (newline (n + 1)
      ++ (writeStr k ++ ':' :: ' ' :: (writePretty (n + 1) j ++ prettyFields n fs)))

end

/-- The pretty text of a value as UTF-8 bytes. -/
def toVecPretty (j : Json) : ByteArray := (String.ofList (writePretty 0 j)).toUTF8

/-! ## Tokens -/

mutual

def tokens : Json → List (List Char)
  | .arr [] => [['['], [']']]
  | .arr (j :: js) => ['['] :: (tokens j ++ itemTokens js)
  | .obj [] => [['{'], ['}']]
  | .obj ((k, j) :: fs) => ['{'] :: writeStr k :: [':'] :: (tokens j ++ fieldTokens fs)
  | j => [write j]

def itemTokens : List Json → List (List Char)
  | [] => [[']']]
  | j :: js => [','] :: (tokens j ++ itemTokens js)

def fieldTokens : List (String × Json) → List (List Char)
  | [] => [['}']]
  | (k, j) :: fs => [','] :: writeStr k :: [':'] :: (tokens j ++ fieldTokens fs)

end

def isBlank (c : Char) : Bool := c = ' ' ∨ c = '\n' ∨ c = '\r' ∨ c = '\t'

/-- Tokens with white space before, between and after them. -/
inductive Spaced : List (List Char) → List Char → Prop where
  | nil {w : List Char} (hw : ∀ c ∈ w, isBlank c) : Spaced [] w
  | cons {w t u : List Char} {ts : List (List Char)} (hw : ∀ c ∈ w, isBlank c) (h : Spaced ts u) :
      Spaced (t :: ts) (w ++ (t ++ u))

/-- The bytes are a text of the value. -/
def Spells (j : Json) (bytes : ByteArray) : Prop :=
  ∃ cs, Spaced (tokens j) cs ∧ bytes = (String.ofList cs).toUTF8

section Spaced

variable {ts : List (List Char)} {u : List Char}

theorem Spaced.token (t : List Char) (h : Spaced ts u) : Spaced (t :: ts) (t ++ u) :=
  .cons (w := []) (by simp) h

theorem Spaced.blank {w : List Char} (hw : ∀ c ∈ w, isBlank c) (h : Spaced ts u) :
    Spaced ts (w ++ u) := by
  cases h with
  | nil hu => exact .nil (List.forall_mem_append.2 ⟨hw, hu⟩)
  | cons hu h =>
    rw [← List.append_assoc]
    exact .cons (List.forall_mem_append.2 ⟨hw, hu⟩) h

theorem Spaced.append {ts' : List (List Char)} {u' : List Char} (h : Spaced ts u)
    (h' : Spaced ts' u') : Spaced (ts ++ ts') (u ++ u') := by
  induction h with
  | nil hw => exact h'.blank hw
  | cons hw _ ih =>
    rw [List.append_assoc, List.append_assoc]
    exact .cons hw ih

theorem spaced_token (t : List Char) : Spaced [t] t := by
  have h := Spaced.token t (.nil (w := []) (by simp))
  rwa [List.append_nil] at h

end Spaced

theorem isBlank_of_mem_newline {n : ℕ} : ∀ c ∈ newline n, isBlank c := by
  intro c hc
  rcases List.mem_cons.1 hc with rfl | hc
  · rfl
  · obtain rfl := List.eq_of_mem_replicate hc
    rfl

theorem Spaced.newline {ts : List (List Char)} {u : List Char} (n : ℕ) (h : Spaced ts u) :
    Spaced ts (Json.newline n ++ u) := h.blank isBlank_of_mem_newline

/-- A key, its colon and the value after a space. -/
theorem Spaced.key {ts : List (List Char)} {u : List Char} (k : String) (h : Spaced ts u) :
    Spaced (writeStr k :: [':'] :: ts) (writeStr k ++ ':' :: ' ' :: u) :=
  .token _ (.token [':'] (h.blank (w := [' ']) (List.forall_mem_singleton.2 rfl)))

mutual

theorem spaced_writePretty : ∀ (n : ℕ) (j : Json), Spaced (tokens j) (writePretty n j)
  | n, .null | n, .bool _ | n, .int _ | n, .dec _ _ | n, .str _ => by
    simpa only [tokens, writePretty] using spaced_token _
  | n, .arr [] => by
    simp only [tokens, writePretty, write]
    exact (spaced_token [']']).token ['[']
  | n, .arr (j :: js) => by
    rw [tokens, writePretty]
    exact .token ['['] (((spaced_writePretty (n + 1) j).append (spaced_items n js)).newline (n + 1))
  | n, .obj [] => by
    simp only [tokens, writePretty, write]
    exact (spaced_token ['}']).token ['{']
  | n, .obj ((k, j) :: fs) => by
    rw [tokens, writePretty]
    exact .token ['{'] ((((spaced_writePretty (n + 1) j).append (spaced_fields n fs)).key k).newline
      (n + 1))

theorem spaced_items : ∀ (n : ℕ) (js : List Json), Spaced (itemTokens js) (prettyItems n js)
  | n, [] => by
    rw [itemTokens, prettyItems]
    exact (spaced_token [']']).newline n
  | n, j :: js => by
    rw [itemTokens, prettyItems]
    exact .token [','] (((spaced_writePretty (n + 1) j).append (spaced_items n js)).newline (n + 1))

theorem spaced_fields : ∀ (n : ℕ) (fs : List (String × Json)),
    Spaced (fieldTokens fs) (prettyFields n fs)
  | n, [] => by
    rw [fieldTokens, prettyFields]
    exact (spaced_token ['}']).newline n
  | n, (k, j) :: fs => by
    rw [fieldTokens, prettyFields]
    exact .token [','] ((((spaced_writePretty (n + 1) j).append (spaced_fields n fs)).key k).newline
      (n + 1))

end

theorem spells_toVecPretty (j : Json) : Spells j j.toVecPretty :=
  ⟨writePretty 0 j, spaced_writePretty 0 j, rfl⟩

/-! ## Reading -/

/-- A text without the white space outside its strings. -/
def strip : Mode → List Char → List Char
  | _, [] => []
  | .out, c :: cs =>
    if isBlank c then strip .out cs else c :: strip (if c = '"' then .inString else .out) cs
  | .inString, c :: cs =>
    c :: strip (if c = '"' then .out else if c = '\\' then .escaped else .inString) cs
  | .escaped, c :: cs => c :: strip .inString cs

/-- The value some bytes are a text of. -/
def readSpaced (bytes : ByteArray) : Option Json :=
  (String.fromUTF8? bytes).bind fun s => read (strip .out s.toList)

mutual

theorem flatten_tokens : ∀ j : Json, (tokens j).flatten = write j
  | .null | .bool _ | .int _ | .dec _ _ | .str _ => by simp only [tokens, List.flatten_singleton]
  | .arr [] => by simp [tokens, write]
  | .arr (j :: js) => by
    simp only [tokens, write, List.flatten_cons, List.flatten_append, flatten_tokens j,
      flatten_itemTokens js, List.singleton_append]
  | .obj [] => by simp [tokens, write]
  | .obj ((k, j) :: fs) => by
    simp only [tokens, write, List.flatten_cons, List.flatten_append, flatten_tokens j,
      flatten_fieldTokens fs, List.singleton_append]

theorem flatten_itemTokens : ∀ js : List Json, (itemTokens js).flatten = writeItems js
  | [] => by simp [itemTokens, writeItems]
  | j :: js => by
    simp only [itemTokens, writeItems, List.flatten_cons, List.flatten_append, flatten_tokens j,
      flatten_itemTokens js, List.singleton_append]

theorem flatten_fieldTokens : ∀ fs : List (String × Json), (fieldTokens fs).flatten = writeFields fs
  | [] => by simp [fieldTokens, writeFields]
  | (k, j) :: fs => by
    simp only [fieldTokens, writeFields, List.flatten_cons, List.flatten_append, flatten_tokens j,
      flatten_fieldTokens fs, List.singleton_append]

end

/-- Nothing in the token is left out, and it ends outside strings. -/
def IsToken (t : List Char) : Prop := ∀ u, strip .out (t ++ u) = t ++ strip .out u

def isPlain (c : Char) : Bool := !isBlank c && c ≠ '"'

theorem isToken_of_plain : ∀ {t : List Char}, t.all isPlain → IsToken t
  | [], _, u => rfl
  | c :: t, h, u => by
    rw [List.all_cons, Bool.and_eq_true, isPlain, Bool.and_eq_true] at h
    obtain ⟨⟨hb, hq⟩, ht⟩ := h
    have hb' : ¬ isBlank c := by simpa using hb
    have hq' : c ≠ '"' := by simpa using hq
    rw [List.cons_append, strip, if_neg hb', if_neg hq', isToken_of_plain ht u]
    rfl

theorem strip_inString {c : Char} (hq : c ≠ '"') (hs : c ≠ '\\') (u : List Char) :
    strip .inString (c :: u) = c :: strip .inString u := by
  rw [strip, if_neg hq, if_neg hs]

theorem strip_escape (c : Char) (u : List Char) :
    strip .inString (escape c ++ u) = escape c ++ strip .inString u := by
  have hpair : ∀ d : Char, strip .inString (['\\', d] ++ u) = ['\\', d] ++ strip .inString u :=
    fun _ => rfl
  unfold escape
  split_ifs with h1 h2 h3 h4 h5 h6 h7 h8
  · exact hpair _
  · exact hpair _
  · exact hpair _
  · exact hpair _
  · exact hpair _
  · exact hpair _
  · exact hpair _
  · obtain ⟨-, haq, has⟩ := digitChar_lt (c.toNat / 16) (by omega)
    obtain ⟨-, hbq, hbs⟩ := digitChar_lt (c.toNat % 16) (by omega)
    show '\\' :: 'u' :: strip .inString ('0' :: '0' :: _ :: _ :: u) = _
    rw [strip_inString (by decide) (by decide), strip_inString (by decide) (by decide),
      strip_inString haq has, strip_inString hbq hbs]
    rfl
  · exact strip_inString h1 h2 u

theorem isToken_writeStr (s : String) : IsToken (writeStr s) := by
  intro u
  have hchars : ∀ cs : List Char, strip .inString (cs.flatMap escape ++ '"' :: u)
      = cs.flatMap escape ++ '"' :: strip .out u := by
    intro cs
    induction cs with
    | nil => rfl
    | cons c cs ih =>
      rw [List.flatMap_cons, List.append_assoc, strip_escape, ih, List.append_assoc]
  have hopen : ∀ v, strip .out ('"' :: v) = '"' :: strip .inString v := fun _ => rfl
  simp only [writeStr, List.cons_append, List.append_assoc, List.nil_append, hopen, hchars]

theorem isToken_writeInt (n : ℤ) : IsToken (writeInt n) := by
  have hdigit : ∀ c : Char, c.isDigit → isPlain c := by
    intro c hc
    have hne : ∀ d : Char, ¬ d.isDigit → c ≠ d := by
      rintro d hd rfl
      exact hd hc
    simp [isPlain, isBlank, hne ' ' (by decide), hne '\n' (by decide), hne '\r' (by decide),
      hne '\t' (by decide), hne '"' (by decide)]
  have hdigits : ∀ m : ℕ, (Nat.toDigits 10 m).all isPlain := fun m =>
    List.all_eq_true.2 fun c hc => hdigit c (isDigit_of_mem_toDigits hc)
  rcases n with n | n
  · exact isToken_of_plain (hdigits n)
  · refine isToken_of_plain ?_
    rw [writeInt, List.all_cons, hdigits (n + 1)]
    rfl

theorem IsToken.append {a b : List Char} (ha : IsToken a) (hb : IsToken b) : IsToken (a ++ b) := by
  intro u
  rw [List.append_assoc, ha, hb, List.append_assoc]

mutual

theorem isToken_of_mem : ∀ j : Json, ∀ t ∈ tokens j, IsToken t
  | .null => by simpa [tokens] using isToken_of_plain (by decide)
  | .bool true => by simpa [tokens] using isToken_of_plain (by decide)
  | .bool false => by simpa [tokens] using isToken_of_plain (by decide)
  | .int n => by simpa [tokens, write] using isToken_writeInt n
  | .dec m e => by
    have he : IsToken ('e' :: writeInt e) :=
      (isToken_of_plain (t := ['e']) (by decide)).append (isToken_writeInt e)
    simpa [tokens, write] using (isToken_writeInt m).append he
  | .str s => by simpa [tokens, write] using isToken_writeStr s
  | .arr [] => by
    simpa [tokens] using ⟨isToken_of_plain (by decide), isToken_of_plain (by decide)⟩
  | .arr (j :: js) => by
    have hopen : IsToken ['['] := isToken_of_plain (by decide)
    have hj := isToken_of_mem j
    have hjs := isToken_of_mem_items js
    rw [tokens]
    exact List.forall_mem_cons.2 ⟨hopen, List.forall_mem_append.2 ⟨hj, hjs⟩⟩
  | .obj [] => by
    simpa [tokens] using ⟨isToken_of_plain (by decide), isToken_of_plain (by decide)⟩
  | .obj ((k, j) :: fs) => by
    have hopen : IsToken ['{'] := isToken_of_plain (by decide)
    have hcolon : IsToken [':'] := isToken_of_plain (by decide)
    have hj := isToken_of_mem j
    have hfs := isToken_of_mem_fields fs
    rw [tokens]
    simp only [List.forall_mem_cons]
    exact ⟨hopen, isToken_writeStr k, hcolon, List.forall_mem_append.2 ⟨hj, hfs⟩⟩

theorem isToken_of_mem_items : ∀ js : List Json, ∀ t ∈ itemTokens js, IsToken t
  | [] => by simpa [itemTokens] using isToken_of_plain (by decide)
  | j :: js => by
    have hcomma : IsToken [','] := isToken_of_plain (by decide)
    have hj := isToken_of_mem j
    have hjs := isToken_of_mem_items js
    rw [itemTokens]
    exact List.forall_mem_cons.2 ⟨hcomma, List.forall_mem_append.2 ⟨hj, hjs⟩⟩

theorem isToken_of_mem_fields : ∀ fs : List (String × Json), ∀ t ∈ fieldTokens fs, IsToken t
  | [] => by simpa [fieldTokens] using isToken_of_plain (by decide)
  | (k, j) :: fs => by
    have hcomma : IsToken [','] := isToken_of_plain (by decide)
    have hcolon : IsToken [':'] := isToken_of_plain (by decide)
    have hj := isToken_of_mem j
    have hfs := isToken_of_mem_fields fs
    rw [fieldTokens]
    simp only [List.forall_mem_cons]
    exact ⟨hcomma, isToken_writeStr k, hcolon, List.forall_mem_append.2 ⟨hj, hfs⟩⟩

end

theorem strip_blank {w : List Char} (hw : ∀ c ∈ w, isBlank c) (u : List Char) :
    strip .out (w ++ u) = strip .out u := by
  induction w with
  | nil => rfl
  | cons c w ih =>
    obtain ⟨hc, hw⟩ := List.forall_mem_cons.1 hw
    rw [List.cons_append, strip, if_pos hc, ih hw]

theorem strip_of_spaced {ts : List (List Char)} {u : List Char} (h : Spaced ts u)
    (ht : ∀ t ∈ ts, IsToken t) : strip .out u = ts.flatten := by
  induction h with
  | @nil w hw =>
    have h := strip_blank hw []
    rwa [List.append_nil] at h
  | @cons w t u ts hw _ ih =>
    obtain ⟨ht, hts⟩ := List.forall_mem_cons.1 ht
    rw [strip_blank hw, ht, ih hts, List.flatten_cons]

theorem readSpaced_of_spells {j : Json} {bytes : ByteArray} (h : Spells j bytes) :
    readSpaced bytes = some j := by
  obtain ⟨cs, hcs, rfl⟩ := h
  rw [readSpaced, fromUTF8?_toUTF8, Option.bind_some, String.toList_ofList,
    strip_of_spaced hcs (isToken_of_mem j), flatten_tokens, read_write]

/-! ## A text cut short -/

theorem isSpace_newline (n : ℕ) : ∀ b ∈ bytesOf (newline n), isSpace b := by
  intro b hb
  obtain ⟨c, hc, hb⟩ := List.mem_flatMap.1 hb
  rcases List.mem_cons.1 hc with rfl | hc
  · rw [encode_ascii (by decide)] at hb
    obtain rfl := List.mem_singleton.1 hb
    rfl
  · obtain rfl := List.eq_of_mem_replicate hc
    rw [encode_ascii (by decide)] at hb
    obtain rfl := List.mem_singleton.1 hb
    rfl

theorem Derives.lead {w a : List UInt8} (h : Derives .value w) (ha : ∀ b ∈ a, isSpace b) :
    Derives .element (a ++ w) := by
  simpa using Derives.element (b := []) ha h (by simp)

/-- White space may follow anything but a value. -/
theorem Derives.trail {s : Symbol} {w c : List UInt8} (h : Derives s w) (hs : s ≠ .value)
    (hc : ∀ b ∈ c, isSpace b) : Derives s (w ++ c) := by
  induction h with
  | scalar | string | emptyArray | array | emptyObject | object => exact absurd rfl hs
  | element ha h hb =>
    rw [List.append_assoc, List.append_assoc]
    exact .element ha h (List.forall_mem_append.2 ⟨hb, hc⟩)
  | last _ ih => exact .last (ih (by simp))
  | cons h _ _ ih =>
    rw [List.append_assoc]
    exact .cons h (ih (by simp))
  | member ha hk hb _ ih =>
    simp only [List.append_assoc, List.cons_append]
    exact .member ha hk hb (ih (by simp))
  | append h _ _ ih =>
    rw [List.append_assoc]
    exact .append h (ih (by simp))

theorem derives_key (n : ℕ) (k : String) {w : List UInt8} (h : Derives .value w) :
    Derives .members
      (bytesOf (newline n) ++ (bytesOf (writeStr k) ++ ascii ':' :: ascii ' ' :: w)) := by
  have hspace : ∀ b ∈ [ascii ' '], isSpace b := List.forall_mem_singleton.2 rfl
  rw [bytesOf_writeStr]
  simpa using Derives.member (b := []) (isSpace_newline n) (chars_flatMap k.toList) (by simp)
    (h.lead hspace)

mutual

theorem derives_writePretty : ∀ (n : ℕ) (j : Json), Derives .value (bytesOf (writePretty n j))
  | n, .null | n, .bool _ | n, .int _ | n, .dec _ _ | n, .str _ | n, .arr [] | n, .obj [] => by
    simpa only [writePretty] using derives_write _
  | n, .arr (j :: js) => by
    have hj := (derives_writePretty (n + 1) j).lead (isSpace_newline (n + 1))
    obtain ⟨w, hw, h⟩ := derives_prettyItems n js hj
    rw [List.append_assoc] at hw
    rw [writePretty, bytesOf_cons (by decide), bytesOf_append, bytesOf_append, hw]
    exact .array h
  | n, .obj ((k, j) :: fs) => by
    have hj := derives_key (n + 1) k (derives_writePretty (n + 1) j)
    obtain ⟨w, hw, h⟩ := derives_prettyFields n fs hj
    simp only [List.append_assoc, List.cons_append] at hw
    rw [writePretty, bytesOf_cons (by decide), bytesOf_append, bytesOf_append,
      bytesOf_cons (by decide), bytesOf_cons (by decide), bytesOf_append, hw]
    exact .object h

theorem derives_prettyItems : ∀ (n : ℕ) (js : List Json) {w₀ : List UInt8}, Derives .element w₀ →
    ∃ w, w₀ ++ bytesOf (prettyItems n js) = w ++ [ascii ']'] ∧ Derives .elements w
  | n, [], w₀, h => by
    refine ⟨w₀ ++ bytesOf (newline n), ?_, .last (h.trail (by simp) (isSpace_newline n))⟩
    rw [prettyItems, bytesOf_append, List.append_assoc]
    rfl
  | n, j :: js, w₀, h => by
    have hj := (derives_writePretty (n + 1) j).lead (isSpace_newline (n + 1))
    obtain ⟨w, hw, hjs⟩ := derives_prettyItems n js hj
    refine ⟨w₀ ++ ascii ',' :: w, ?_, .cons h hjs⟩
    rw [List.append_assoc] at hw
    rw [prettyItems, bytesOf_cons (by decide), bytesOf_append, bytesOf_append, hw,
      List.append_assoc, List.cons_append]

theorem derives_prettyFields : ∀ (n : ℕ) (fs : List (String × Json)) {w₀ : List UInt8},
    Derives .members w₀ →
    ∃ w, w₀ ++ bytesOf (prettyFields n fs) = w ++ [ascii '}'] ∧ Derives .members w
  | n, [], w₀, h => by
    refine ⟨w₀ ++ bytesOf (newline n), ?_, h.trail (by simp) (isSpace_newline n)⟩
    rw [prettyFields, bytesOf_append, List.append_assoc]
    rfl
  | n, (k, j) :: fs, w₀, h => by
    have hj := derives_key (n + 1) k (derives_writePretty (n + 1) j)
    obtain ⟨w, hw, hfs⟩ := derives_prettyFields n fs hj
    refine ⟨w₀ ++ ascii ',' :: w, ?_, .append h hfs⟩
    simp only [List.append_assoc, List.cons_append] at hw
    rw [prettyFields, bytesOf_cons (by decide), bytesOf_append, bytesOf_append,
      bytesOf_cons (by decide), bytesOf_cons (by decide), bytesOf_append, hw,
      List.append_assoc, List.cons_append]

end

theorem toVecPretty_toList (j : Json) : j.toVecPretty.data.toList = bytesOf (writePretty 0 j) := by
  rw [toVecPretty, show (String.ofList (writePretty 0 j)).toUTF8
    = (String.ofList (writePretty 0 j)).toByteArray from rfl, String.toByteArray_ofList]
  exact List.toList_data_toByteArray

theorem isText_toVecPretty (j : Json) : IsText j.toVecPretty.data.toList := by
  rw [toVecPretty_toList]
  exact (derives_writePretty 0 j).toElement

/-- The pretty text of an object, cut short, is no text. -/
theorem not_isText_of_cut (fields : List (String × Json)) {p : List UInt8}
    (hp : p <+: (obj fields).toVecPretty.data.toList)
    (hne : p ≠ (obj fields).toVecPretty.data.toList) : ¬ IsText p := by
  rw [toVecPretty_toList] at hp hne
  refine not_isText_of_prefix (derives_writePretty 0 _) ?_ hp hne
  rcases fields with _ | ⟨⟨k, j⟩, fs⟩ <;> rfl

end Json
