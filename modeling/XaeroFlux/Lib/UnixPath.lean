import Mathlib.Data.List.DropRight

/-!
# Unix paths

`Path::parent` and `Path::join` of Rust's `std::path` on Unix, of any string. A path is its head,
the root or a `.` it starts with, and the segments of its body; empty segments and those that are
`.` are no components.
-/

namespace UnixPath

def head : List Char → List Char
  | '/' :: _ => ['/']
  | '.' :: '/' :: _ => ['.']
  | ['.'] => ['.']
  | _ => []

def segments (path : List Char) : List (List Char) := (path.drop (head path).length).splitOn '/'

def skipped (segment : List Char) : Bool := segment = [] || segment = ['.']

/-- Whether the path is absolute, and the components after its head. -/
def components (path : String) : Bool × List (List Char) :=
  (head path.toList = ['/'], (segments path.toList).filter fun segment => !skipped segment)

/-- `Path::parent`. -/
def parent (path : String) : Option String :=
  let body := (segments path.toList).rdropWhile skipped
  if body = [] then
    if head path.toList = ['.'] then some "" else none
  else
    some (String.ofList
      (head path.toList ++ ['/'].intercalate (body.dropLast.rdropWhile skipped)))

/-- `Path::join`. -/
def join (path file : String) : String :=
  if head file.toList = ['/'] then file
  else if path.toList.getLast?.any (· ≠ '/') then path ++ "/" ++ file
  else path ++ file

structure FileName (name : String) : Prop where
  not_sep : '/' ∉ name.toList
  not_skipped : skipped name.toList = false

theorem FileName.head_eq {name : String} (h : FileName name) : head name.toList = [] := by
  obtain ⟨h1, h2⟩ := h
  revert h1 h2
  generalize name.toList = l
  intro h1 h2
  unfold head
  split <;> simp_all [skipped]

theorem FileName.splitOn_eq {name : String} (h : FileName name) :
    name.toList.splitOn '/' = [name.toList] := List.splitOn_eq_singleton h.not_sep

theorem head_append (dir rest : List Char) :
    head (dir ++ '/' :: rest) = head (dir ++ ['/']) := by
  rcases dir with _ | ⟨c, _ | ⟨d, dir⟩⟩
  · rfl
  · by_cases hc : c = '/'
    · simp [head, hc]
    · by_cases hd : c = '.' <;> simp [head, hc, hd]
  · by_cases hc : c = '/'
    · simp [head, hc]
    · by_cases hd : c = '.' ∧ d = '/'
      · simp [head, hd.1, hd.2]
      · rw [List.cons_append, List.cons_append, List.cons_append, List.cons_append]
        unfold head
        split <;> simp_all

/-- The head of a path takes no more than the directory it names, if that is named at all. -/
theorem length_head_le {dir : List Char} (h : dir ≠ []) (rest : List Char) :
    (head (dir ++ rest)).length ≤ dir.length := by
  have hpos := List.length_pos_of_ne_nil h
  unfold head
  split <;> simp only [List.length_cons, List.length_nil] <;> omega

/-- A file's name is the last segment of its path, after those of its directory. -/
theorem segments_append (dir : List Char) :
    ∃ segs, ∀ name, FileName name →
      segments (dir ++ '/' :: name.toList) = segs ++ [name.toList] := by
  rcases eq_or_ne dir [] with rfl | hdir
  · exact ⟨[], fun name h => by simpa [segments, head] using h.splitOn_eq⟩
  · refine ⟨(dir.drop (head (dir ++ ['/'])).length).splitOn '/', fun name h => ?_⟩
    rw [segments, head_append, List.drop_append_of_le_length (length_head_le hdir _),
      List.splitOn_append_cons_self, h.splitOn_eq]

theorem parent_eq_of_dir (dir : String) {a b : String} (ha : FileName a) (hb : FileName b) :
    parent (dir ++ "/" ++ a) = parent (dir ++ "/" ++ b) := by
  obtain ⟨segs, hsegs⟩ := segments_append dir.toList
  have key : ∀ name, FileName name → parent (dir ++ "/" ++ name)
      = some (String.ofList (head (dir.toList ++ ['/'])
        ++ ['/'].intercalate (segs.rdropWhile skipped))) := by
    intro name h
    have hlist : (dir ++ "/" ++ name).toList = dir.toList ++ '/' :: name.toList := by simp
    have hbody : (segs ++ [name.toList]).rdropWhile skipped = segs ++ [name.toList] :=
      List.rdropWhile_concat_neg _ _ _ (by simp [h.not_skipped])
    simp [parent, hlist, hsegs name h, hbody, head_append]
  rw [key a ha, key b hb]

theorem FileName.parent_eq {name : String} (h : FileName name) : parent name = some "" := by
  have hsegs : segments name.toList = [name.toList] := by
    rw [segments, h.head_eq]
    exact h.splitOn_eq
  have hbody : [name.toList].rdropWhile skipped = [name.toList] := by
    rw [List.rdropWhile_singleton, if_neg (by simp [h.not_skipped])]
  simp [parent, hsegs, hbody, h.head_eq]

end UnixPath
