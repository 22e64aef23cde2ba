import XaeroFlux.Lib.Machine
import XaeroFlux.Proofs.SnapshotStore

/-!
# Whose items a snapshot holds

An event comes with the group of the topic it came on, and its payload with a group of its own. The
provider keeps the items under the first and never looks at the second, so what a snapshot holds is
its group's own as long as the two agree for each group, workspace and file taken in (`own_iff`).
-/

namespace XaeroFlux

namespace GroupSnapshot

/-- The descriptor, the workspaces and the files are the group's own. -/
def HoldsOwn (groupId : String) (s : GroupSnapshot) : Prop :=
  s.group.id = groupId ∧ (∀ ws ∈ s.workspaces, ws.groupId = groupId)
    ∧ ∀ file ∈ s.files, file.groupId = groupId

/-- The item names the group, where it is one that is kept and names a group. -/
def NamesOwn (groupId : String) (s : GroupSnapshot) : Item → Prop
  | .group group => group.id = groupId
  | .workspace ws => ws.groupId = groupId ∨ s.workspaces.any (·.id = ws.id)
  | .file file => file.groupId = groupId ∨ s.files.any (·.id = file.id)
  | .board _ | .chat _ => True

theorem holdsOwn_placeholder (g : String) : (placeholder g).HoldsOwn g :=
  ⟨rfl, by simp [placeholder], by simp [placeholder]⟩

theorem holdsOwn_accept {g : String} {s : GroupSnapshot} (h : s.HoldsOwn g) (item : Item) :
    (s.accept item).HoldsOwn g ↔ s.NamesOwn g item := by
  obtain ⟨hgroup, hws, hfiles⟩ := h
  unfold accept NamesOwn HoldsOwn
  cases item with
  | group group => exact ⟨fun h => h.1, fun h => ⟨h, hws, hfiles⟩⟩
  | workspace ws =>
    by_cases hin : s.workspaces.any (·.id = ws.id)
    · simp only [hin, if_true, or_true, iff_true]
      exact ⟨hgroup, hws, hfiles⟩
    · simp only [hin, Bool.false_eq_true, if_false, or_false, List.forall_mem_append,
        List.forall_mem_singleton]
      exact ⟨fun h => h.2.1.2, fun h => ⟨hgroup, ⟨hws, h⟩, hfiles⟩⟩
  | file file =>
    by_cases hin : s.files.any (·.id = file.id)
    · simp only [hin, if_true, or_true, iff_true]
      exact ⟨hgroup, hws, hfiles⟩
    · simp only [hin, Bool.false_eq_true, if_false, or_false, List.forall_mem_append,
        List.forall_mem_singleton]
      exact ⟨fun h => h.2.2.2, fun h => ⟨hgroup, hws, hfiles, h⟩⟩
  | board board =>
    by_cases hin : s.boards.any (·.id = board.id)
    · simp only [hin, if_true, iff_true]
      exact ⟨hgroup, hws, hfiles⟩
    · simp only [hin, Bool.false_eq_true, if_false, iff_true]
      exact ⟨hgroup, hws, hfiles⟩
  | chat chat => exact ⟨fun _ => trivial, fun _ => ⟨hgroup, hws, hfiles⟩⟩

end GroupSnapshot

namespace SnapshotProvider

variable (fromStr : String → Option Json)

/-- One event, with the group it is given for. -/
def step (p : SnapshotProvider) (u : String × Event) : Option SnapshotProvider :=
  some (p.updateFromEvent fromStr u.1 u.2)

/-- Every snapshot holds its own group's items. -/
def Own (p : SnapshotProvider) : Prop := ∀ g s, p.getSnapshot g = some s → s.HoldsOwn g

variable {fromStr}

theorem run_step (us : List (String × Event)) (p : SnapshotProvider) :
    Machine.run (step fromStr) p us = some (p.updates fromStr us) := by
  induction us generalizing p with
  | nil => rfl
  | cons u us ih => exact ih _

theorem own_updateFromEvent {p : SnapshotProvider} (h : p.Own) (g : String) (event : Event) :
    (p.updateFromEvent fromStr g event).Own ↔
      ∀ item ∈ Item.ofPayload fromStr event.payload,
        ((p.getSnapshot g).getD (.placeholder g)).NamesOwn g item := by
  have hget (g' : String) := getSnapshot_updateFromEvent fromStr p g g' event
  have hbefore : ((p.getSnapshot g).getD (.placeholder g)).HoldsOwn g := by
    rcases hs : p.getSnapshot g with _ | s
    · exact GroupSnapshot.holdsOwn_placeholder g
    · exact h g s hs
  -- the other groups' snapshots are what they were
  have hown : (p.updateFromEvent fromStr g event).Own ↔
      (updateSnapshot fromStr event ((p.getSnapshot g).getD (.placeholder g))).HoldsOwn g := by
    constructor
    · intro hp
      exact hp g _ (by rw [hget, if_pos rfl])
    · intro hs g' s hs'
      rw [hget] at hs'
      split_ifs at hs' with hg
      · rw [hg, ← Option.some.inj hs']
        exact hs
      · exact h g' s hs'
  rw [hown, updateSnapshot_eq]
  rcases Item.ofPayload fromStr event.payload with _ | item
  · exact iff_of_true hbefore fun _ h => absurd h (Option.not_mem_none _)
  · simp only [Option.mem_def, Option.some.injEq, forall_eq']
    exact GroupSnapshot.holdsOwn_accept hbefore item

/-- Every snapshot holds its own group's items throughout, exactly if each event's payload names the
group it is given for, where it is taken in. -/
theorem own_iff (nodeId : String) (us : List (String × Event)) :
    Machine.Throughout (step fromStr) (new nodeId) us (fun _ p => p.Own) ↔
      Machine.EachStep (step fromStr) (new nodeId) us fun _ p u =>
        ∀ item ∈ Item.ofPayload fromStr u.2.payload,
          ((p.getSnapshot u.1).getD (.placeholder u.1)).NamesOwn u.1 item := by
  refine Machine.throughout_iff_eachStep ?_ ?_ (run_step us _)
  · intro g s hs
    simp [new, getSnapshot] at hs
  · intro _ p u p' _ hp hstep
    obtain rfl := Option.some.inj hstep
    exact own_updateFromEvent hp u.1 u.2

/-- The payload of an event of the group `g1` that describes the group `g2`. -/
def strayGroup : Event where
  id := "e1"
  payload := (Json.obj [("type", .str "GroupCreated"), ("id", .str "g2"), ("name", .str "Two"),
    ("icon", .str "i"), ("color", .str "c"), ("created_at", .int 1)]).text
  source := "peer"
  ts := 1

theorem ofPayload_strayGroup : Item.ofPayload ValueReader.compact.fromStr strayGroup.payload =
    some (.group ⟨"g2", "Two", "i", "c", 1⟩) := by
  rw [Item.ofPayload, strayGroup, ValueReader.compact_text]
  decide

theorem strayGroup_not_own :
    ¬ Machine.Throughout (step ValueReader.compact.fromStr) (new "me") [("g1", strayGroup)]
      fun _ p => p.Own := by
  intro h
  have hstart : (new "me").Own := h [] [("g1", strayGroup)] _ rfl rfl
  have hafter := h [("g1", strayGroup)] [] _ rfl (run_step _ _)
  have hnames : "g2" = "g1" :=
    (own_updateFromEvent hstart "g1" strayGroup).1 hafter _ ofPayload_strayGroup
  simp at hnames

end SnapshotProvider

end XaeroFlux
