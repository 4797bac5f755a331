import Mathlib.Data.List.TakeWhile
import Stepwise.Proofs.Plan.Steps
import Stepwise.Proofs.Run.Target

/-!
# What is left of a plan

When the first steps of a plan are done and recorded, the plan for the same target is what is left
of it (`Plan.rest_of_moved`). This holds for every run up, and for a run down to an identifier; one
that is given a number of steps would take as many again.
-/

namespace Stepwise

/-- Whether a run to the target that is stopped can be taken up by another one. -/
def RunTarget.IsResumable : RunTarget → Prop
  | .down (.count _) => False
  | _ => True

namespace Plan

/-- What is left of a plan after its first steps. -/
def rest (plan : Plan) (done : Nat) : Plan :=
  { plan with steps := plan.steps.drop done }

/-- What a list has besides its first members comes after them. -/
theorem filter_not_mem_take {α β : Type} [DecidableEq β] {f : α → β} {items : List α}
    (nodup : (items.map f).Nodup) (n : Nat) :
    items.filter (f · ∉ (items.take n).map f) = items.drop n := by
  have apart := nodup
  rw [← List.take_append_drop n items, List.map_append, List.nodup_append] at apart
  have first : (items.take n).filter (f · ∉ (items.take n).map f) = [] := by
    refine List.filter_eq_nil_iff.mpr fun item inside outside => ?_
    exact of_decide_eq_true outside (List.mem_map_of_mem inside)
  have last : (items.drop n).filter (f · ∉ (items.take n).map f) = items.drop n := by
    refine List.filter_eq_self.mpr fun item later => decide_eq_true fun inside => ?_
    exact apart.2.2 (f item) inside (f item) (List.mem_map_of_mem later) rfl
  have whole : items.filter (f · ∉ (items.take n).map f) =
      (items.take n ++ items.drop n).filter (f · ∉ (items.take n).map f) := by
    rw [List.take_append_drop]
  rw [whole, List.filter_append, first, last, List.nil_append]

/-- Without the first members that pass a test, the members before the first failure are those that
were left. -/
theorem takeWhile_filter_not_mem {α : Type} [DecidableEq α] (test : α → Bool) {items : List α}
    (nodup : items.Nodup) (n : Nat) :
    (items.filter (· ∉ (items.takeWhile test).take n)).takeWhile test =
      (items.takeWhile test).drop n := by
  have apart := nodup
  rw [← List.takeWhile_append_dropWhile (p := test) (l := items), List.nodup_append] at apart
  have passing := filter_not_mem_take (f := id) (by simpa using apart.1) n
  simp only [List.map_id, id] at passing
  have failing : (items.dropWhile test).filter (· ∉ (items.takeWhile test).take n) =
      items.dropWhile test := by
    refine List.filter_eq_self.mpr fun item later => decide_eq_true fun inside => ?_
    exact apart.2.2 item (List.mem_of_mem_take inside) item later rfl
  have stops : (items.dropWhile test).takeWhile test = [] :=
    List.takeWhile_eq_nil_iff.mpr (List.dropWhile_get_zero_not test items)
  have whole : items.filter (· ∉ (items.takeWhile test).take n) =
      (items.takeWhile test ++ items.dropWhile test).filter
        (· ∉ (items.takeWhile test).take n) := by
    rw [List.takeWhile_append_dropWhile]
  rw [whole, List.filter_append, passing, failing, List.takeWhile_append_of_pos, stops,
    List.append_nil]
  intro item inside
  exact List.mem_takeWhile_imp (List.mem_of_mem_drop inside)

variable {registry : Registry} {before after : List String} {plan : Plan} {done : Nat}

/-- What is pending when the first pending migrations are done are the later ones. -/
theorem pending_of_moved {limit : Option String}
    (moved : ∀ id, id ∈ after ↔ id ∈ before ∨
      id ∈ ((pending registry.migrations (IdSet.ofList before) limit).take done).map (·.id)) :
    pending registry.migrations (IdSet.ofList after) limit =
      (pending registry.migrations (IdSet.ofList before) limit).drop done := by
  have nodup : ((pending registry.migrations (IdSet.ofList before) limit).map (·.id)).Nodup :=
    registry.nodup_ids.sublist (List.filter_sublist.map _)
  rw [← filter_not_mem_take nodup]
  generalize (pending registry.migrations (IdSet.ofList before) limit).take done = first at moved
  rw [pending, pending, List.filter_filter]
  refine List.filter_congr fun m _ => ?_
  simp only [IdSet.contains_ofList, moved, Bool.decide_or, Bool.not_or, decide_not]
  rw [Bool.and_comm (!decide (m.id ∈ first.map _)), Bool.and_assoc]

theorem up_of_moved {target : UpTarget}
    (planned : up registry (IdSet.ofList before) target = .ok plan)
    (moved : ∀ id, id ∈ after ↔ id ∈ before ∨ id ∈ (plan.steps.take done).map (·.id)) :
    up registry (IdSet.ofList after) target = .ok (plan.rest done) := by
  obtain _ | id := target
  · cases planned
    rw [up, pending_of_moved moved]
    rfl
  · rw [up] at planned ⊢
    split at planned
    · next known =>
      cases planned
      rw [if_pos known, pending_of_moved moved]
      rfl
    · contradiction

/-- What a run down to an identifier selects when the first of what is selected are done are the
later ones. -/
theorem selected_of_moved {id : String}
    (moved : ∀ other, other ∈ after ↔
      other ∈ before ∧ other ∉ (selected (IdSet.ofList before) (.to id)).take done) :
    selected (IdSet.ofList after) (.to id) =
      (selected (IdSet.ofList before) (.to id)).drop done := by
  have left : (IdSet.ofList after).names = (IdSet.ofList before).names.filter
      (· ∉ (selected (IdSet.ofList before) (.to id)).take done) := by
    have same : IdSet.ofList after = IdSet.ofList ((IdSet.ofList before).names.filter
        (· ∉ (selected (IdSet.ofList before) (.to id)).take done)) := by
      refine IdSet.ofList_congr fun other => ?_
      rw [moved, List.mem_filter, SortedMap.mem_names, IdSet.contains_ofList, decide_eq_true_eq,
        decide_eq_true_eq]
    rw [same]
    exact IdSet.names_ofList ((SortedMap.ascending_names _).sublist List.filter_sublist)
  have nodup : (IdSet.ofList before).names.reverse.Nodup :=
    List.nodup_reverse.mpr (SortedMap.ascending_names _).nodup
  have rest := takeWhile_filter_not_mem (decide <| id < ·) nodup done
  rw [List.filter_reverse] at rest
  rw [selected, left]
  exact rest

theorem down_of_moved {id : String}
    (planned : down registry (IdSet.ofList before) (.to id) = .ok plan)
    (moved : ∀ other, other ∈ after ↔
      other ∈ before ∧ other ∉ (plan.steps.take done).map (·.id)) :
    down registry (IdSet.ofList after) (.to id) = .ok (plan.rest done) := by
  have ids : plan.steps.map (·.id) = selected (IdSet.ofList before) (.to id) :=
    (steps_down planned).1
  obtain ⟨known, direction, steps⟩ := down_eq_ok.mp planned
  rw [List.map_take, ids] at moved
  refine down_eq_ok.mpr ⟨?_, direction, ?_⟩
  · rw [isKnown, IdSet.contains_ofList, Bool.or_eq_true, decide_eq_true_eq] at known ⊢
    refine known.imp_right fun inside => (moved id).mpr ⟨inside, fun selected => ?_⟩
    have below := List.mem_takeWhile_imp (List.mem_of_mem_take selected)
    exact String.lt_irrefl id (of_decide_eq_true below)
  · rw [selected_of_moved moved, Except.mapM_eq_ok]
    exact List.forall₂_drop done (Except.mapM_eq_ok.mp steps)

/-- When the first steps of a plan are done, the plan for the same target is what is left of it. -/
theorem rest_of_moved {target : RunTarget} (resumable : target.IsResumable)
    (planned : ofTarget registry (IdSet.ofList before) target = .ok plan)
    (moved : ∀ id,
      id ∈ after ↔ target.direction.Holds before ((plan.steps.take done).map (·.id)) id) :
    ofTarget registry (IdSet.ofList after) target = .ok (plan.rest done) := by
  obtain target | _ | id := target
  · exact up_of_moved planned moved
  · contradiction
  · exact down_of_moved planned moved

end Plan

end Stepwise
