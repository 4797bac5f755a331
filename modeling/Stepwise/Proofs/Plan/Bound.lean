import Stepwise.Proofs.Plan.Rest

/-!
# Plans to an identifier

A run up takes what is registered and not recorded, up to an identifier if its target names one
(`Plan.mem_ids_up`). A run down to an identifier takes what is recorded beyond it
(`Plan.mem_ids_down_to`). The first goes through the identifier and the second stops short of it, so
that the two meet there.
-/

namespace Stepwise

/-- The last identifier of a run up, if it does not go through everything. -/
def UpTarget.last? : UpTarget → Option String
  | .all => none
  | .to id => some id

theorem UpTarget.forall_mem_last?_all {p : String → Prop} : ∀ last ∈ UpTarget.all.last?, p last :=
  nofun

theorem UpTarget.forall_mem_last?_to {id : String} {p : String → Prop} :
    (∀ last ∈ (UpTarget.to id).last?, p last) ↔ p id := by
  simp [UpTarget.last?]

theorem UpTarget.forall_mem_last?_iff {target : UpTarget} {p : String → Prop} :
    (∀ last ∈ target.last?, p last) ↔ ∀ id, target = .to id → p id := by
  cases target <;> simp [UpTarget.last?]

/-- When nothing passes a test after something that fails, what passes is what comes before the
first failure. -/
theorem List.takeWhile_eq_filter {α : Type} {test : α → Bool} {items : List α}
    (closed : items.Pairwise fun a b => test b → test a) :
    items.takeWhile test = items.filter test := by
  induction items with
  | nil => rfl
  | cons first rest ih =>
    obtain ⟨ahead, closed⟩ := List.pairwise_cons.mp closed
    by_cases passes : test first
    · rw [List.takeWhile_cons_of_pos passes, List.filter_cons_of_pos passes, ih closed]
    · rw [List.takeWhile_cons_of_neg passes, List.filter_cons_of_neg passes]
      refine (List.filter_eq_nil_iff.mpr fun other member passed => ?_).symm
      exact passes (ahead other member passed)

namespace Plan

variable {registry : Registry} {before : List String} {plan : Plan}

/-- A run up has a plan if its target is registered, which is what is pending up to there. -/
theorem up_eq_ok {applied : IdSet} {target : UpTarget} :
    up registry applied target = .ok plan ↔
      (∀ id ∈ target.last?, id ∈ registry.ids) ∧
        plan = ⟨.up, pending registry.migrations applied target.last?⟩ := by
  obtain _ | id := target
  · simp [up, UpTarget.last?, eq_comm (a := plan)]
  · rw [up, UpTarget.forall_mem_last?_to, ← Registry.contains_iff]
    split
    · next known => simp [known, UpTarget.last?, eq_comm (a := plan)]
    · next unknown => simp [unknown]

theorem mem_steps_up {applied : IdSet} {target : UpTarget}
    (planned : up registry applied target = .ok plan) {m : Migration} :
    m ∈ plan.steps ↔ m ∈ registry.migrations ∧ applied.contains m.id = false ∧
      ∀ last ∈ target.last?, m.id ≤ last := by
  obtain ⟨-, rfl⟩ := up_eq_ok.mp planned
  simp only [pending, List.mem_filter, Bool.and_eq_true, Option.all_eq_true, decide_eq_true_eq,
    Bool.not_eq_eq_eq_not, Bool.not_true, Option.mem_def,
    and_comm (b := applied.contains m.id = false)]

theorem mem_ids_up {target : UpTarget}
    (planned : up registry (IdSet.ofList before) target = .ok plan) (id : String) :
    id ∈ plan.ids ↔ id ∈ registry.ids ∧ (∀ last ∈ target.last?, id ≤ last) ∧ id ∉ before := by
  simp only [ids, Registry.ids, List.mem_map, mem_steps_up planned, IdSet.contains_ofList,
    decide_eq_false_iff_not]
  constructor
  · rintro ⟨m, ⟨member, fresh, within⟩, rfl⟩
    exact ⟨⟨m, member, rfl⟩, within, fresh⟩
  · rintro ⟨⟨m, member, rfl⟩, within, fresh⟩
    exact ⟨m, ⟨member, fresh, within⟩, rfl⟩

theorem mem_selected_to {applied : IdSet} {bound id : String} :
    id ∈ selected applied (.to bound) ↔ applied.contains id = true ∧ bound < id := by
  have closed : applied.names.reverse.Pairwise
      fun a b => decide (bound < b) → decide (bound < a) := by
    refine List.pairwise_reverse.mpr (applied.ascending_names.imp fun {a b} less beyond => ?_)
    rw [decide_eq_true_eq] at beyond ⊢
    exact String.lt_trans beyond less
  rw [selected, List.takeWhile_eq_filter closed, List.mem_filter, List.mem_reverse,
    SortedMap.mem_names, decide_eq_true_eq]

theorem mem_ids_down_to {bound : String}
    (planned : down registry (IdSet.ofList before) (.to bound) = .ok plan) (id : String) :
    id ∈ plan.ids ↔ id ∈ before ∧ bound < id := by
  rw [(steps_down planned).1, mem_selected_to, IdSet.contains_ofList, decide_eq_true_eq]

end Plan

end Stepwise
