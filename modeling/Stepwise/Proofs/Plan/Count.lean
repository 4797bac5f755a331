import Stepwise.Proofs.Plan.Bound

/-!
# Plans of a number of steps

A run down by a number takes the greatest identifiers of the ledger, whenever they were recorded.
These are the last ones to be recorded if they went in beyond all others
(`Plan.selected_count_iff`), which a run up does exactly if it does not fill a gap
(`Plan.above_iff_gapless`).
-/

namespace Stepwise

/-- Whether no migration of a registry is missing in a list below one of its identifiers. -/
def Registry.Gapless (registry : Registry) (recorded : List String) : Prop :=
  ∀ id ∈ recorded, ∀ m ∈ registry.migrations, m.id < id → m.id ∈ recorded

namespace Plan

variable {registry : Registry} {before added after : List String} {plan : Plan}

/-- As many identifiers as were added are selected. They are the ones that were added, the last one
first, exactly if all others are smaller. -/
theorem selected_count_iff (ascending : added.Pairwise (· < ·)) (fresh : ∀ id ∈ added, id ∉ before)
    (moved : ∀ id, id ∈ after ↔ id ∈ before ∨ id ∈ added) :
    selected (IdSet.ofList after) (.count added.length) = added.reverse ↔
      ∀ old ∈ before, ∀ new ∈ added, old < new := by
  have names (id : String) : id ∈ (IdSet.ofList after).names ↔ id ∈ before ∨ id ∈ added := by
    rw [SortedMap.mem_names, IdSet.contains_ofList, decide_eq_true_eq, moved]
  have last : selected (IdSet.ofList after) (.count added.length) = added.reverse ↔
      added <:+ (IdSet.ofList after).names := by
    rw [← List.reverse_prefix, List.prefix_iff_eq_take, List.length_reverse]
    exact eq_comm
  rw [last]
  constructor
  · rintro ⟨first, whole⟩ old stored new member
    have sorted := (IdSet.ofList after).ascending_names
    rw [← whole, List.pairwise_append] at sorted
    have among : old ∈ first ++ added := whole ▸ (names old).mpr (.inl stored)
    have earlier := (List.mem_append.mp among).resolve_right fun inside => fresh old inside stored
    exact sorted.2.2 old earlier new member
  · intro above
    have sorted : ((IdSet.ofList before).names ++ added).Pairwise (· < ·) := by
      refine List.pairwise_append.mpr ⟨SortedMap.ascending_names _, ascending, fun old stored => ?_⟩
      rw [SortedMap.mem_names, IdSet.contains_ofList, decide_eq_true_eq] at stored
      exact above old stored
    have same : IdSet.ofList after = IdSet.ofList ((IdSet.ofList before).names ++ added) := by
      refine IdSet.ofList_congr fun id => ?_
      rw [moved, List.mem_append, SortedMap.mem_names, IdSet.contains_ofList, decide_eq_true_eq]
    rw [same, IdSet.names_ofList sorted]
    exact List.suffix_append _ _

/-- The steps of a run up ascend. -/
theorem ascending_up {applied : IdSet} {target : UpTarget}
    (planned : up registry applied target = .ok plan) : plan.ids.Pairwise (· < ·) := by
  obtain ⟨-, rfl⟩ := up_eq_ok.mp planned
  exact registry.ascending_ids.sublist (List.filter_sublist.map _)

/-- What a run up completes is beyond all that was recorded exactly if there was no gap. -/
theorem above_iff_gapless {target : UpTarget} {completed : List String}
    (planned : up registry (IdSet.ofList before) target = .ok plan)
    (initial : completed <+: plan.ids) (nonempty : completed ≠ []) :
    (∀ old ∈ before, ∀ new ∈ completed, old < new) ↔ registry.Gapless before := by
  constructor
  · intro above old stored m member less
    by_contra missing
    obtain ⟨first, others, rfl⟩ := List.exists_cons_of_ne_nil nonempty
    obtain ⟨rest, whole⟩ := initial
    have sorted := ascending_up planned
    rw [← whole, List.cons_append, List.pairwise_cons] at sorted
    have started : first ∈ plan.ids := by simp [← whole]
    -- The run begins with the smallest identifier that is missing, wherever its target is.
    have smallest : first ≤ m.id := by
      by_cases within : ∀ last ∈ target.last?, m.id ≤ last
      · have waiting : m.id ∈ plan.ids :=
          (mem_ids_up planned m.id).mpr ⟨List.mem_map_of_mem member, within, missing⟩
        rw [← whole, List.cons_append, List.mem_cons] at waiting
        obtain same | later := waiting
        · exact Std.le_of_eq same.symm
        · exact Std.le_of_lt (sorted.1 m.id later)
      · simp only [not_forall, String.not_le] at within
        obtain ⟨last, bound, beyond⟩ := within
        have reached := ((mem_ids_up planned first).mp started).2.1 last bound
        exact String.le_trans reached (Std.le_of_lt beyond)
    have under := above old stored first List.mem_cons_self
    exact String.not_le.mpr (String.lt_trans less under) smallest
  · intro gapless old stored new done
    obtain ⟨registered, -, missing⟩ := (mem_ids_up planned new).mp (initial.subset done)
    obtain ⟨m, member, rfl⟩ := List.mem_map.mp registered
    by_contra notLess
    have different : m.id ≠ old := (ne_of_mem_of_not_mem stored missing).symm
    have less := Std.lt_of_le_of_ne (String.not_lt.mp notLess) different
    exact missing (gapless old stored m member less)

private theorem revertible_eq {m : Migration} (member : m ∈ registry.migrations) :
    revertible registry m.id = match m.reversibility with
      | .reversible => .ok m
      | .irreversible reason => .error (.irreversible m.id reason) := by
  have found := Registry.get?_id member
  cases state : m.reversibility with
  | reversible => simp only [revertible, found, state]
  | irreversible reason => simp only [revertible, found, state]

/-- A run down by a number of registered identifiers goes through what it selects, or is refused for
an irreversible migration of that. -/
theorem down_count_cases {applied : IdSet} {n : Nat}
    (registered : ∀ id ∈ applied.names, id ∈ registry.ids) :
    (∃ plan, down registry applied (.count n) = .ok plan ∧
      plan.ids = selected applied (.count n)) ∨
    ∃ m ∈ registry.migrations, ∃ reason, m.id ∈ selected applied (.count n) ∧
      m.reversibility = .irreversible reason ∧
      down registry applied (.count n) = .error (.irreversible m.id reason) := by
  have known : isKnown registry applied (.count n) = true := rfl
  obtain ⟨plan, planned⟩ | ⟨id, taken, reason, wrong, refused⟩ := down_cases known
  · exact .inl ⟨plan, planned, (steps_down planned).1⟩
  · have stored : id ∈ applied.names :=
      List.mem_reverse.mp ((selected_isPrefix applied (.count n)).subset taken)
    obtain ⟨m, member, rfl⟩ := List.mem_map.mp (registered id stored)
    rw [revertible_eq member] at wrong
    cases state : m.reversibility with
    | reversible =>
      rw [state] at wrong
      contradiction
    | irreversible text =>
      rw [state] at wrong
      cases wrong
      exact .inr ⟨m, member, text, taken, state, refused⟩

end Plan

end Stepwise
