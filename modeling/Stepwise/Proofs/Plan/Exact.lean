import Stepwise.Proofs.Plan.Count
import Stepwise.Proofs.Registry.OrderedMap

/-!
# Exact plans

What a plan is can be said of the list that makes the registry and of the set of applied
identifiers, without the order in which either is gone through. A run up is refused only for a
target that is not in the list (`Plan.up_exact`). A run down is refused for a target that is neither
in the list nor applied, and for the greatest of what it selects that cannot be undone
(`Plan.down_exact`).
-/

namespace Stepwise

/-- The first members of a descending list are those that have few greater ones. -/
theorem List.mem_take_iff_countP {items : List String} {item : String} {n : Nat}
    (descending : items.Pairwise (· > ·)) :
    item ∈ items.take n ↔ item ∈ items ∧ items.countP (item < ·) < n := by
  induction items generalizing n with
  | nil => simp
  | cons first rest ih =>
    obtain ⟨below, descending⟩ := List.pairwise_cons.mp descending
    obtain _ | n := n
    · simp
    rw [List.take_succ_cons, List.mem_cons, List.mem_cons, ih descending, List.countP_cons]
    by_cases same : item = first
    · subst same
      have none : rest.countP (item < ·) = 0 := by
        refine List.countP_eq_zero.mpr fun other member => ?_
        rw [decide_eq_true_eq]
        exact String.lt_asymm (below other member)
      rw [none, decide_eq_false (String.lt_irrefl item), if_neg Bool.false_ne_true]
      exact iff_of_true (.inl rfl) ⟨.inl rfl, Nat.succ_pos n⟩
    · by_cases member : item ∈ rest
      · rw [decide_eq_true (show item < first from below item member), if_pos rfl,
          Nat.add_lt_add_iff_right]
        simp only [same, member, false_or, true_and]
      · simp only [same, member, false_or, false_and]

/-- Whether a run down selects an identifier: it is applied, and one of the greatest or beyond a
bound. -/
def DownTarget.Selects (applied : IdSet) : DownTarget → String → Prop
  | .count n, id => applied.contains id = true ∧ applied.names.countP (id < ·) < n
  | .to bound, id => applied.contains id = true ∧ bound < id

instance {applied : IdSet} {target : DownTarget} {id : String} :
    Decidable (target.Selects applied id) :=
  match target with
  | .count _ => inferInstanceAs (Decidable (_ ∧ _))
  | .to _ => inferInstanceAs (Decidable (_ ∧ _))

namespace Plan

/-- Whether a list has a reversible migration of an identifier. -/
def CanUndo (migrations : List Migration) (id : String) : Prop :=
  ∃ m ∈ migrations, m.id = id ∧ m.reversibility = .reversible

/-- Why an identifier cannot be undone: a list has no migration of it, or an irreversible one. -/
inductive Obstacle (migrations : List Migration) (id : String) : MigrationError → Prop
  | missing : (∀ m ∈ migrations, m.id ≠ id) → Obstacle migrations id (.missingUnit id)
  | irreversible {m : Migration} {reason : String} : m ∈ migrations → m.id = id →
      m.reversibility = .irreversible reason → Obstacle migrations id (.irreversible id reason)

variable {migrations : List Migration} {registry : Registry} {applied : IdSet}

private theorem descending_names (applied : IdSet) : applied.names.reverse.Pairwise (· > ·) :=
  List.pairwise_reverse.mpr applied.ascending_names

private theorem mem_selected_iff {target : DownTarget} {id : String} :
    id ∈ selected applied target ↔ target.Selects applied id := by
  obtain n | bound := target
  · rw [selected, List.mem_take_iff_countP (descending_names applied), List.mem_reverse,
      SortedMap.mem_names, (List.reverse_perm _).countP_eq]
    rfl
  · exact mem_selected_to

private theorem descending_selected (applied : IdSet) (target : DownTarget) :
    (selected applied target).Pairwise (· > ·) :=
  (descending_names applied).sublist (selected_isPrefix applied target).sublist

theorem up_eq_error_iff {target : UpTarget} {error : MigrationError} :
    up registry applied target = .error error ↔
      ∃ id, target = .to id ∧ id ∉ registry.ids ∧ error = .unknownTarget id := by
  obtain _ | bound := target
  · constructor
    · intro refused
      cases refused
    · rintro ⟨id, same, -⟩
      cases same
  · rw [up]
    split
    · next known =>
      constructor
      · intro refused
        cases refused
      · rintro ⟨id, same, unknown, -⟩
        cases same
        exact absurd (Registry.contains_iff.mp known) unknown
    · next unknown =>
      rw [Registry.contains_iff] at unknown
      constructor
      · intro refused
        cases refused
        exact ⟨bound, rfl, unknown, rfl⟩
      · rintro ⟨id, same, -, rfl⟩
        cases same
        rfl

private theorem mem_steps_down {target : DownTarget} {plan : Plan}
    (planned : down registry applied target = .ok plan) {m : Migration} :
    m ∈ plan.steps ↔ m ∈ registry.migrations ∧ target.Selects applied m.id := by
  obtain ⟨ids, members⟩ := steps_down planned
  rw [← mem_selected_iff, ← ids]
  constructor
  · intro member
    exact ⟨(members m member).1, List.mem_map_of_mem member⟩
  · rintro ⟨registered, taken⟩
    obtain ⟨other, member, same⟩ := List.mem_map.mp taken
    exact Registry.eq_of_id (members other member).1 registered same ▸ member

/-- A run down to a known target fails for the first of what it selects that cannot be undone. -/
theorem down_eq_error_iff {target : DownTarget} {error : MigrationError}
    (known : isKnown registry applied target = true) :
    down registry applied target = .error error ↔
      ∃ before id after, selected applied target = before ++ id :: after ∧
        (∀ other ∈ before, ∃ m, revertible registry other = .ok m) ∧
        revertible registry id = .error error := by
  rw [down_of_known known, ← Except.mapM_eq_error]
  cases (selected applied target).mapM (revertible registry) <;>
    simp [Bind.bind, Except.bind, Pure.pure, Except.pure]

section

variable (made : Registry.ofList migrations = .ok registry)

include made

theorem canUndo_iff {id : String} :
    (∃ m, revertible registry id = .ok m) ↔ CanUndo migrations id := by
  simp only [revertible_eq_ok, Registry.get?_eq_some_iff made, CanUndo, and_assoc]

private theorem obstacle_of_error {id : String} {error : MigrationError}
    (refused : revertible registry id = .error error) : Obstacle migrations id error := by
  rw [revertible] at refused
  split at refused
  · next absent =>
    cases refused
    refine .missing fun m member same => ?_
    rw [(Registry.get?_eq_some_iff made).mpr ⟨member, same⟩] at absent
    contradiction
  · next m present =>
    obtain ⟨member, same⟩ := (Registry.get?_eq_some_iff made).mp present
    split at refused
    · contradiction
    · next reason irreversible =>
      cases refused
      exact .irreversible member same irreversible

end

/-- A run up is refused exactly for a target that no migration of the list has. Otherwise its plan
ascends and has the migrations that are not applied, up to the target and with it. A target that is
applied is no step itself and bounds the others all the same, and whether a migration is a step
depends on no other applied identifier than its own. -/
theorem up_exact (made : Registry.ofList migrations = .ok registry) (applied : IdSet)
    (target : UpTarget) :
    (∀ error, up registry applied target = .error error ↔
      ∃ id, target = .to id ∧ id ∉ migrations.map (·.id) ∧ error = .unknownTarget id) ∧
    ((∀ id, target = .to id → id ∈ migrations.map (·.id)) →
      ∃ plan, up registry applied target = .ok plan ∧ plan.direction = .up ∧
        plan.ids.Pairwise (· < ·) ∧
        (∀ m, m ∈ plan.steps ↔ m ∈ migrations ∧ applied.contains m.id = false ∧
          ∀ id, target = .to id → m.id ≤ id) ∧
        (∀ id, target = .to id → applied.contains id = true →
          ∀ m, m ∈ plan.steps ↔ m ∈ migrations ∧ applied.contains m.id = false ∧ m.id < id) ∧
        ∀ (others : IdSet) (other : Plan), up registry others target = .ok other →
          ∀ m, others.contains m.id = applied.contains m.id →
            (m ∈ other.steps ↔ m ∈ plan.steps)) := by
  simp only [up_eq_error_iff, Registry.mem_ids_iff made, true_and, implies_true]
  intro known
  have registered : ∀ last ∈ target.last?, last ∈ registry.ids := by
    simpa only [UpTarget.forall_mem_last?_iff, Registry.mem_ids_iff made] using known
  obtain ⟨plan, planned⟩ : ∃ plan, up registry applied target = .ok plan :=
    ⟨_, up_eq_ok.mpr ⟨registered, rfl⟩⟩
  have members {set : IdSet} {plan : Plan} (planned : up registry set target = .ok plan)
      (m : Migration) : m ∈ plan.steps ↔ m ∈ migrations ∧ set.contains m.id = false ∧
        ∀ id, target = .to id → m.id ≤ id := by
    rw [mem_steps_up planned, Registry.mem_migrations_iff made, UpTarget.forall_mem_last?_iff]
  refine ⟨plan, planned, ?_, ascending_up planned, members planned, ?_, ?_⟩
  · rw [(up_eq_ok.mp planned).2]
  · rintro bound rfl stored m
    rw [members planned]
    refine and_congr_right fun _ => and_congr_right fun fresh => ⟨fun within => ?_, ?_⟩
    · refine Std.lt_of_le_of_ne (within bound rfl) fun same => ?_
      rw [same, stored] at fresh
      contradiction
    · rintro less id same
      cases same
      exact Std.le_of_lt less
  · intro others other another m same
    rw [members planned, members another, same]

/-- An applied target takes what is pending below it, whatever else is applied; an unknown one is
refused. -/
theorem up_exact_applied :
    let users := (Definition.creating "20250101-users" "users").toMigration
    let orders := (Definition.creating "20250102-orders" "orders").toMigration
    let carts := (Definition.creating "20250103-carts" "carts").toMigration
    let applied := IdSet.ofList ["20240101-old", "20250102-orders"]
    ∃ registry, Registry.ofList [carts, users, orders] = .ok registry ∧
      (∃ plan, up registry applied (.to "20250102-orders") = .ok plan ∧
        ∀ m, m ∈ plan.steps ↔ m = users) ∧
      up registry applied (.to "20240101-old") = .error (.unknownTarget "20240101-old") := by
  intro users orders carts applied
  have known : "20250102-orders" ∈ [carts, users, orders].map (·.id) := by decide
  have unknown : "20240101-old" ∉ [carts, users, orders].map (·.id) := by decide
  obtain ⟨registry, made⟩ : ∃ registry, Registry.ofList [carts, users, orders] = .ok registry :=
    Registry.exists_ofList (by decide) (by decide)
  obtain ⟨-, plans⟩ := up_exact made applied (.to "20250102-orders")
  obtain ⟨plan, planned, -, -, -, below, -⟩ := plans fun _ same => UpTarget.to.inj same ▸ known
  refine ⟨registry, made, ⟨plan, planned, fun m => ?_⟩, ?_⟩
  · rw [below _ rfl (by decide)]
    constructor
    · rintro ⟨member, fresh, less⟩
      simp only [List.mem_cons, List.not_mem_nil, or_false] at member
      obtain rfl | rfl | rfl := member
      · exact absurd less (by decide)
      · rfl
      · exact absurd less (by decide)
    · rintro rfl
      exact ⟨by simp, by decide, by decide⟩
  · exact ((up_exact made applied _).1 _).mpr ⟨_, rfl, unknown, rfl⟩

/-- A run down is refused for a target that is neither in the list nor applied. Otherwise it selects
applied identifiers. If the list has reversible migrations of all of these, the plan has exactly
them, in strictly descending order; if not, the run is refused for the greatest that cannot be
undone. What is not selected plays no part. -/
theorem down_exact (made : Registry.ofList migrations = .ok registry) (applied : IdSet)
    (target : DownTarget) :
    (∀ id, target = .to id → id ∉ migrations.map (·.id) → applied.contains id = false →
      down registry applied target = .error (.unknownTarget id)) ∧
    ((∀ id, target = .to id → id ∈ migrations.map (·.id) ∨ applied.contains id = true) →
      ((∀ id, target.Selects applied id → CanUndo migrations id) →
        ∃ plan, down registry applied target = .ok plan ∧ plan.direction = .down ∧
          plan.ids.Pairwise (· > ·) ∧
          ∀ m, m ∈ plan.steps ↔ m ∈ migrations ∧ target.Selects applied m.id) ∧
      ((¬ ∀ id, target.Selects applied id → CanUndo migrations id) →
        ∃ id error, down registry applied target = .error error ∧
          target.Selects applied id ∧ Obstacle migrations id error ∧
          ∀ other, target.Selects applied other → id < other → CanUndo migrations other)) := by
  refine ⟨?_, fun known => ?_⟩
  · rintro id rfl unregistered unapplied
    rw [← Registry.mem_ids_iff made, ← Registry.contains_iff, Bool.not_eq_true] at unregistered
    simp [down, isKnown, unregistered, unapplied]
  · have known : isKnown registry applied target = true := by
      obtain n | id := target
      · rfl
      · rw [isKnown, Bool.or_eq_true, Registry.contains_iff, Registry.mem_ids_iff made]
        exact known id rfl
    have possible := exists_down known
    simp only [mem_selected_iff, canUndo_iff made] at possible
    constructor
    · intro all
      obtain ⟨plan, planned⟩ := possible.mpr all
      obtain ⟨ids, -⟩ := steps_down planned
      refine ⟨plan, planned, (down_eq_ok.mp planned).2.1, ?_, fun m => ?_⟩
      · rw [ids]
        exact descending_selected applied target
      · rw [mem_steps_down planned, Registry.mem_migrations_iff made]
    · intro some
      cases result : down registry applied target with
      | ok plan => exact absurd (possible.mp ⟨plan, result⟩) some
      | error error =>
        obtain ⟨before, id, after, parts, fine, wrong⟩ := (down_eq_error_iff known).mp result
        -- The selection descends, so all that is greater than the offender comes before it.
        have descending := descending_selected applied target
        rw [parts, List.pairwise_append, List.pairwise_cons] at descending
        have taken (other : String) : target.Selects applied other ↔
            other ∈ before ∨ other = id ∨ other ∈ after := by
          rw [← mem_selected_iff, parts, List.mem_append, List.mem_cons]
        refine ⟨id, error, rfl, (taken id).mpr (.inr (.inl rfl)), obstacle_of_error made wrong, ?_⟩
        intro other selected greater
        obtain earlier | same | later := (taken other).mp selected
        · exact (canUndo_iff made).mp (fine other earlier)
        · exact absurd (same ▸ greater) (String.lt_irrefl id)
        · exact absurd greater (String.lt_asymm (descending.2.1.1 other later))

/-- A run down passes by what it does not select, such as an orphan, and is refused for the greatest
of what it selects that cannot be undone, even if there are others. -/
theorem down_exact_orphan :
    let users := (Definition.creating "20250101-users" "users").toMigration
    let orders := ((Definition.creating "20250102-orders" "orders").makeIrreversible
      "lossy").toMigration
    let above := IdSet.ofList ["20240101-old", "20250101-users"]
    let below := IdSet.ofList ["20250101-users", "20250102-orders", "20250103-gone"]
    ∃ registry, Registry.ofList [orders, users] = .ok registry ∧
      (∃ plan, down registry above (.count 1) = .ok plan ∧ ∀ m, m ∈ plan.steps ↔ m = users) ∧
      down registry below (.count 3) = .error (.missingUnit "20250103-gone") ∧
      down registry below (.to "20250104-none") = .error (.unknownTarget "20250104-none") := by
  intro users orders above below
  have unknown : ∀ m ∈ [orders, users], m.id ≠ "20250103-gone" := by decide
  have greatest : ∀ id ∈ selected below (.count 3),
      id = "20250103-gone" ∨ id < "20250103-gone" := by
    decide
  obtain ⟨registry, made⟩ : ∃ registry, Registry.ofList [orders, users] = .ok registry :=
    Registry.exists_ofList (by decide) (by decide)
  refine ⟨registry, made, ?_, ?_, ?_⟩
  · have only : ∀ id ∈ selected above (.count 1), id = users.id := by decide
    obtain ⟨-, plans⟩ := down_exact made above (.count 1)
    obtain ⟨plan, planned, -, -, members⟩ := (plans nofun).1 fun id taken =>
      ⟨users, by simp, (only id (mem_selected_iff.mpr taken)).symm, rfl⟩
    refine ⟨plan, planned, fun m => ?_⟩
    rw [members]
    constructor
    · rintro ⟨member, taken⟩
      have same := only _ (mem_selected_iff.mpr taken)
      simp only [List.mem_cons, List.not_mem_nil, or_false] at member
      exact member.resolve_left fun other => absurd (other ▸ same) (by decide)
    · rintro rfl
      exact ⟨by simp, by decide⟩
  · obtain ⟨-, plans⟩ := down_exact made below (.count 3)
    have gone : ¬ CanUndo [orders, users] "20250103-gone" :=
      fun ⟨m, member, same, _⟩ => unknown m member same
    obtain ⟨id, error, refused, taken, obstacle, others⟩ :=
      (plans nofun).2 fun all => gone (all _ (by decide))
    obtain rfl | less := greatest id (mem_selected_iff.mpr taken)
    · cases obstacle with
      | missing _ => exact refused
      | irreversible member same _ => exact absurd same (unknown _ member)
    · exact absurd (others _ (by decide) less) gone
  · exact (down_exact made below _).1 _ rfl (by decide) (by decide)

end Plan

end Stepwise
