import Mathlib.Data.List.Forall2
import Mathlib.Data.List.Nodup
import Stepwise.Plan
import Stepwise.Proofs.Ledger.IdSet

/-!
# The steps of plans

A run up goes through what is pending in the registry (`Plan.steps_up`), and a run down through what
it selects of the ledger (`Plan.steps_down`). When the first migrations of the registry are those
that are applied, a run up goes on where they end (`Plan.up_of_applied`), and a run down goes back
from there (`Plan.down_of_applied`).
-/

namespace Stepwise

theorem Except.mapM_eq_ok {α β ε : Type} {f : α → Except ε β} {xs : List α} {ys : List β} :
    xs.mapM f = .ok ys ↔ List.Forall₂ (fun x y => f x = .ok y) xs ys := by
  induction xs generalizing ys with
  | nil =>
    rw [List.mapM_nil, List.forall₂_nil_left_iff]
    constructor
    · intro same
      exact (Except.ok.inj same).symm
    · rintro rfl
      rfl
  | cons x xs ih =>
    rw [List.mapM_cons]
    cases answer : f x with
    | error reason =>
      constructor
      · intro same
        contradiction
      · intro related
        cases related with
        | cons first _ =>
          rw [answer] at first
          contradiction
    | ok y =>
      cases rest : xs.mapM f with
      | error reason =>
        constructor
        · intro same
          contradiction
        · intro related
          cases related with
          | cons _ others =>
            rw [ih.mpr others] at rest
            contradiction
      | ok others =>
        constructor
        · intro same
          cases same
          exact .cons answer (ih.mp rest)
        · intro related
          cases related with
          | cons first related =>
            rw [answer] at first
            rw [ih.mpr related] at rest
            cases first
            cases rest
            rfl

theorem Except.exists_mapM_ok {α β ε : Type} {f : α → Except ε β} {xs : List α} :
    (∃ ys, xs.mapM f = .ok ys) ↔ ∀ x ∈ xs, ∃ y, f x = .ok y := by
  simp only [Except.mapM_eq_ok]
  induction xs with
  | nil => simp
  | cons x xs ih => simp [List.forall₂_cons_left_iff, ih]

/-- A traversal fails as the first of the list does that fails. -/
theorem Except.mapM_eq_error {α β ε : Type} {f : α → Except ε β} {xs : List α} {reason : ε} :
    xs.mapM f = .error reason ↔
      ∃ before x after, xs = before ++ x :: after ∧ (∀ y ∈ before, ∃ z, f y = .ok z) ∧
        f x = .error reason := by
  induction xs with
  | nil =>
    rw [List.mapM_nil]
    exact iff_of_false nofun fun ⟨before, _, _, whole, _⟩ => by cases before <;> contradiction
  | cons x xs ih =>
    rw [List.mapM_cons]
    cases answer : f x with
    | error first =>
      constructor
      · intro failed
        cases failed
        exact ⟨[], x, xs, rfl, nofun, answer⟩
      · rintro ⟨before, y, after, whole, fine, wrong⟩
        cases before with
        | nil =>
          cases whole
          rw [answer] at wrong
          exact congrArg Except.error (Except.error.inj wrong)
        | cons earlier before =>
          cases whole
          obtain ⟨z, succeeded⟩ := fine _ List.mem_cons_self
          rw [answer] at succeeded
          contradiction
    | ok z =>
      have later : (do
          let y ← Except.ok z
          let ys ← xs.mapM f
          return y :: ys) = Except.error reason ↔ xs.mapM f = .error reason := by
        cases xs.mapM f <;> simp [Bind.bind, Except.bind, Pure.pure, Except.pure]
      rw [later, ih]
      constructor
      · rintro ⟨before, y, after, rfl, fine, wrong⟩
        exact ⟨x :: before, y, after, rfl, List.forall_mem_cons.mpr ⟨⟨z, answer⟩, fine⟩, wrong⟩
      · rintro ⟨before, y, after, whole, fine, wrong⟩
        cases before with
        | nil =>
          cases whole
          rw [answer] at wrong
          contradiction
        | cons earlier before =>
          cases whole
          exact ⟨before, y, after, rfl, (List.forall_mem_cons.mp fine).2, wrong⟩

/-- What goes wrong for a list goes wrong for one of its members. -/
theorem Except.exists_of_mapM_error {α β ε : Type} {f : α → Except ε β} {xs : List α} {reason : ε}
    (failed : xs.mapM f = .error reason) : ∃ x ∈ xs, f x = .error reason := by
  obtain ⟨before, x, after, rfl, -, wrong⟩ := Except.mapM_eq_error.mp failed
  exact ⟨x, List.mem_append_right _ List.mem_cons_self, wrong⟩

theorem Plan.revertible_eq_ok {registry : Registry} {id : String} {m : Migration} :
    Plan.revertible registry id = .ok m ↔
      registry.get? id = some m ∧ m.reversibility = .reversible := by
  unfold Plan.revertible
  split
  · next absent => simp [absent]
  · next found present =>
    split
    · next reversible =>
      simp only [present, Except.ok.injEq, Option.some.injEq]
      constructor
      · rintro rfl
        exact ⟨rfl, reversible⟩
      · exact And.left
    · next reason irreversible =>
      simp only [present, reduceCtorEq, Option.some.injEq, false_iff, not_and]
      rintro rfl reversible
      rw [reversible] at irreversible
      contradiction

theorem Registry.mem_of_get? {registry : Registry} {id : String} {m : Migration}
    (present : registry.get? id = some m) : m ∈ registry.migrations ∧ m.id = id := by
  have same := List.find?_some present
  rw [decide_eq_true_eq] at same
  exact ⟨List.mem_of_find?_eq_some present, same⟩

/-- A run up goes through what is pending in the registry. -/
theorem Plan.steps_up {registry : Registry} {applied : IdSet} {target : UpTarget} {plan : Plan}
    (planned : Plan.up registry applied target = .ok plan) :
    ∃ limit, plan.steps = Plan.pending registry.migrations applied limit := by
  obtain _ | id := target
  · cases planned
    exact ⟨none, rfl⟩
  · simp only [Plan.up] at planned
    split at planned
    · cases planned
      exact ⟨some id, rfl⟩
    · contradiction

/-- A run up goes through nothing that is applied. -/
theorem Plan.not_mem_of_up {registry : Registry} {applied : List String} {target : UpTarget}
    {plan : Plan} (planned : Plan.up registry (IdSet.ofList applied) target = .ok plan) :
    ∀ m ∈ plan.steps, m.id ∉ applied := by
  obtain ⟨limit, steps⟩ := Plan.steps_up planned
  rw [steps]
  intro m member inside
  have pending := (List.mem_filter.mp member).2
  rw [IdSet.contains_ofList, decide_eq_true inside] at pending
  simp at pending

/-- The plan of a run down to a known target is what is selected, unless some of it cannot be
undone. -/
theorem Plan.down_of_known {registry : Registry} {applied : IdSet} {target : DownTarget}
    (known : Plan.isKnown registry applied target = true) :
    Plan.down registry applied target = (do
      let steps ← (Plan.selected applied target).mapM (Plan.revertible registry)
      return ⟨.down, steps⟩) := by
  unfold Plan.down
  split
  · next unknown =>
    rw [unknown] at known
    contradiction
  · rfl

/-- A run down has a plan if its target is known, and all that is selected can be undone. -/
theorem Plan.down_eq_ok {registry : Registry} {applied : IdSet} {target : DownTarget}
    {plan : Plan} :
    Plan.down registry applied target = .ok plan ↔
      Plan.isKnown registry applied target = true ∧ plan.direction = .down ∧
        (Plan.selected applied target).mapM (Plan.revertible registry) = .ok plan.steps := by
  obtain ⟨direction, steps⟩ := plan
  cases known : Plan.isKnown registry applied target with
  | false =>
    obtain n | id := target
    · contradiction
    · simp [Plan.down, known]
  | true =>
    rw [Plan.down_of_known known]
    cases (Plan.selected applied target).mapM (Plan.revertible registry) with
    | error reason => simp [Bind.bind, Except.bind]
    | ok migrations =>
      simp only [Bind.bind, Except.bind, Pure.pure, Except.pure, Except.ok.injEq, Plan.mk.injEq,
        true_and, eq_comm (a := Direction.down)]

/-- A run down to a known target has a plan, or is refused for something that it selects. -/
theorem Plan.down_cases {registry : Registry} {applied : IdSet} {target : DownTarget}
    (known : Plan.isKnown registry applied target = true) :
    (∃ plan, Plan.down registry applied target = .ok plan) ∨
      ∃ id ∈ Plan.selected applied target, ∃ reason,
        Plan.revertible registry id = .error reason ∧
          Plan.down registry applied target = .error reason := by
  rw [Plan.down_of_known known]
  cases steps : (Plan.selected applied target).mapM (Plan.revertible registry) with
  | error reason =>
    obtain ⟨id, member, wrong⟩ := Except.exists_of_mapM_error steps
    exact .inr ⟨id, member, reason, wrong, rfl⟩
  | ok migrations => exact .inl ⟨_, rfl⟩

/-- A run down to a known target has a plan exactly if all that is selected can be undone. -/
theorem Plan.exists_down {registry : Registry} {applied : IdSet} {target : DownTarget}
    (known : Plan.isKnown registry applied target = true) :
    (∃ plan, Plan.down registry applied target = .ok plan) ↔
      ∀ id ∈ Plan.selected applied target, ∃ m, Plan.revertible registry id = .ok m := by
  rw [Plan.down_of_known known, ← Except.exists_mapM_ok]
  cases (Plan.selected applied target).mapM (Plan.revertible registry) with
  | error reason => exact iff_of_false nofun nofun
  | ok migrations => exact iff_of_true ⟨_, rfl⟩ ⟨_, rfl⟩

/-- A run down goes through what it selects, and the registry can undo all of that. -/
theorem Plan.steps_down {registry : Registry} {applied : IdSet} {target : DownTarget} {plan : Plan}
    (planned : Plan.down registry applied target = .ok plan) :
    plan.ids = Plan.selected applied target ∧
      ∀ m ∈ plan.steps, m ∈ registry.migrations ∧ m.reversibility = .reversible := by
  obtain ⟨-, -, steps⟩ := Plan.down_eq_ok.mp planned
  have related := Except.mapM_eq_ok.mp steps
  clear steps
  unfold Plan.ids
  generalize Plan.selected applied target = ids at related
  generalize plan.steps = steps at related
  induction related with
  | nil => exact ⟨rfl, nofun⟩
  | cons reverted _ ih =>
    obtain ⟨present, reversible⟩ := Plan.revertible_eq_ok.mp reverted
    obtain ⟨member, id⟩ := Registry.mem_of_get? present
    exact ⟨congrArg₂ List.cons id ih.1, List.forall_mem_cons.mpr ⟨⟨member, reversible⟩, ih.2⟩⟩

/-- A run down selects the greatest identifiers, greatest first. -/
theorem Plan.selected_isPrefix (applied : IdSet) (target : DownTarget) :
    Plan.selected applied target <+: applied.names.reverse := by
  obtain n | id := target
  · exact List.take_prefix _ _
  · exact List.takeWhile_prefix _

/-- No step of a run down goes beyond an applied identifier that it leaves alone. -/
theorem Plan.lt_of_down {registry : Registry} {applied : IdSet} {target : DownTarget} {plan : Plan}
    (planned : Plan.down registry applied target = .ok plan) {id : String}
    (inside : applied.contains id = true) (left : id ∉ plan.ids) : ∀ m ∈ plan.steps, id < m.id := by
  obtain ⟨ids, -⟩ := Plan.steps_down planned
  obtain ⟨rest, whole⟩ := Plan.selected_isPrefix applied target
  rw [← ids] at whole
  have descending : (plan.ids ++ rest).Pairwise (· > ·) := by
    rw [whole, List.pairwise_reverse]
    exact applied.ascending_names
  have later : id ∈ rest := by
    have among : id ∈ plan.ids ++ rest := by
      rw [whole, List.mem_reverse]
      exact SortedMap.mem_names.mpr inside
    exact (List.mem_append.mp among).resolve_left left
  intro m member
  exact (List.pairwise_append.mp descending).2.2 m.id (List.mem_map_of_mem member) id later

/-- The identifiers of a registry ascend. -/
theorem Registry.ascending_ids (registry : Registry) :
    (registry.migrations.map (·.id)).Pairwise (· < ·) :=
  List.pairwise_map.mpr registry.ascending

theorem Registry.nodup_ids (registry : Registry) : (registry.migrations.map (·.id)).Nodup :=
  registry.ascending_ids.nodup

/-- A registry has one migration of an identifier. -/
theorem Registry.eq_of_id {registry : Registry} {m n : Migration} (first : m ∈ registry.migrations)
    (second : n ∈ registry.migrations) (same : m.id = n.id) : m = n :=
  List.inj_on_of_nodup_map registry.nodup_ids first second same

theorem Registry.get?_id {registry : Registry} {m : Migration} (member : m ∈ registry.migrations) :
    registry.get? m.id = some m := by
  cases found : registry.get? m.id with
  | none =>
    have absent := List.find?_eq_none.mp found m member
    simp at absent
  | some other =>
    obtain ⟨registered, same⟩ := Registry.mem_of_get? found
    rw [Registry.eq_of_id registered member same]

theorem Registry.contains_iff {registry : Registry} {id : String} :
    registry.contains id = true ↔ id ∈ registry.ids := by
  rw [Registry.contains, Option.isSome_iff_exists]
  constructor
  · rintro ⟨m, present⟩
    obtain ⟨member, rfl⟩ := Registry.mem_of_get? present
    exact List.mem_map_of_mem member
  · intro inside
    obtain ⟨m, member, rfl⟩ := List.mem_map.mp inside
    exact ⟨m, Registry.get?_id member⟩

/-- What passes a test is the beginning of a list if nothing passes after something that fails. -/
theorem List.filter_isPrefix {α : Type} {test : α → Bool} {items : List α}
    (closed : items.Pairwise fun a b => test b → test a) : items.filter test <+: items := by
  induction items with
  | nil => exact List.nil_prefix
  | cons first rest ih =>
    obtain ⟨ahead, closed⟩ := List.pairwise_cons.mp closed
    by_cases passes : test first
    · rw [List.filter_cons_of_pos passes]
      exact (List.prefix_cons_inj _).mpr (ih closed)
    · have nothing : rest.filter test = [] := by
        refine List.filter_eq_nil_iff.mpr fun other member passed => ?_
        exact passes (ahead other member passed)
      rw [List.filter_cons_of_neg passes, nothing]
      exact List.nil_prefix

/-- Lists of members that a function tells apart begin alike if their images do. -/
theorem List.isPrefix_of_map {α β : Type} {f : α → β} {xs ys : List α}
    (apart : ∀ x ∈ xs, ∀ y ∈ ys, f x = f y → x = y) (images : xs.map f <+: ys.map f) :
    xs <+: ys := by
  induction xs generalizing ys with
  | nil => exact List.nil_prefix
  | cons x xs ih =>
    cases ys with
    | nil => exact absurd (List.prefix_nil.mp images) (List.cons_ne_nil _ _)
    | cons y ys =>
      rw [List.map_cons, List.map_cons, List.cons_prefix_cons] at images
      obtain ⟨same, images⟩ := images
      have later : ∀ x ∈ xs, ∀ y ∈ ys, f x = f y → x = y := by
        intro x member y other
        exact apart x (List.mem_cons_of_mem _ member) y (List.mem_cons_of_mem _ other)
      rw [apart x List.mem_cons_self y List.mem_cons_self same, List.prefix_cons_inj]
      exact ih later images

/-- What is pending after the first migrations of a registry is where the rest begins. -/
theorem Plan.pending_isPrefix {units rest : List Migration}
    (ascending : Migration.Ascending (units ++ rest)) (limit : Option String) :
    Plan.pending (units ++ rest) (IdSet.ofList (units.map (·.id))) limit <+: rest := by
  obtain ⟨-, later, apart⟩ := List.pairwise_append.mp ascending
  have applied : units.filter (fun m => limit.all (m.id ≤ ·) &&
      !(IdSet.ofList (units.map (·.id))).contains m.id) = [] := by
    refine List.filter_eq_nil_iff.mpr fun m member => ?_
    rw [IdSet.contains_ofList, decide_eq_true (List.mem_map_of_mem member)]
    simp only [Bool.not_true, Bool.and_false, Bool.false_eq_true, not_false_eq_true]
  have waiting : rest.filter (fun m => limit.all (m.id ≤ ·) &&
      !(IdSet.ofList (units.map (·.id))).contains m.id) = rest.filter fun m =>
        limit.all (m.id ≤ ·) := by
    refine List.filter_congr fun m member => ?_
    have absent : m.id ∉ units.map (·.id) := by
      intro inside
      obtain ⟨unit, before, same⟩ := List.mem_map.mp inside
      have less := apart unit before m member
      rw [same] at less
      exact String.lt_irrefl _ less
    rw [IdSet.contains_ofList, decide_eq_false absent, Bool.not_false, Bool.and_true]
  rw [Plan.pending, List.filter_append, applied, waiting, List.nil_append]
  refine List.filter_isPrefix (later.imp fun {a b} less within => ?_)
  cases limit with
  | none => rfl
  | some id =>
    simp only [Option.all_some, decide_eq_true_eq] at within ⊢
    have before : a.id ≤ b.id := by
      refine String.not_lt.mp fun greater => ?_
      exact String.lt_irrefl _ (String.lt_trans less greater)
    exact String.le_trans before within

/-- When the first migrations of a registry are applied, a run up goes on where they end. -/
theorem Plan.up_of_applied {registry : Registry} {units : List Migration} {target : UpTarget}
    {plan : Plan} (initial : units <+: registry.migrations)
    (planned : Plan.up registry (IdSet.ofList (units.map (·.id))) target = .ok plan) :
    units ++ plan.steps <+: registry.migrations := by
  obtain ⟨limit, steps⟩ := Plan.steps_up planned
  obtain ⟨rest, whole⟩ := initial
  have ascending : Migration.Ascending (units ++ rest) := whole ▸ registry.ascending
  rw [steps, ← whole, List.prefix_append_right_inj]
  exact Plan.pending_isPrefix ascending limit

/-- When the first migrations of a registry are applied, a run down goes back from their end. -/
theorem Plan.down_of_applied {registry : Registry} {units : List Migration} {target : DownTarget}
    {plan : Plan} (initial : units <+: registry.migrations)
    (planned : Plan.down registry (IdSet.ofList (units.map (·.id))) target = .ok plan) :
    plan.steps <+: units.reverse := by
  obtain ⟨ids, members⟩ := Plan.steps_down planned
  have names : (IdSet.ofList (units.map (·.id))).names = units.map (·.id) :=
    IdSet.names_ofList (registry.ascending_ids.sublist (initial.sublist.map _))
  have selected := Plan.selected_isPrefix (IdSet.ofList (units.map (·.id))) target
  rw [names, ← ids, ← List.map_reverse] at selected
  refine List.isPrefix_of_map (fun m member n other => ?_) selected
  exact Registry.eq_of_id (members m member).1 (initial.subset (List.mem_reverse.mp other))

end Stepwise
