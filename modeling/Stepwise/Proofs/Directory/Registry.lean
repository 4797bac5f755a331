import Mathlib.Data.List.Nodup
import Stepwise.Registry

/-!
# What makes a registry

A list of migrations makes a registry if and only if its identifiers are valid and pairwise
different, and the registry has its migrations then.
-/

namespace Stepwise.Registry

variable {migrations : List Migration} {m : Migration} {r : Registry}

theorem refused?_eq_none_iff {seen : List String} :
    refused? seen migrations = none ↔
      (∀ m ∈ migrations, MigrationId.isValid m.id = true) ∧
        (∀ m ∈ migrations, m.id ∉ seen) ∧ (migrations.map (·.id)).Nodup := by
  induction migrations generalizing seen with
  | nil => simp [refused?]
  | cons m rest ih =>
    simp only [refused?, List.forall_mem_cons, List.map_cons, List.nodup_cons]
    by_cases valid : MigrationId.isValid m.id = true
    · by_cases repeated : m.id ∈ seen
      · simp [valid, repeated]
      · have apart : (∀ n ∈ rest, n.id ∉ m.id :: seen) ↔
            (∀ n ∈ rest, n.id ∉ seen) ∧ m.id ∉ rest.map (·.id) := by
          simp only [List.mem_cons, not_or, List.mem_map, not_exists, not_and]
          exact ⟨fun other =>
              ⟨fun n member => (other n member).2, fun n member => (other n member).1⟩,
            fun ⟨unseen, other⟩ n member => ⟨other n member, unseen n member⟩⟩
        simp only [valid, repeated, Bool.not_true, Bool.false_eq_true, ↓reduceIte, ih, apart,
          not_false_eq_true, true_and, and_assoc]
    · simp [valid]

/-- A migration with a new identifier is put beside the others. -/
theorem place_perm (fresh : m.id ∉ migrations.map (·.id)) :
    (place m migrations).Perm (m :: migrations) := by
  induction migrations with
  | nil => exact List.Perm.refl _
  | cons other rest ih =>
    rw [List.map_cons, List.mem_cons, not_or] at fresh
    rw [place, if_neg fresh.1]
    split
    · exact List.Perm.refl _
    · exact ((ih fresh.2).cons other).trans (List.Perm.swap ..)

private theorem foldr_insert_perm (apart : (migrations.map (·.id)).Nodup) :
    (migrations.foldr (fun m r => r.insert m) empty).migrations.Perm migrations := by
  induction migrations with
  | nil => exact List.Perm.refl _
  | cons m rest ih =>
    obtain ⟨fresh, apart⟩ := List.nodup_cons.mp apart
    have others := ih apart
    have fresh : m.id ∉ (rest.foldr (fun m r => r.insert m) empty).migrations.map (·.id) :=
      fun member => fresh ((others.map _).mem_iff.mp member)
    exact (place_perm fresh).trans (others.cons m)

/-- A registry has the migrations of the list that makes it, whose identifiers are valid and
pairwise different. -/
theorem perm_of_ofList (made : ofList migrations = .ok r) :
    (∀ m ∈ migrations, MigrationId.isValid m.id = true) ∧ (migrations.map (·.id)).Nodup ∧
      r.migrations.Perm migrations := by
  rw [ofList] at made
  split at made
  · cases made
  · next accepted =>
    obtain ⟨valid, -, apart⟩ := refused?_eq_none_iff.mp accepted
    cases made
    exact ⟨valid, apart, foldr_insert_perm apart⟩

/-- Migrations with valid and pairwise different identifiers make a registry. -/
theorem exists_ofList (valid : ∀ m ∈ migrations, MigrationId.isValid m.id = true)
    (apart : (migrations.map (·.id)).Nodup) : ∃ r, ofList migrations = .ok r := by
  have accepted : refused? [] migrations = none :=
    refused?_eq_none_iff.mpr ⟨valid, fun _ _ => List.not_mem_nil, apart⟩
  rw [ofList, accepted]
  exact ⟨_, rfl⟩

end Stepwise.Registry
