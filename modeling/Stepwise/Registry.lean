import Stepwise.Migration.Error
import Stepwise.Migration.Id

/-!
# The registry of migrations

All known migrations, strictly ascending by identifier. A list makes a registry when all its
identifiers are valid and none is repeated; the order of the list does not matter.
-/

namespace Stepwise

/-- Whether the identifiers of migrations ascend strictly. -/
def Migration.Ascending (migrations : List Migration) : Prop :=
  migrations.Pairwise fun a b => a.id < b.id

/-- Migrations in strictly ascending order of their identifiers. -/
structure Registry where
  migrations : List Migration
  ascending : Migration.Ascending migrations

namespace Registry

/-- Put a migration into an ascending list, in place of one with the same identifier. -/
def place (m : Migration) : List Migration → List Migration
  | [] => [m]
  | other :: rest =>
    if m.id < other.id then m :: other :: rest
    else if m.id = other.id then m :: rest
    else other :: place m rest

theorem mem_place {m n : Migration} {migrations : List Migration} (h : n ∈ place m migrations) :
    n = m ∨ n ∈ migrations := by
  induction migrations with
  | nil => simpa [place] using h
  | cons head rest ih =>
    simp only [place] at h
    split at h
    · simpa using h
    · split at h
      · rcases List.mem_cons.mp h with h | h
        · exact .inl h
        · exact .inr (List.mem_cons_of_mem _ h)
      · rcases List.mem_cons.mp h with h | h
        · exact .inr (h ▸ List.mem_cons_self ..)
        · exact (ih h).imp id (List.mem_cons_of_mem _)

theorem ascending_place {migrations : List Migration} (h : Migration.Ascending migrations)
    (m : Migration) : Migration.Ascending (place m migrations) := by
  induction migrations with
  | nil => simp [place, Migration.Ascending]
  | cons head rest ih =>
    obtain ⟨ahead, sorted⟩ := List.pairwise_cons.mp h
    simp only [place]
    split
    · rename_i less
      refine List.pairwise_cons.mpr ⟨fun n member => ?_, h⟩
      rcases List.mem_cons.mp member with rfl | member
      · exact less
      · exact String.lt_trans less (ahead n member)
    · split
      · rename_i same
        exact List.pairwise_cons.mpr ⟨fun n member => same ▸ ahead n member, sorted⟩
      · rename_i notLess different
        refine List.pairwise_cons.mpr ⟨fun n member => ?_, ih sorted⟩
        rcases mem_place member with rfl | member
        · exact Std.lt_of_le_of_ne (String.not_lt.mp notLess) (Ne.symm different)
        · exact ahead n member

def empty : Registry :=
  ⟨[], List.Pairwise.nil⟩

instance : Inhabited Registry := ⟨empty⟩

def insert (r : Registry) (m : Migration) : Registry :=
  ⟨place m r.migrations, ascending_place r.ascending m⟩

/-- The first migration of a list that keeps it from being a registry: its identifier is invalid, or
is one of those before it. -/
def refused? (seen : List String) : List Migration → Option MigrationError
  | [] => none
  | m :: rest =>
    if !MigrationId.isValid m.id then some (.invalidId m.id)
    else if m.id ∈ seen then some (.duplicateId m.id)
    else refused? (m.id :: seen) rest

/-- The registry of the migrations of a list. -/
def ofList (migrations : List Migration) : Except MigrationError Registry :=
  match refused? [] migrations with
  | some error => .error error
  | none => .ok (migrations.foldr (fun m r => r.insert m) empty)

def ids (r : Registry) : List String :=
  r.migrations.map (·.id)

def get? (r : Registry) (id : String) : Option Migration :=
  r.migrations.find? (·.id = id)

def contains (r : Registry) (id : String) : Bool :=
  (r.get? id).isSome

def size (r : Registry) : Nat :=
  r.migrations.length

def shown (r : Registry) : String :=
  "MigrationRegistry \x7b ids: [" ++ ", ".intercalate (r.ids.map Text.quoted) ++ "] \x7d"

end Registry

end Stepwise
