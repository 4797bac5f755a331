import Stepwise.Proofs.Directory.Registry
import Stepwise.Proofs.Plan.Steps
import Stepwise.Proofs.Script.Operations

/-!
# The registry as an ordered map

A list makes a registry, or is refused for the first migration that cannot come after those before
it (`Registry.ofList_eq_error_iff`). The registry depends on the members of the list and not on
their order (`Registry.ofList_perm`), and as its identifiers ascend strictly it can be searched by
halving (`Registry.bisect_eq_find?`).
-/

namespace Stepwise.Registry

variable {migrations : List Migration} {r : Registry} {error : MigrationError}

/-- Whether the identifiers of a list are valid and pairwise different. -/
def Admits (migrations : List Migration) : Prop :=
  (∀ m ∈ migrations, MigrationId.isValid m.id = true) ∧ (migrations.map (·.id)).Nodup

/-- Why a migration cannot come after those with the given identifiers: its own is invalid, or it is
valid and one of them. -/
inductive Offends (earlier : List String) (m : Migration) : MigrationError → Prop
  | invalid : MigrationId.isValid m.id = false → Offends earlier m (.invalidId m.id)
  | repeated : MigrationId.isValid m.id = true → m.id ∈ earlier →
      Offends earlier m (.duplicateId m.id)

theorem Offends.mono {a b : List String} {m : Migration} (offends : Offends a m error)
    (within : ∀ id ∈ a, id ∈ b) : Offends b m error := by
  cases offends with
  | invalid wrong => exact .invalid wrong
  | repeated valid taken => exact .repeated valid (within _ taken)

private theorem refused?_eq_none_iff_admits :
    refused? [] migrations = none ↔ Admits migrations := by
  simp [refused?_eq_none_iff, Admits]

theorem refused?_cons (seen : List String) (m : Migration) (rest : List Migration) :
    refused? seen (m :: rest) = (refused? seen [m]).or (refused? (m.id :: seen) rest) := by
  simp only [refused?]
  split
  · rfl
  · split <;> rfl

theorem refused?_singleton {seen : List String} {m : Migration} :
    refused? seen [m] = some error ↔ Offends seen m error := by
  simp only [refused?]
  constructor
  · intro refused
    split at refused
    · next wrong =>
      cases refused
      exact .invalid (by simpa using wrong)
    · next valid =>
      split at refused
      · next taken =>
        cases refused
        exact .repeated (by simpa using valid) taken
      · contradiction
  · intro offends
    cases offends with
    | invalid wrong => simp [wrong]
    | repeated valid taken => simp [valid, taken]

/-- A list is refused for the first migration that cannot come after those before it. -/
theorem refused?_eq_some_iff {seen : List String} :
    refused? seen migrations = some error ↔
      ∃ earlier m later, migrations = earlier ++ m :: later ∧ refused? seen earlier = none ∧
        Offends (seen ++ earlier.map (·.id)) m error := by
  induction migrations generalizing seen with
  | nil => simp [refused?]
  | cons first rest ih =>
    rw [refused?_cons]
    constructor
    · intro refused
      -- The head is refused, or the rest is, which has seen the head besides.
      cases head : refused? seen [first] with
      | some reason =>
        rw [head] at refused
        cases refused
        refine ⟨[], first, rest, rfl, rfl, ?_⟩
        exact (refused?_singleton.mp head).mono fun id taken => List.mem_append_left _ taken
      | none =>
        rw [head] at refused
        obtain ⟨earlier, m, later, rfl, clear, offends⟩ := ih.mp refused
        refine ⟨first :: earlier, m, later, rfl, ?_, offends.mono fun id taken => ?_⟩
        · rw [refused?_cons, head]
          exact clear
        · exact List.perm_middle.mem_iff.mpr taken
    · rintro ⟨earlier, m, later, whole, clear, offends⟩
      cases earlier with
      | nil =>
        cases whole
        rw [List.map_nil, List.append_nil] at offends
        rw [refused?_singleton.mpr offends]
        rfl
      | cons head earlier =>
        cases whole
        rw [refused?_cons, Option.or_eq_none_iff] at clear
        rw [clear.1]
        refine ih.mpr ⟨earlier, m, later, rfl, clear.2, offends.mono fun id taken => ?_⟩
        exact List.perm_middle.mem_iff.mp taken

theorem exists_ofList_iff : (∃ r, ofList migrations = .ok r) ↔ Admits migrations := by
  refine ⟨fun ⟨r, made⟩ => ?_, fun ⟨valid, apart⟩ => exists_ofList valid apart⟩
  obtain ⟨valid, apart, -⟩ := perm_of_ofList made
  exact ⟨valid, apart⟩

private theorem ofList_eq_error_iff :
    ofList migrations = .error error ↔
      ∃ earlier m later, migrations = earlier ++ m :: later ∧ Admits earlier ∧
        Offends (earlier.map (·.id)) m error := by
  have refused : ofList migrations = .error error ↔ refused? [] migrations = some error := by
    rw [ofList]
    cases refused? [] migrations with
    | some reason => simp
    | none => simp
  simp only [refused, refused?_eq_some_iff, refused?_eq_none_iff_admits, List.nil_append]

/-- Lists with the same members make the same registry. -/
theorem ofList_perm {others : List Migration} (same : others.Perm migrations)
    (made : ofList migrations = .ok r) : ofList others = .ok r := by
  obtain ⟨valid, apart, members⟩ := perm_of_ofList made
  obtain ⟨s, made'⟩ := exists_ofList (fun m member => valid m (same.mem_iff.mp member))
    ((same.map _).nodup_iff.mpr apart)
  obtain ⟨-, -, members'⟩ := perm_of_ofList made'
  -- Two ascending lists of the same members are the same list.
  have alike : s.migrations.Perm r.migrations := members'.trans (same.trans members.symm)
  have equal : s.migrations = r.migrations := by
    refine alike.eq_of_pairwise (fun a b _ _ less more => ?_) s.ascending r.ascending
    exact absurd (String.lt_trans less more) (String.lt_irrefl _)
  obtain ⟨_, _⟩ := s
  obtain ⟨_, _⟩ := r
  cases equal
  exact made'

/-- Search an ascending list by halving it: the migration in the middle has the identifier, or tells
in which half to go on. -/
def bisect (id : String) (migrations : List Migration) : Option Migration :=
  match found : migrations[migrations.length / 2]? with
  | none => none
  | some middle =>
    if middle.id = id then some middle
    else if middle.id < id then bisect id (migrations.drop (migrations.length / 2 + 1))
    else bisect id (migrations.take (migrations.length / 2))
termination_by migrations.length
decreasing_by
  all_goals
    obtain ⟨inside, -⟩ := List.getElem?_eq_some_iff.mp found
    simp only [List.length_drop, List.length_take]
    omega

/-- A migration of an ascending list tells on which side of it an identifier can be. -/
theorem find?_append_cons {front back : List Migration} {middle : Migration} {id : String}
    (ascending : Migration.Ascending (front ++ middle :: back)) :
    (front ++ middle :: back).find? (·.id = id) =
      if middle.id = id then some middle
      else if middle.id < id then back.find? (·.id = id)
      else front.find? (·.id = id) := by
  obtain ⟨-, later, before⟩ := List.pairwise_append.mp ascending
  have after := (List.pairwise_cons.mp later).1
  have absent {items : List Migration} (apart : ∀ m ∈ items, m.id ≠ id) :
      items.find? (·.id = id) = none :=
    List.find?_eq_none.mpr fun m member => by simpa using apart m member
  rw [List.find?_append]
  by_cases same : middle.id = id
  · have smaller (m : Migration) (member : m ∈ front) : m.id ≠ id :=
      String.ne_of_lt (same ▸ before m member middle List.mem_cons_self)
    rw [if_pos same, absent smaller, List.find?_cons_of_pos (by simpa using same), Option.none_or]
  · rw [if_neg same, List.find?_cons_of_neg (by simpa using same)]
    split
    · next less =>
      have smaller (m : Migration) (member : m ∈ front) : m.id ≠ id :=
        String.ne_of_lt (String.lt_trans (before m member middle List.mem_cons_self) less)
      rw [absent smaller, Option.none_or]
    · next notLess =>
      have less := Std.lt_of_le_of_ne (String.not_lt.mp notLess) (Ne.symm same)
      have greater (m : Migration) (member : m ∈ back) : m.id ≠ id :=
        (String.ne_of_lt (String.lt_trans less (after m member))).symm
      rw [absent greater, Option.or_none]

/-- Halving an ascending list finds what going through it finds. -/
theorem bisect_eq_find? {id : String} (ascending : Migration.Ascending migrations) :
    bisect id migrations = migrations.find? (·.id = id) := by
  have parts {items : List Migration} {middle : Migration}
      (found : items[items.length / 2]? = some middle) :
      items = items.take (items.length / 2) ++ middle :: items.drop (items.length / 2 + 1) := by
    obtain ⟨inside, rfl⟩ := List.getElem?_eq_some_iff.mp found
    rw [← List.drop_eq_getElem_cons, List.take_append_drop]
  fun_induction bisect id migrations with
  | case1 items missing =>
    have short := List.getElem?_eq_none_iff.mp missing
    rw [List.eq_nil_of_length_eq_zero (l := items) (by omega)]
    rfl
  | case2 items middle found same =>
    conv_rhs => rw [parts found, find?_append_cons (parts found ▸ ascending), if_pos same]
  | case3 items middle found different less ih =>
    conv_rhs =>
      rw [parts found, find?_append_cons (parts found ▸ ascending), if_neg different, if_pos less]
    exact ih (ascending.sublist (List.drop_sublist _ _))
  | case4 items middle found different notLess ih =>
    conv_rhs =>
      rw [parts found, find?_append_cons (parts found ▸ ascending), if_neg different,
        if_neg notLess]
    exact ih (ascending.sublist (List.take_sublist _ _))

theorem mem_migrations_iff (made : ofList migrations = .ok r) {m : Migration} :
    m ∈ r.migrations ↔ m ∈ migrations := by
  obtain ⟨-, -, same⟩ := perm_of_ofList made
  exact same.mem_iff

theorem mem_ids_iff (made : ofList migrations = .ok r) {id : String} :
    id ∈ r.ids ↔ id ∈ migrations.map (·.id) := by
  simp only [ids, List.mem_map, mem_migrations_iff made]

/-- The migration of an identifier is the one of the list that makes the registry. -/
theorem get?_eq_some_iff (made : ofList migrations = .ok r) {id : String} {m : Migration} :
    r.get? id = some m ↔ m ∈ migrations ∧ m.id = id := by
  rw [← mem_migrations_iff made]
  constructor
  · exact mem_of_get?
  · rintro ⟨member, rfl⟩
    exact get?_id member

/-- A list makes a registry exactly if its identifiers are valid and pairwise different; otherwise
it is refused for the first migration that is invalid or repeats an earlier one. The registry has
the migrations of the list in strictly ascending order, whatever order they come in, and an
identifier finds the one that has it, also by halving. -/
theorem ordered_map (migrations : List Migration) :
    ((∃ r, ofList migrations = .ok r) ↔ Admits migrations) ∧
    (∀ error, ofList migrations = .error error ↔
      ∃ earlier m later, migrations = earlier ++ m :: later ∧ Admits earlier ∧
        Offends (earlier.map (·.id)) m error) ∧
    ∀ r, ofList migrations = .ok r →
      r.ids.Pairwise (· < ·) ∧ r.migrations.Perm migrations ∧
      (∀ others : List Migration, others.Perm migrations → ofList others = .ok r) ∧
      ∀ id, (∀ m, r.get? id = some m ↔ m ∈ migrations ∧ m.id = id) ∧
        (r.get? id = none ↔ ∀ m ∈ migrations, m.id ≠ id) ∧
        r.get? id = bisect id r.migrations := by
  refine ⟨exists_ofList_iff, fun _ => ofList_eq_error_iff, fun r made => ?_⟩
  obtain ⟨-, -, same⟩ := perm_of_ofList made
  refine ⟨r.ascending_ids, same, fun others => (ofList_perm · made), fun id => ?_⟩
  refine ⟨fun m => get?_eq_some_iff made, ?_, (bisect_eq_find? r.ascending).symm⟩
  simp only [Option.eq_none_iff_forall_ne_some, ne_eq, get?_eq_some_iff made, not_and]

/-- Two migrations make one registry in either order. An identifier is looked up as it is written,
and a third migration is refused for an identifier that is taken before one that is invalid. -/
theorem ordered_map_unsorted :
    let users := (Definition.creating "20250101-users" "users").toMigration
    let orders := (Definition.creating "20250102-orders" "orders").toMigration
    let unnamed := (Definition.creating "users" "users").toMigration
    (∃ r, ofList [orders, users] = .ok r ∧ r.ids.Pairwise (· < ·) ∧
      r.migrations.Perm [orders, users] ∧ ofList [users, orders] = .ok r ∧
      r.get? "20250101-users" = some users ∧ r.get? "20250101-üsers" = none) ∧
    ofList [orders, users, orders, unnamed] = .error (.duplicateId "20250102-orders") := by
  intro users orders unnamed
  have admitted : Admits [orders, users] := ⟨by decide, by decide⟩
  obtain ⟨r, made⟩ := (ordered_map [orders, users]).1.mpr admitted
  obtain ⟨ascending, same, shuffled, found⟩ := (ordered_map [orders, users]).2.2 r made
  refine ⟨⟨r, made, ascending, same, shuffled _ (.swap ..), ?_, ?_⟩, ?_⟩
  · exact ((found _).1 users).mpr ⟨by simp, rfl⟩
  · exact (found _).2.1.mpr (by decide)
  · exact ((ordered_map _).2.1 _).mpr
      ⟨[orders, users], orders, [unnamed], rfl, admitted, .repeated (by decide) (by decide)⟩

end Stepwise.Registry
