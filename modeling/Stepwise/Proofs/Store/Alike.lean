import Stepwise.Proofs.Document.Outline
import Stepwise.Proofs.Store.UniqueIndex

/-!
# Updates repeated and reordered

Documents are alike when they are equal as values, whatever the order of their fields. Filters and
indexes cannot tell documents that are alike from each other, so an update that makes alike
documents is accepted or refused alike (`Store.update_alike`). Repeating an update that was accepted
changes nothing more and finds no more documents (`Store.update_repeated`), and the order of
assignments at paths apart from each other, and of removals, makes no difference
(`Store.update_reordered`).
-/

namespace Stepwise

namespace Fields

/-- Whether two documents are equal as values, whatever the order of their fields. -/
def Alike (a b : Document) : Prop :=
  Value.obj a ≈ .obj b

instance (a b : Document) : Decidable (a.Alike b) :=
  inferInstanceAs (Decidable (Value.obj a ≈ .obj b))

theorem Alike.refl (a : Document) : a.Alike a :=
  Setoid.refl (Value.obj a)

/-- What is read in documents that are alike is equal. -/
theorem Alike.lookup {a b : Document} (alike : a.Alike b) (path : Path) :
    (a.lookup path).map Value.canonical = (b.lookup path).map Value.canonical := by
  have same : (Value.obj a).canonical = (Value.obj b).canonical := alike
  rw [lookup_eq, lookup_eq, ← Value.at?_canonical, ← Value.at?_canonical, same]

end Fields

namespace Index

/-- The values of a document under the index, in canonical form. -/
def canonicalValues (index : Index) (document : Document) : List Value :=
  (index.values document).map Value.canonical

theorem canonicalValues_congr (index : Index) {a b : Document} (alike : a.Alike b) :
    index.canonicalValues a = index.canonicalValues b := by
  have missing (found : Option Value) :
      (found.getD .null).canonical = (found.map Value.canonical).getD .null := by
    cases found <;> rfl
  simp only [canonicalValues, values, List.map_map]
  refine List.map_congr_left fun key _ => ?_
  simp only [Function.comp_apply, missing, alike.lookup]

theorem separates_iff {index : Index} {documents : List Document} :
    index.Separates documents ↔ (documents.map index.canonicalValues).Nodup := by
  rw [Separates, List.Nodup, List.pairwise_map]
  simp only [← agree_iff, agree, decide_eq_true_eq]
  rfl

end Index

namespace Collection

theorem map_canonicalValues_congr {documents others : List Document}
    (alike : List.Forall₂ Fields.Alike documents others) (index : Index) :
    documents.map index.canonicalValues = others.map index.canonicalValues := by
  rw [← List.forall₂_eq_eq_eq, List.forall₂_map_left_iff, List.forall₂_map_right_iff]
  exact alike.imp fun _ _ alike => index.canonicalValues_congr alike

/-- Documents that are alike clash alike. -/
theorem firstClash?_congr {documents others : List Document}
    (alike : List.Forall₂ Fields.Alike documents others) (indexes : List Index) :
    firstClash? indexes documents = none ↔ firstClash? indexes others = none := by
  simp only [firstClash?_eq_none, Index.separates_iff, map_canonicalValues_congr alike]

/-- Whether two collections have the same indexes and documents that are alike, in the same
order. -/
structure Alike (a b : Collection) : Prop where
  documents : List.Forall₂ Fields.Alike a.documents b.documents
  indexes : a.indexes = b.indexes

theorem Alike.refl (c : Collection) : c.Alike c :=
  ⟨List.forall₂_same.mpr fun document _ => .refl document, rfl⟩

/-- What an update makes of documents that it has made already is alike them. -/
theorem updated_again (c : Collection) (filter : Filter) (change : Update) :
    let once := { c with documents := c.updated filter change }
    List.Forall₂ Fields.Alike (once.updated filter change) once.documents := by
  intro once
  rw [updated, List.forall₂_map_left_iff, List.forall₂_same]
  intro document member
  split
  · next passes =>
    obtain ⟨before, -, rfl⟩ := List.mem_map.mp member
    split
    · exact change.apply_apply before
    · next skipped =>
      rw [if_neg skipped] at passes
      contradiction
  · exact .refl document

/-- A document that is not found before the update is not found after it. -/
theorem count_again (c : Collection) (filter : Filter) (change : Update) :
    count { c with documents := c.updated filter change } filter ≤ c.count filter := by
  rw [count, updated, List.countP_map]
  refine List.countP_mono_left fun document _ passes => ?_
  rw [Function.comp_apply] at passes
  split at passes
  · assumption
  · assumption

end Collection

namespace Store

/-- Whether two stores have alike collections, under the same names. -/
def Alike (a b : Store) : Prop :=
  ∀ name, Option.Rel Collection.Alike (a.collections.get? name) (b.collections.get? name)

theorem Alike.refl (s : Store) : s.Alike s := by
  intro name
  cases s.collections.get? name with
  | none => exact .none
  | some c => exact .some (.refl c)

/-- An update that was accepted is accepted again. It then finds at most as many documents and
leaves all collections as they are, but for the order of fields. -/
theorem update_repeated {s : Store} {name : String} {filter : Filter} {change : Update} {n : Nat}
    (accepted : (s.update name filter change).1 = .ok n) :
    let once := (s.update name filter change).2
    ∃ m ≤ n, (once.update name filter change).1 = .ok m ∧
      (once.update name filter change).2.Alike once := by
  intro once
  obtain ⟨-, reason, refused⟩ | ⟨sound, missing⟩ | ⟨-, -, -, key, refused⟩ |
    ⟨c, sound, present, clear⟩ := s.update_cases name filter change
  · rw [refused] at accepted
    contradiction
  · have first : once = s.counted := congrArg Prod.snd (update_of_missing sound missing filter)
    have still : once.collections.get? name = none := by rwa [first]
    rw [update_of_missing sound still]
    exact ⟨0, n.zero_le, rfl, .refl once⟩
  · rw [refused] at accepted
    contradiction
  · let d : Collection := { c with documents := c.updated filter change }
    have ran := update_of_clear sound present clear
    have first : once = s.counted.put name d := congrArg Prod.snd ran
    have found : c.count filter = n := by
      rw [ran] at accepted
      exact Except.ok.inj accepted
    have there : once.collections.get? name = some d := by rw [first, get?_put, if_pos rfl]
    have documents := c.updated_again filter change
    have again := (Collection.firstClash?_congr documents c.indexes).mpr clear
    rw [update_of_clear sound there again]
    refine ⟨d.count filter, found ▸ c.count_again filter change, rfl, ?_⟩
    intro other
    rw [get?_put]
    split
    · next same =>
      rw [← same, there]
      exact .some ⟨documents, rfl⟩
    · exact Alike.refl once other

/-- A number gives way to an object, in which the next assignment has its place, and each time anew;
as the update takes away what the filter asks for, it then finds no document. -/
theorem update_repeated_nested :
    let s := after [.insert "c" [("_id", .str "a"), ("t", .obj [("u", .null), ("v", .bool true)])],
      .insert "c" [("_id", .str "b"), ("n", .str "old"), ("t", .obj [("v", .bool true)])]]
    let filter : Filter := [("t.v", .bool true)]
    let change : Update := ⟨[("n", .num (.int 1)), ("n.x", .num (.int 2))], ["t.v"]⟩
    let once := (s.update "c" filter change).2
    (s.update "c" filter change).1 = .ok 2 ∧
      ∃ m ≤ 2, (once.update "c" filter change).1 = .ok m ∧
        (once.update "c" filter change).2.Alike once := by
  intro s filter change once
  have accepted : (s.update "c" filter change).1 = .ok 2 := by decide
  exact ⟨accepted, update_repeated accepted⟩

/-- Updates that make alike documents are accepted or refused alike, and leave alike collections. -/
theorem update_alike {change other : Update} (touches : change.touchesId = other.touchesId)
    (alike : ∀ document, (change.apply document).Alike (other.apply document)) (s : Store)
    (name : String) (filter : Filter) :
    (s.update name filter change).1.mapError StoreError.kind =
        (s.update name filter other).1.mapError StoreError.kind ∧
      (s.update name filter change).2.Alike (s.update name filter other).2 := by
  simp only [update, touches]
  split
  · exact ⟨rfl, .refl _⟩
  · split
    · exact ⟨rfl, .refl _⟩
    · next c present =>
      have documents :
          List.Forall₂ Fields.Alike (c.updated filter change) (c.updated filter other) := by
        rw [Collection.updated, Collection.updated, List.forall₂_map_left_iff,
          List.forall₂_map_right_iff, List.forall₂_same]
        intro document member
        split
        · exact alike document
        · exact .refl document
      have clash := Collection.firstClash?_congr documents c.indexes
      cases left : Collection.firstClash? c.indexes (c.updated filter change) with
      | none =>
        rw [clash.mp left]
        refine ⟨rfl, fun named => ?_⟩
        rw [get?_put, get?_put]
        split
        · exact .some ⟨documents, rfl⟩
        · exact Alike.refl s.counted named
      | some found =>
        obtain ⟨refused, right⟩ := Option.ne_none_iff_exists'.mp
          (mt clash.mpr (left.symm ▸ Option.some_ne_none found))
        rw [right]
        exact ⟨rfl, .refl _⟩

/-- The order of assignments at paths apart from each other, and of removals, makes no difference,
neither to a document nor to an update of a collection: it is accepted with the same answer, or
refused for the same kind of reason, and leaves the same collections, but for the order of
fields. -/
theorem update_reordered {change other : Update} (independent : change.Independent)
    (sets : change.set.Perm other.set) (unsets : change.unset.Perm other.unset) :
    (∀ document, (change.apply document).Alike (other.apply document)) ∧
    ∀ s name filter,
      (update s name filter change).1.mapError StoreError.kind =
          (update s name filter other).1.mapError StoreError.kind ∧
        (update s name filter change).2.Alike (update s name filter other).2 := by
  have alike := independent.apply_perm sets unsets
  have touches : change.touchesId = other.touchesId := by
    rw [Update.touchesId, sets.any_eq, unsets.any_eq, Update.touchesId]
  exact ⟨alike, update_alike touches alike⟩

/-- Two assignments make the same object of a number, whichever comes first; of the removals that
overlap them, one takes the whole of what one of them has assigned. -/
theorem update_reordered_shared :
    let change : Update := ⟨[("a.x", .obj [("z", .null)]), ("a.y", .str "new")],
      ["a.x.z", "a.x", "b"]⟩
    let other : Update := ⟨[("a.y", .str "new"), ("a.x", .obj [("z", .null)])],
      ["b", "a.x", "a.x.z"]⟩
    let document : Document := [("_id", .str "d"), ("a", .num (.int 5)), ("b", .null)]
    let s := after [.insert "c" document]
    change.Independent ∧ change.set.Perm other.set ∧ change.unset.Perm other.unset ∧
      (change.apply document).Alike (other.apply document) ∧
      (s.update "c" [("a", .num (.int 5))] change).1.mapError StoreError.kind =
        (s.update "c" [("a", .num (.int 5))] other).1.mapError StoreError.kind ∧
      (s.update "c" [("a", .num (.int 5))] change).2.Alike
        (s.update "c" [("a", .num (.int 5))] other).2 := by
  intro change other document s
  have independent : change.Independent := by decide
  have sets : change.set.Perm other.set := .swap ..
  have unsets : change.unset.Perm other.unset := by decide
  obtain ⟨documents, stores⟩ := update_reordered independent sets unsets
  exact ⟨independent, sets, unsets, documents document, stores s "c" _⟩

-- Where one path is above the other, the later assignment decides.
example : ¬ (Update.apply ⟨[("a", .null), ("a.b", .null)], []⟩ []).Alike
    (Update.apply ⟨[("a.b", .null), ("a", .null)], []⟩ []) := by decide

end Store

end Stepwise
