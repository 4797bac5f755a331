import Stepwise.Proofs.Document.Identity
import Stepwise.Proofs.Store.Effect

/-!
# Identifying values as primary keys

Every document that a store holds has an identifying value. No two of a collection have equal ones,
and no update changes one, as long as no update has a path into the identifying value. Such updates
are accepted, and each of them, in a collection with the right two documents, makes their
identifying values the same (`Store.primary_key`).
-/

namespace Stepwise

namespace Collection

def ids (c : Collection) : List (Option Value) :=
  c.documents.map Fields.id?

/-- Whether no two documents have equal identifying values. -/
def DistinctIds (c : Collection) : Prop :=
  c.ids.Pairwise fun a b => ∀ i ∈ a, ∀ j ∈ b, ¬ i ≈ j

private theorem ids_updated {c : Collection} {change : Update} (sound : change.touchesId = false)
    (outside : ¬ change.EntersId) (filter : Filter) :
    ids { c with documents := c.updated filter change } = c.ids := by
  simp only [ids, updated, List.map_map]
  refine List.map_congr_left fun document _ => ?_
  rw [Function.comp_apply]
  split
  · exact Update.id?_apply_of_not_entersId sound outside document
  · rfl

/-- An identifying value that no document has differs from all. -/
theorem differ_of_hasId {c : Collection} {id : Value} (free : c.hasId id = false) :
    ∀ a ∈ c.ids, ∀ i ∈ a, ¬ i ≈ id := by
  rintro _ member i taken same
  obtain ⟨document, inside, rfl⟩ := List.mem_map.mp member
  have differs := List.any_eq_false.mp free document inside
  rw [show document.id? = some i from taken] at differs
  exact differs (decide_eq_true same)

end Collection

namespace Call

/-- Whether the call is not an update with a path into the identifying value. -/
def KeepsIds : Call → Prop
  | .update _ _ change => ¬ change.EntersId
  | _ => True

instance : DecidablePred KeepsIds
  | .update _ _ change => inferInstanceAs (Decidable (¬ change.EntersId))
  | .createCollection _ | .dropCollection _ | .listCollections | .insert .. | .delete .. |
    .deleteFirst .. | .find .. | .createIndex .. | .dropIndex .. | .listIndexes _ => isTrue trivial

/-- Whatever a call makes of a collection, its documents have identifying values. -/
theorem Makes.isSome_ids {c : Call} {before after : Collection} (makes : c.Makes before after)
    (present : ∀ id ∈ before.ids, id.isSome) : ∀ id ∈ after.ids, id.isSome := by
  cases makes with
  | same => exact present
  | @inserted name document stored id _ origin identified free allowed =>
    rw [Collection.ids, List.map_append, List.forall_mem_append]
    refine ⟨present, List.forall_mem_singleton.mpr ?_⟩
    rw [identified, Option.isSome_some]
  | updated sound clear =>
    rw [Collection.ids, Collection.updated, List.map_map, List.forall_mem_map]
    intro document member
    have here := present _ (List.mem_map_of_mem member)
    rw [Function.comp_apply]
    split
    · exact Update.isSome_id?_apply sound here
    · exact here
  | deleted name filter =>
    intro id member
    exact present id ((List.filter_sublist.map _).subset member)
  | deletedFirst found =>
    intro id member
    exact present id (((Collection.withoutFirst?_sublist found).map _).subset member)
  | indexed _ _ _ => exact present
  | unindexed _ => exact present

/-- Calls that keep identifying values keep them distinct. -/
theorem Makes.distinctIds {c : Call} {before after : Collection} (makes : c.Makes before after)
    (keeps : c.KeepsIds) (distinct : before.DistinctIds) : after.DistinctIds := by
  cases makes with
  | same => exact distinct
  | @inserted name document stored id _ origin identified free allowed =>
    rw [Collection.DistinctIds, Collection.ids, List.map_append, List.pairwise_append]
    refine ⟨distinct, List.pairwise_singleton _ _, ?_⟩
    intro a member b last i first j second
    rw [List.mem_singleton.mp last, identified] at second
    cases second
    exact Collection.differ_of_hasId free a member i first
  | updated sound clear =>
    rw [Collection.DistinctIds, Collection.ids_updated sound keeps]
    exact distinct
  | deleted name filter => exact distinct.sublist (List.filter_sublist.map _)
  | deletedFirst found => exact distinct.sublist ((Collection.withoutFirst?_sublist found).map _)
  | indexed _ _ _ => exact distinct
  | unindexed _ => exact distinct

end Call

namespace Store

/-- In every state, every document has an identifying value. -/
theorem isSome_ids_after (calls : List Call) (name : String) :
    ∀ id ∈ ((after calls).collection name).ids, id.isSome :=
  after_induction (p := fun c => ∀ id ∈ c.ids, id.isSome) nofun calls
    (fun _ _ _ _ makes => makes.isSome_ids) name

/-- In every state to which calls lead that keep identifying values, these are distinct. -/
theorem distinctIds_after {calls : List Call} (keeps : ∀ c ∈ calls, c.KeepsIds) (name : String) :
    ((after calls).collection name).DistinctIds :=
  after_induction (p := Collection.DistinctIds) List.Pairwise.nil calls
    (fun c member _ _ makes => makes.distinctIds (keeps c member)) name

/-- An update without a path into the identifying value changes none. -/
theorem ids_update {change : Update} (outside : ¬ change.EntersId) (s : Store) (name : String)
    (filter : Filter) (other : String) :
    ((s.update name filter change).2.collection other).ids = (s.collection other).ids := by
  obtain same | ⟨-, ⟨dropped, -⟩ | ⟨after, makes, put⟩⟩ := s.update_effect name filter change
  · rw [collection, same, collection]
  · contradiction
  · rw [collection, put, SortedMap.get?_insert]
    split
    · next here =>
      subst here
      cases makes with
      | same => rfl
      | updated sound clear => exact Collection.ids_updated sound outside filter
    · rfl

/-- A document whose identifying value is free goes into a collection without indexes. -/
theorem insert_of_free {s : Store} {name : String} {document : Document} {id : Value}
    (identified : document.id? = some id) (free : (s.collection name).hasId id = false)
    (unindexed : (s.collection name).indexes = []) :
    s.insert name document = (.ok (), s.counted.put name
      { s.collection name with documents := (s.collection name).documents ++ [document] }) := by
  rw [insert_of_id? identified]
  obtain ⟨taken | violated, -⟩ | ⟨-, -, added⟩ := s.counted.add_cases name id document
  · exact absurd (free.symm.trans taken) Bool.false_ne_true
  · refine absurd ?_ violated
    rw [Collection.violated?, show (s.counted.collection name).indexes = [] from unindexed]
    rfl
  · exact added

private theorem keeps_inserts (name : String) (i j : Value) :
    ∀ c ∈ [Call.insert name [("_id", i)], .insert name [("_id", j)]], c.KeepsIds :=
  List.forall_mem_cons.mpr ⟨trivial, List.forall_mem_singleton.mpr trivial⟩

/-- An update with a path into the identifying value makes some distinct ones the same. -/
theorem update_breaks {change : Update} (enters : change.EntersId) (name : String) :
    ∃ i j : Value, ¬ i ≈ j ∧
      ¬ ((after [.insert name [("_id", i)], .insert name [("_id", j)],
        .update name [] change]).collection name).DistinctIds := by
  obtain ⟨i, j, differ, merged⟩ := enters.merges
  refine ⟨i, j, differ, ?_⟩
  have first : (after [.insert name [("_id", i)]]).collection name = ⟨[[("_id", i)]], []⟩ := by
    have inserted := @insert_of_free {} name [("_id", i)] i rfl rfl rfl
    show (insert {} name [("_id", i)]).2.collection name = _
    rw [inserted, collection_put, if_pos rfl]
    rfl
  have both : (after [.insert name [("_id", i)], .insert name [("_id", j)]]).collections.get? name =
      some ⟨[[("_id", i)], [("_id", j)]], []⟩ := by
    have free : ((after [.insert name [("_id", i)]]).collection name).hasId j = false := by
      rw [first]
      show (decide (i ≈ j) || false) = false
      rw [decide_eq_false differ, Bool.or_false]
    have inserted := @insert_of_free _ name [("_id", j)] j rfl free (by rw [first])
    show ((after [.insert name [("_id", i)]]).insert name [("_id", j)]).2.collections.get? name = _
    rw [inserted, get?_put, if_pos rfl, first]
    rfl
  have updated : (after [.insert name [("_id", i)], .insert name [("_id", j)],
      .update name [] change]).collection name =
        ⟨[change.apply [("_id", i)], change.apply [("_id", j)]], []⟩ := by
    show ((after [.insert name [("_id", i)], .insert name [("_id", j)]]).update name []
      change).2.collection name = _
    generalize after [.insert name [("_id", i)], .insert name [("_id", j)]] = s at both
    have there : s.counted.collections.get? name = _ := both
    simp only [update, enters.1, Bool.false_eq_true, ↓reduceIte, there]
    exact (collection_put ..).trans (if_pos rfl)
  have present := @Update.isSome_id?_apply _ enters.1 [("_id", i)] rfl
  obtain ⟨k, left⟩ := Option.isSome_iff_exists.mp present
  have right : Fields.id? (change.apply [("_id", j)]) = some k := by
    rw [← left, Update.id?_apply, Update.id?_apply]
    exact merged.symm
  intro distinct
  rw [updated] at distinct
  exact (List.pairwise_cons.mp distinct).1 _ (List.mem_singleton_self _) k left k right
    (Setoid.refl k)

/-- In every state, every document has an identifying value. These are distinct in every state to
which calls lead that keep them. The updates that never change one, and that never make two equal,
are those without a path into the identifying value. -/
theorem primary_key (calls : List Call) (change : Update) :
    (∀ name, ∀ id ∈ ((after calls).collection name).ids, id.isSome) ∧
    ((∀ c ∈ calls, c.KeepsIds) → ∀ name, ((after calls).collection name).DistinctIds) ∧
    (¬ change.EntersId ↔ ∀ before name filter other,
      (((after before).update name filter change).2.collection other).ids =
        ((after before).collection other).ids) ∧
    (¬ change.EntersId ↔ ∀ before, (∀ c ∈ before, c.KeepsIds) → ∀ name filter other,
      (((after before).update name filter change).2.collection other).DistinctIds) := by
  refine ⟨isSome_ids_after calls, distinctIds_after, ⟨?_, ?_⟩, ?_, ?_⟩
  · intro outside before
    exact ids_update outside (after before)
  · intro kept enters
    obtain ⟨i, j, -, broken⟩ := update_breaks enters "c"
    have distinct := distinctIds_after (keeps_inserts "c" i j) "c"
    rw [Collection.DistinctIds, ← kept _ "c" [] "c"] at distinct
    exact broken distinct
  · intro outside before keeps name filter other
    rw [Collection.DistinctIds, ids_update outside]
    exact distinctIds_after keeps other
  · intro distinct enters
    obtain ⟨i, j, -, broken⟩ := update_breaks enters "c"
    exact broken (distinct _ (keeps_inserts "c" i j) "c" [] "c")

/-- Updates beside two identifying values keep these. -/
theorem primary_key_beside :
    let calls := [Call.insert "c" [("_id", .str "a")], .insert "c" [("_id", .str "b")],
      .update "c" [] ⟨[("n.x", .num (.int 1))], ["_idle.y"]⟩]
    (∀ id ∈ ((after calls).collection "c").ids, id.isSome) ∧
      ((after calls).collection "c").DistinctIds ∧
      (((after calls).update "c" [] ⟨[("x._id", .null)], []⟩).2.collection "c").ids =
        ((after calls).collection "c").ids ∧
      (((after calls).update "c" [] ⟨[("x._id", .null)], []⟩).2.collection "c").DistinctIds := by
  intro calls
  have keeps : ∀ c ∈ calls, c.KeepsIds := by decide
  have outside : ¬ Update.EntersId ⟨[("x._id", .null)], []⟩ := by decide
  obtain ⟨present, distinct, kept, still⟩ := primary_key calls ⟨[("x._id", .null)], []⟩
  exact ⟨present "c", distinct keeps "c", kept.mp outside calls "c" [] "c",
    still.mp outside calls keeps "c" [] "c"⟩

/-- Assigning inside of two distinct identifying values makes them equal. -/
theorem ids_merged :
    let calls := [Call.insert "c" [("_id", .str "a")], .insert "c" [("_id", .str "b")]]
    let inside := Call.update "c" [] ⟨[("_id.x", .num (.int 1))], []⟩
    ((after calls).collection "c").ids = [some (.str "a"), some (.str "b")] ∧
      ((after (calls ++ [inside])).collection "c").ids =
        [some (.obj [("x", .num (.int 1))]), some (.obj [("x", .num (.int 1))])] ∧
      ¬ ((after (calls ++ [inside])).collection "c").DistinctIds := by
  intro calls inside
  have merged : ((after (calls ++ [inside])).collection "c").ids =
      [some (.obj [("x", .num (.int 1))]), some (.obj [("x", .num (.int 1))])] := by
    decide
  refine ⟨by decide, merged, fun distinct => ?_⟩
  rw [Collection.DistinctIds, merged] at distinct
  exact (List.pairwise_cons.mp distinct).1 _ (List.mem_singleton_self _) _ rfl _ rfl (Setoid.refl _)

end Store

end Stepwise
