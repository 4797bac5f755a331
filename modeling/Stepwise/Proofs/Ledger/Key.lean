import Mathlib.Data.List.Count
import Stepwise.Proofs.Run.Course

/-!
# Keys of ledger documents

Reading a ledger takes the identifier of a document from a field of its own, and only if that is
missing from the identifying value, but recording and erasing go by the identifying value alone. The
two agree when every document is stored under the identifier that it records, and none repeats
another (`Ledger.Keyed`), as in every ledger that was written by recording and erasing only. In a
ledger that can be read but is not keyed, erasing leaves some identifier where it was, or takes
another one away (`Ledger.keys_agree`).
-/

namespace Stepwise

private theorem Collection.getD_withoutFirst? (filter : Filter) (documents : List Document) :
    (withoutFirst? filter documents).getD documents = documents.eraseP filter.passes := by
  induction documents with
  | nil => rfl
  | cons document rest ih =>
    rw [withoutFirst?, List.eraseP_cons, ← ih]
    cases filter.passes document <;> cases withoutFirst? filter rest <;> rfl

theorem LedgerEntry.exists_ofDocuments {documents : List Document} :
    (∃ entries, ofDocuments documents = .ok entries) ↔
      ∀ document ∈ documents, ∃ entry, ofDocument document = .ok entry := by
  have sorted : (∃ entries, ofDocuments documents = .ok entries) ↔
      ∃ entries, documents.mapM ofDocument = .ok entries := by
    unfold ofDocuments
    cases documents.mapM ofDocument with
    | error cause => exact iff_of_false nofun nofun
    | ok entries => exact iff_of_true ⟨_, rfl⟩ ⟨_, rfl⟩
  rw [sorted, Except.exists_mapM_ok]

namespace Ledger

variable {ledger : Ledger} {s : Store}

/-- Whether every document of a ledger can be read. -/
def Readable (ledger : Ledger) (s : Store) : Prop :=
  ∀ document ∈ ledger.documents s, ∃ entry, LedgerEntry.ofDocument document = .ok entry

/-- Whether every document of a ledger is stored under the identifier that it records, and no
identifier is recorded twice. -/
structure Keyed (ledger : Ledger) (s : Store) : Prop where
  id?_eq : ∀ document ∈ ledger.documents s, ∀ id, LedgerEntry.recordedId? document = some id →
    document.id? = some (.str id)
  nodup : (ledger.recorded s).Nodup

/-- A ledger that was written by recording and erasing only is keyed. -/
theorem Written.keyed (written : ledger.Written s) : ledger.Keyed s := by
  obtain ⟨entries, documents, nodup⟩ := written
  refine ⟨fun document member id recorded => ?_, by rwa [recorded_eq documents]⟩
  rw [documents] at member
  obtain ⟨entry, -, rfl⟩ := List.mem_map.mp member
  cases recorded
  rfl

theorem run_entries_plain (ledger : Ledger) (s : Store) :
    ledger.entries.run.run s =
      ((LedgerEntry.ofDocuments (ledger.documents s)).mapError MigrationError.ledger, s) := by
  rw [← Service.run_plain, entries_eq, Service.run_attempt_bind, Service.run_request,
    Service.perform_plain, Store.perform, Store.find_all]
  rfl

/-- A ledger is read when all its documents can be, and what is read is the set of the identifiers
that they record. -/
theorem run_ids_eq_ok {ids : IdSet} :
    (ledger.ids.run.run s).1 = .ok ids ↔
      ledger.Readable s ∧ ids = IdSet.ofList (ledger.recorded s) := by
  rw [← Service.run_plain, Ledger.ids, Service.run_attempt_bind, Service.run_plain,
    run_entries_plain, Readable, ← LedgerEntry.exists_ofDocuments]
  cases read : LedgerEntry.ofDocuments (ledger.documents s) with
  | error cause => simp [Except.mapError]
  | ok entries =>
    rw [recorded, ← LedgerEntry.ids_of_ofDocuments read]
    constructor
    · intro same
      cases same
      exact ⟨⟨entries, rfl⟩, rfl⟩
    · rintro ⟨-, rfl⟩
      rfl

/-- Erasing takes away the first document with the identifying value. -/
theorem run_erase_plain (ledger : Ledger) (id : String) (s : Store) :
    ((ledger.erase id).run.run s).1 = .ok () ∧
      ledger.documents ((ledger.erase id).run.run s).2 =
        (ledger.documents s).eraseP (Filter.onId (.str id)).passes := by
  rw [← Service.run_plain, erase, Service.run_attempt_bind, Service.run_request,
    ← Collection.getD_withoutFirst?]
  rw [Service.perform_plain, Store.perform]
  obtain ⟨kept, same⟩ | ⟨left, gone, deleted⟩ :=
    s.deleteFirst_cases ledger.collection (.onId (.str id))
  · rw [same, documents, documents, kept]
    exact ⟨rfl, rfl⟩
  · rw [deleted, documents, documents, gone]
    exact ⟨rfl, congrArg Collection.documents ((Store.collection_put ..).trans (if_pos rfl))⟩

private theorem Readable.erase (readable : ledger.Readable s) (id : String) :
    ledger.Readable ((ledger.erase id).run.run s).2 := by
  intro document member
  rw [(run_erase_plain ledger id s).2] at member
  exact readable document (List.eraseP_sublist.subset member)

theorem mem_recorded {id : String} :
    id ∈ ledger.recorded s ↔
      ∃ document ∈ ledger.documents s, LedgerEntry.recordedId? document = some id :=
  List.mem_filterMap

/-- In a keyed ledger, erasing takes away the identifier and no other. -/
theorem Keyed.mem_recorded_erase (keyed : ledger.Keyed s) (readable : ledger.Readable s)
    (id other : String) :
    other ∈ ledger.recorded ((ledger.erase id).run.run s).2 ↔
      other ∈ ledger.recorded s ∧ other ≠ id := by
  have erased := (run_erase_plain ledger id s).2
  by_cases stored : ∃ document ∈ ledger.documents s, (Filter.onId (.str id)).passes document
  · obtain ⟨_, member, passes⟩ := stored
    obtain ⟨gone, first, last, -, passes, whole, left⟩ := List.exists_of_eraseP member passes
    have member : gone ∈ ledger.documents s := by simp [whole]
    have own : LedgerEntry.recordedId? gone = some id := by
      obtain ⟨entry, read⟩ := readable gone member
      have recorded := LedgerEntry.recordedId?_of_ofDocument read
      have key := keyed.id?_eq gone member _ recorded
      rw [Filter.passes_onId.mp passes, Option.some.injEq, Value.str.injEq] at key
      rw [recorded, key]
    have split : ledger.recorded s = first.filterMap LedgerEntry.recordedId? ++
        id :: last.filterMap LedgerEntry.recordedId? := by
      rw [recorded, whole, List.filterMap_append, List.filterMap_cons_some own]
    have nodup := keyed.nodup
    rw [split, List.nodup_middle, List.nodup_cons, ← List.filterMap_append] at nodup
    rw [split, recorded, erased, left, List.filterMap_append, List.mem_append, List.mem_append,
      List.mem_cons]
    rw [List.filterMap_append, List.mem_append] at nodup
    constructor
    · intro rest
      refine ⟨rest.imp_right .inr, ?_⟩
      rintro rfl
      exact nodup.1 rest
    · rintro ⟨before | rfl | after, different⟩
      · exact .inl before
      · contradiction
      · exact .inr after
  · have nothing : ∀ document ∈ ledger.documents s, ¬ (Filter.onId (.str id)).passes document :=
      fun document member passes => stored ⟨document, member, passes⟩
    rw [recorded, erased, List.eraseP_of_forall_not nothing, ← recorded]
    refine ⟨fun inside => ⟨inside, ?_⟩, And.left⟩
    rintro rfl
    obtain ⟨document, member, recorded⟩ := mem_recorded.mp inside
    exact nothing document member (Filter.passes_onId.mpr (keyed.id?_eq document member _ recorded))

/-- Where erasing always takes the identifier away, the ledger is keyed. -/
theorem Keyed.of_erase (gone : ∀ id, id ∉ ledger.recorded ((ledger.erase id).run.run s).2) :
    ledger.Keyed s := by
  have absent (id : String) : ∀ document ∈ (ledger.documents s).eraseP
      (Filter.onId (.str id)).passes, LedgerEntry.recordedId? document ≠ some id := by
    intro document member recorded
    refine gone id (mem_recorded.mpr ⟨document, ?_, recorded⟩)
    rwa [(run_erase_plain ledger id s).2]
  have key : ∀ document ∈ ledger.documents s, ∀ id, LedgerEntry.recordedId? document = some id →
      document.id? = some (.str id) := by
    intro document member id recorded
    rw [← Filter.passes_onId]
    by_contra passes
    exact absent id document ((List.mem_eraseP_of_neg passes).mpr member) recorded
  refine ⟨key, List.nodup_iff_count_le_one.mpr fun id => ?_⟩
  by_cases stored : id ∈ ledger.recorded s
  · -- All but one of the documents are left when the identifier is erased.
    obtain ⟨document, member, own⟩ := mem_recorded.mp stored
    obtain ⟨removed, first, last, -, -, whole, left⟩ :=
      List.exists_of_eraseP member (Filter.passes_onId.mpr (key document member id own))
    have others (documents : List Document) (kept : ∀ other ∈ documents, other ∈ first ++ last) :
        (documents.filterMap LedgerEntry.recordedId?).count id = 0 := by
      refine List.count_eq_zero_of_not_mem fun inside => ?_
      obtain ⟨other, among, recorded⟩ := List.mem_filterMap.mp inside
      exact absent id other (left ▸ kept other among) recorded
    have before := others first fun _ => List.mem_append_left _
    have after := others last fun _ => List.mem_append_right _
    have here : ([removed].filterMap LedgerEntry.recordedId?).count id ≤ 1 :=
      Nat.le_trans List.count_le_length (List.length_filterMap_le _ _)
    rw [recorded, whole, ← List.singleton_append, List.filterMap_append, List.filterMap_append,
      List.count_append, List.count_append]
    omega
  · rw [List.count_eq_zero_of_not_mem stored]
    exact Nat.zero_le 1

/-- An identifier that a document is stored under is not recorded again, and nothing changes. -/
theorem run_record_of_stored {entry : LedgerEntry} {document : Document}
    (member : document ∈ ledger.documents s) (key : document.id? = some (.str entry.id)) :
    ((ledger.record entry).run.run s).1 = .error (.duplicateApply entry.id) ∧
      ((ledger.record entry).run.run s).2.collections = s.collections := by
  have own : entry.document.id? = some (.str entry.id) := rfl
  have taken : (s.collection ledger.collection).hasId (.str entry.id) = true := by
    refine List.any_eq_true.mpr ⟨document, member, ?_⟩
    rw [key]
    exact decide_eq_true (Setoid.refl _)
  rw [← Service.run_plain, record, Service.run_request, Service.perform_plain, Store.perform,
    Store.insert_of_id? own]
  obtain ⟨-, key, refused⟩ | ⟨free, -⟩ := s.counted.add_cases ledger.collection
    (.str entry.id) entry.document
  · rw [refused]
    exact ⟨rfl, rfl⟩
  · have here : (s.counted.collection ledger.collection).hasId (.str entry.id) = true := taken
    rw [here] at free
    contradiction

private theorem Keyed.congr {t : Store} (keyed : ledger.Keyed s)
    (same : ledger.documents t = ledger.documents s) : ledger.Keyed t where
  id?_eq := same ▸ keyed.id?_eq
  nodup := recorded_congr same ▸ keyed.nodup

/-- Reading a keyed ledger after erasing gives what was read before, without the identifier. -/
theorem Keyed.run_ids_erase (keyed : ledger.Keyed s) {ids : IdSet}
    (read : (ledger.ids.run.run s).1 = .ok ids) (id : String) :
    (ledger.ids.run.run ((ledger.erase id).run.run s).2).1 = .ok (ids.erase id) := by
  obtain ⟨readable, rfl⟩ := run_ids_eq_ok.mp read
  rw [run_ids_eq_ok, IdSet.erase_ofList]
  exact ⟨readable.erase id, keyed.mem_recorded_erase readable id⟩

/-- Where a ledger can be read, the following are the same: every document is stored under the
identifier that it records, and none repeats another; erasing any identifier takes it, and no other,
from what is read. Then what is read is not recorded again, and a step down that succeeds takes its
migration from what the next plan sees as applied. -/
theorem keys_agree {ids : IdSet} (read : (ledger.ids.run.run s).1 = .ok ids) :
    (ledger.Keyed s ↔ ∀ id, ((ledger.erase id).run.run s).1 = .ok () ∧
      (ledger.ids.run.run ((ledger.erase id).run.run s).2).1 = .ok (ids.erase id)) ∧
    (ledger.Keyed s → ∀ entry, ids.contains entry.id = true →
      ((ledger.record entry).run.run s).1 = .error (.duplicateApply entry.id) ∧
        ((ledger.record entry).run.run s).2.collections = s.collections) ∧
    (ledger.Keyed s → ∀ now m t, (m.body .down).run.Spares ledger.collection →
      (Migrator.step ledger .revert now m).run.run s = (.ok (), t) →
        (ledger.ids.run.run t).1 = .ok (ids.erase m.id)) := by
  obtain ⟨readable, same⟩ := run_ids_eq_ok.mp read
  refine ⟨⟨fun keyed id => ⟨(run_erase_plain ledger id s).1, keyed.run_ids_erase read id⟩,
    fun exact => .of_erase fun id inside => ?_⟩, fun keyed entry inside => ?_,
    fun keyed now m t spares ran => ?_⟩
  · obtain ⟨-, left⟩ := run_ids_eq_ok.mp (exact id).2
    rw [same, IdSet.erase_ofList] at left
    exact ((left id).mp inside).2 rfl
  · rw [same, IdSet.contains_ofList, decide_eq_true_eq] at inside
    obtain ⟨document, member, recorded⟩ := mem_recorded.mp inside
    exact run_record_of_stored member (keyed.id?_eq document member _ recorded)
  · rw [← Service.run_plain, Stage.run_step] at ran
    obtain ⟨-, wrote⟩ := Stage.ended_of_ok .plain ledger .revert (congrArg Prod.fst ran)
    rw [wrote] at ran
    have kept : ledger.documents (Stage.ran .plain .revert ⟨m, now, s⟩).2 = ledger.documents s :=
      documents_run .plain spares s
    have found : (ledger.ids.run.run (Stage.ran .plain .revert ⟨m, now, s⟩).2).1 = .ok ids := by
      rwa [run_ids_eq_ok, Readable, kept, recorded_congr kept, ← Readable, ← run_ids_eq_ok]
    rw [show t = ((ledger.erase m.id).run.run _).2 from (congrArg Prod.snd ran).symm]
    exact (keyed.congr kept).run_ids_erase found m.id

/-- A ledger of one document that was written by hand and has no field for its identifier. -/
def handwritten : Store :=
  Store.after [.insert "migrations" [("_id", .str "20250101-users"),
    ("applied_at", .str "2025-01-03T08:00:00Z"), ("batch", .num (.int 1))]]

theorem keys_agree_handwritten :
    (Migrator.two.ledger.ids.run.run
        ((Migrator.two.ledger.erase "20250101-users").run.run handwritten).2).1 = .ok ∅ ∧
      (∀ now batch, ((Migrator.two.ledger.record ⟨"20250101-users", now, batch⟩).run.run
        handwritten).1 = .error (.duplicateApply "20250101-users")) := by
  have read : (Migrator.two.ledger.ids.run.run handwritten).1 =
      .ok (IdSet.ofList ["20250101-users"]) := by decide +kernel
  have keyed : Migrator.two.ledger.Keyed handwritten := by
    refine ⟨fun document member id recorded => ?_, by decide⟩
    obtain rfl := List.mem_singleton.mp member
    cases recorded
    rfl
  obtain ⟨erased, recorded, -⟩ := keys_agree read
  have inside : (IdSet.ofList ["20250101-users"]).contains "20250101-users" = true := by decide
  refine ⟨(erased.mp keyed "20250101-users").2, fun now batch => ?_⟩
  exact (recorded keyed ⟨"20250101-users", now, batch⟩ inside).1

/-- A document that is stored under one identifier and records another: erasing what it records
succeeds and takes nothing away, also at the end of a run down that is reported as complete, and
recording it succeeds although it is recorded. -/
theorem erase_misses :
    let s := Store.after [.insert "migrations" [("_id", .str "users"),
      ("migration_id", .str "20250101-users"), ("applied_at", .str "2025-01-03T08:00:00Z"),
      ("batch", .num (.int 1))]]
    let ledger := Migrator.two.ledger
    let erased := (ledger.erase "20250101-users").run.run s
    let down : Attempt MigrationError RunReport :=
      Migrator.two.migrate (.down (.count 1)) fun _ => ⟨⟨2025, 1, 4⟩, 8, 0, 0, 0⟩
    let reverted := down.run.run s
    (ledger.ids.run.run s).1 = .ok (IdSet.ofList ["20250101-users"]) ∧
      erased.1 = .ok () ∧
      (ledger.ids.run.run erased.2).1 = .ok (IdSet.ofList ["20250101-users"]) ∧
      reverted.1 = .ok ⟨.down, none, ["20250101-users"], none⟩ ∧
      (ledger.ids.run.run reverted.2).1 = .ok (IdSet.ofList ["20250101-users"]) ∧
      ((ledger.record ⟨"20250101-users", ⟨⟨2025, 1, 4⟩, 8, 0, 0, 0⟩, 2⟩).run.run s).1 = .ok () := by
  decide +kernel

end Ledger

end Stepwise
