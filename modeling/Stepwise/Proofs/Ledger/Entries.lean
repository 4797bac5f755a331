import Stepwise.Proofs.Instant.Text
import Stepwise.Proofs.Run.Course

/-!
# Where the documents of a ledger come from

Every document that a run leaves in the ledger was there before, or records a migration that the run
went through, in the batch of the run (`Course.mem_documents`). Reading such a document gives back
identifier and batch, so that the batch of a run up is above all those that it read. It can be read
if the instant is legible and the batch fits 64 bits (`LedgerEntry.ofDocument_document`).
-/

namespace Stepwise

namespace LedgerEntry

private theorem ofDocument_document_eq (entry : LedgerEntry) : ofDocument entry.document =
    match Instant.parse? entry.appliedAt.storedText with
    | none => .error (invalid entry.document "applied_at")
    | some appliedAt =>
      match Value.int64? (.num (.int entry.batch)) with
      | none => .error (invalid entry.document "batch")
      | some batch => .ok { id := entry.id, appliedAt, batch } := by
  have recorded : recordedId? entry.document = some entry.id := rfl
  have applied : (entry.document.get? "applied_at").bind Value.str? =
    some entry.appliedAt.storedText := rfl
  have numbered : (entry.document.get? "batch").bind Value.int64? =
      Value.int64? (.num (.int entry.batch)) := rfl
  cases instant : Instant.parse? entry.appliedAt.storedText with
  | none => simp [ofDocument, recorded, applied, instant]
  | some appliedAt =>
    cases batch : Value.int64? (.num (.int entry.batch)) with
    | none => simp [ofDocument, recorded, applied, numbered, instant, batch]
    | some n => simp [ofDocument, recorded, applied, numbered, instant, batch]

/-- A document is read back as the entry that it records. -/
theorem ofDocument_document {entry : LedgerEntry} (legible : entry.appliedAt.IsLegible)
    (least : -0x8000000000000000 ≤ entry.batch) (most : entry.batch < 0x8000000000000000) :
    ofDocument entry.document = .ok entry := by
  rw [ofDocument_document_eq, Instant.parse?_storedText legible, Value.int64?,
    if_pos ⟨least, most⟩]

/-- Reading the document of an entry gives its identifier and batch. -/
theorem of_ofDocument_document {entry read : LedgerEntry}
    (ok : ofDocument entry.document = .ok read) :
    read.id = entry.id ∧ read.batch = entry.batch := by
  rw [ofDocument_document_eq] at ok
  generalize Instant.parse? entry.appliedAt.storedText = instant at ok
  cases instant with
  | none => contradiction
  | some appliedAt =>
    cases stored : Value.int64? (.num (.int entry.batch)) with
    | none =>
      rw [stored] at ok
      contradiction
    | some batch =>
      rw [stored] at ok
      cases ok
      rw [Value.int64?, Option.ite_none_right_eq_some] at stored
      exact ⟨rfl, (Option.some.inj stored.2).symm⟩

/-- A batch that is read fits 64 bits with a sign. -/
theorem batch_range {document : Document} {entry : LedgerEntry}
    (ok : ofDocument document = .ok entry) :
    -0x8000000000000000 ≤ entry.batch ∧ entry.batch < 0x8000000000000000 := by
  unfold ofDocument at ok
  split at ok
  · contradiction
  · split at ok
    · contradiction
    · split at ok
      · contradiction
      · next batch read =>
        cases ok
        obtain ⟨value, -, fits⟩ := Option.bind_eq_some_iff.mp read
        unfold Value.int64? at fits
        split at fits
        · rw [Option.ite_none_right_eq_some, Option.some.injEq] at fits
          rw [← fits.2]
          exact fits.1
        · contradiction

/-- Documents tell the identifiers and the batches of entries apart. -/
theorem of_document_eq {a b : LedgerEntry} (same : a.document = b.document) :
    a.id = b.id ∧ a.batch = b.batch := by
  simp only [document, List.cons.injEq, Prod.mk.injEq, Value.str.injEq, Value.num.injEq,
    Number.int.injEq, true_and, and_true] at same
  exact ⟨same.1, same.2.2.2⟩

theorem batch_le_latestBatch {entries : List LedgerEntry} {entry : LedgerEntry}
    (member : entry ∈ entries) : entry.batch ≤ latestBatch entries := by
  cases entries with
  | nil => contradiction
  | cons first rest =>
    have above (entries : List LedgerEntry) (start : Int) :
        start ≤ entries.foldl (fun batch entry => max batch entry.batch) start ∧
        ∀ entry ∈ entries, entry.batch ≤
          entries.foldl (fun batch entry => max batch entry.batch) start := by
      induction entries generalizing start with
      | nil => exact ⟨Int.le_refl start, List.forall_mem_nil _⟩
      | cons next others ih =>
        obtain ⟨least, every⟩ := ih (max start next.batch)
        rw [List.foldl_cons, List.forall_mem_cons]
        exact ⟨Int.le_trans (Int.le_max_left ..) least, Int.le_trans (Int.le_max_right ..) least,
          every⟩
    obtain ⟨least, every⟩ := above rest first.batch
    obtain rfl | later := List.mem_cons.mp member
    · exact least
    · exact every entry later

theorem latestBatch_le {entries : List LedgerEntry} {bound : Int}
    (least : entries = [] → 0 ≤ bound)
    (every : ∀ entry ∈ entries, entry.batch ≤ bound) : latestBatch entries ≤ bound := by
  cases entries with
  | nil => exact least rfl
  | cons first rest =>
    obtain ⟨here, later⟩ := List.forall_mem_cons.mp every
    rw [latestBatch]
    clear every least
    generalize first.batch = start at here
    induction rest generalizing start with
    | nil => exact here
    | cons next others ih =>
      obtain ⟨now, rest⟩ := List.forall_mem_cons.mp later
      exact ih rest _ (Int.max_le.mpr ⟨here, now⟩)

theorem le_latestBatch {entries : List LedgerEntry} {bound : Int} (most : bound ≤ 0)
    (every : ∀ entry ∈ entries, bound ≤ entry.batch) : bound ≤ latestBatch entries := by
  cases entries with
  | nil => exact most
  | cons first rest =>
    have here := every first List.mem_cons_self
    exact Int.le_trans here (batch_le_latestBatch List.mem_cons_self)

/-- Entries that ascend already are read in the order of their documents. -/
theorem ofDocuments_of_ascending {documents : List Document} {entries : List LedgerEntry}
    (read : documents.mapM ofDocument = .ok entries)
    (ascending : entries.Pairwise fun a b => a.id ≤ b.id) :
    ofDocuments documents = .ok entries := by
  have sorted : entries.mergeSort (fun a b => decide (a.id ≤ b.id)) = entries :=
    List.mergeSort_of_pairwise (ascending.imp fun less => decide_eq_true less)
  rw [ofDocuments, read]
  exact congrArg Except.ok sorted

/-- What is read are the entries that the documents give. -/
theorem mem_of_ofDocuments {documents : List Document} {entries : List LedgerEntry}
    (read : ofDocuments documents = .ok entries) {entry : LedgerEntry} :
    entry ∈ entries ↔ ∃ document ∈ documents, ofDocument document = .ok entry := by
  unfold ofDocuments at read
  cases mapped : documents.mapM ofDocument with
  | error cause =>
    rw [mapped] at read
    contradiction
  | ok unsorted =>
    rw [mapped] at read
    cases read
    have related := Except.mapM_eq_ok.mp mapped
    rw [List.mem_mergeSort]
    clear mapped
    induction related with
    | nil => simp
    | @cons document first _ _ here _ ih =>
      simp only [List.mem_cons, ih, exists_eq_or_imp, here, Except.ok.injEq, eq_comm (a := entry)]

end LedgerEntry

variable {σ : Type} (v : Service σ) (ledger : Ledger) (pass : Pass)

namespace Ledger

/-- After a write to the ledger, a document was there before or is the one that is recorded. -/
theorem mem_documents_write {now : Instant} {m : Migration} {x : σ} {document : Document}
    (member : document ∈ ledger.documents (v.store (v.run (pass.write ledger now m).run x).2)) :
    document ∈ ledger.documents (v.store x) ∨
      ∃ batch, pass = .apply batch ∧ document = LedgerEntry.document ⟨m.id, now, batch⟩ := by
  cases pass with
  | apply batch =>
    rw [Pass.write, record, v.run_request] at member
    have honest := v.honest x
      (.insert ledger.collection (LedgerEntry.document ⟨m.id, now, batch⟩))
    obtain ⟨-, after⟩ | ⟨-, same⟩ := honest
    · have own : Fields.id? (LedgerEntry.document ⟨m.id, now, batch⟩) = some (.str m.id) := rfl
      rw [after, Store.perform, Store.insert_of_id? own] at member
      obtain ⟨-, key, refused⟩ | ⟨-, -, added⟩ := (v.store x).counted.add_cases ledger.collection
        (.str m.id) (LedgerEntry.document ⟨m.id, now, batch⟩)
      · rw [refused] at member
        exact .inl member
      · rw [added, documents, Store.collection_put, if_pos rfl] at member
        obtain before | last := List.mem_append.mp member
        · exact .inl before
        · exact .inr ⟨batch, rfl, List.mem_singleton.mp last⟩
    · rw [same] at member
      exact .inl member
  | revert =>
    have erased : v.store (v.run (ledger.erase m.id).run x).2 =
        v.store (v.perform x (.deleteFirst ledger.collection (.onId (.str m.id)))).2 := by
      rw [erase, v.run_attempt_bind, v.run_request]
      generalize v.perform x (.deleteFirst ledger.collection (.onId (.str m.id))) = performed
      obtain ⟨answer, y⟩ := performed
      cases answer <;> rfl
    rw [Pass.write, erased] at member
    obtain ⟨-, after⟩ | ⟨-, same⟩ := v.honest x (.deleteFirst ledger.collection (.onId (.str m.id)))
    · rw [after, Store.perform] at member
      obtain ⟨-, kept⟩ | ⟨left, gone, deleted⟩ :=
        (v.store x).deleteFirst_cases ledger.collection (.onId (.str m.id))
      · rw [kept] at member
        exact .inl member
      · rw [deleted, documents, Store.collection_put, if_pos rfl] at member
        exact .inl ((Collection.withoutFirst?_sublist gone).subset member)
    · rw [same] at member
      exact .inl member

end Ledger

def Stage.entry (batch : Int) (stage : Stage σ) : LedgerEntry :=
  { id := stage.migration.id, appliedAt := stage.now, batch }

/-- After a stage, a document was there before or records the migration of the stage. -/
theorem Stage.mem_documents {stage : Stage σ}
    (spares : (stage.migration.body pass.direction).run.Spares ledger.collection)
    {document : Document}
    (member : document ∈ ledger.documents (v.store (stage.ended v ledger pass).2)) :
    document ∈ ledger.documents (v.store stage.start) ∨
      ∃ batch, pass = .apply batch ∧ document = (stage.entry batch).document := by
  have same : ledger.documents (v.store (stage.ran v pass).2) =
      ledger.documents (v.store stage.start) := Ledger.documents_run v spares stage.start
  unfold Stage.ended at member
  split at member
  · rw [← same]
    exact Ledger.mem_documents_write v ledger pass member
  · next y ran =>
    rw [ran] at same
    rw [← same]
    exact .inl member

/-- After a run, a document was there before or records a migration that the run came to. -/
theorem Course.mem_documents {v : Service σ} {ledger : Ledger} {pass : Pass} {clock : Clock}
    {migrations : List Migration} {x y : σ} {stages : List (Stage σ)} {completed : List String}
    {failure : Option RunFailure}
    (course : Course v ledger pass clock migrations x stages completed failure y)
    (spares : ∀ m ∈ migrations, (m.body pass.direction).run.Spares ledger.collection)
    {document : Document} (member : document ∈ ledger.documents (v.store y)) :
    document ∈ ledger.documents (v.store x) ∨
      ∃ stage ∈ stages, ∃ batch, pass = .apply batch ∧ document = (stage.entry batch).document := by
  induction course with
  | finished clock x => exact .inl member
  | recorded _ _ ih =>
    obtain ⟨body, others⟩ := List.forall_mem_cons.mp spares
    obtain before | ⟨stage, later, recorded⟩ := ih others member
    · exact (Stage.mem_documents v ledger pass body before).imp_right fun recorded =>
        ⟨_, List.mem_cons_self, recorded⟩
    · exact .inr ⟨stage, List.mem_cons_of_mem _ later, recorded⟩
  | stopped _ =>
    obtain ⟨body, -⟩ := List.forall_mem_cons.mp spares
    exact (Stage.mem_documents v ledger pass body member).imp_right fun recorded =>
      ⟨_, List.mem_cons_self, recorded⟩

end Stepwise
