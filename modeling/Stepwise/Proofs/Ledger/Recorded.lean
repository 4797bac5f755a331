import Stepwise.Migrator
import Stepwise.Proofs.Plan.Steps
import Stepwise.Proofs.Store.Service

/-!
# What a ledger records

A ledger that is written by recording and erasing only has one document for each entry, and no
identifier twice (`Ledger.Written`). Reading it gives the set of the identifiers that are recorded,
and a write does what it should or fails and leaves the documents as they are
(`Ledger.run_record`, `Ledger.run_erase`), whichever calls fail.
-/

namespace Stepwise

/-- The identifiers that a ledger holds when some went in, by a run up, or out, by a run down. -/
def Direction.Holds (direction : Direction) (before moved : List String) (id : String) : Prop :=
  match direction with
  | .up => id ∈ before ∨ id ∈ moved
  | .down => id ∈ before ∧ id ∉ moved

theorem Direction.holds_nil (direction : Direction) (before : List String) (id : String) :
    direction.Holds before [] id ↔ id ∈ before := by
  cases direction <;> simp [Direction.Holds]

/-- The identifiers go in or out one after the other. -/
theorem Direction.holds_cons {direction : Direction} {before middle : List String} {first : String}
    (one : ∀ id, id ∈ middle ↔ direction.Holds before [first] id) (rest : List String)
    (id : String) : direction.Holds middle rest id ↔ direction.Holds before (first :: rest) id := by
  cases direction <;>
    simp only [Direction.Holds, one, List.mem_cons, List.not_mem_nil, or_false, or_assoc, not_or,
      and_assoc]

private theorem Value.equiv_str {v : Value} {text : String} : v ≈ .str text ↔ v = .str text := by
  rw [equiv_iff]
  cases v <;> simp [canonical]

theorem Value.str_equiv {a b : String} : Value.str a ≈ Value.str b ↔ a = b := by
  rw [equiv_str, str.injEq]

/-- The filter on an identifier passes the documents with that identifying value only. -/
theorem Filter.passes_onId {document : Document} {id : String} :
    (onId (.str id)).passes document = true ↔ document.id? = some (.str id) := by
  have place : Path.parse "_id" = ⟨"_id", []⟩ := by decide
  have looked : document.lookup ⟨"_id", []⟩ = document.id? := by
    rw [Fields.lookup, Fields.id?]
    cases document.get? "_id" <;> rfl
  simp only [onId, passes, List.all_cons, List.all_nil, Bool.and_true, place, looked]
  cases document.id? with
  | none => simp [expects]
  | some value => simp only [expects, decide_eq_true_eq, Value.equiv_str, Option.some.injEq]

/-- Every document passes the filter without expectations. -/
theorem Store.find_all (s : Store) (name : String) :
    s.find name [] = (.ok (s.collection name).documents, s) := by
  have every : (s.collection name).documents.filter (Filter.passes []) =
      (s.collection name).documents := List.filter_eq_self.mpr fun _ _ => rfl
  rw [find, every]

private theorem LedgerEntry.filterMap_recordedId? (entries : List LedgerEntry) :
    (entries.map (·.document)).filterMap recordedId? = entries.map (·.id) := by
  rw [List.filterMap_map]
  exact congrFun List.filterMap_eq_map entries

theorem LedgerEntry.recordedId?_of_ofDocument {document : Document} {entry : LedgerEntry}
    (read : ofDocument document = .ok entry) : recordedId? document = some entry.id := by
  unfold ofDocument at read
  split at read
  · contradiction
  · next id recorded =>
    split at read
    · contradiction
    · split at read
      · contradiction
      · cases read
        exact recorded

/-- What is read is the set of the identifiers that the documents record. -/
theorem LedgerEntry.ids_of_ofDocuments {documents : List Document} {entries : List LedgerEntry}
    (read : ofDocuments documents = .ok entries) :
    ids entries = IdSet.ofList (documents.filterMap recordedId?) := by
  unfold ofDocuments at read
  cases mapped : documents.mapM ofDocument with
  | error cause =>
    rw [mapped] at read
    contradiction
  | ok unsorted =>
    rw [mapped] at read
    cases read
    have recorded : documents.filterMap recordedId? = unsorted.map (·.id) := by
      have related := Except.mapM_eq_ok.mp mapped
      clear mapped
      induction related with
      | nil => rfl
      | cons first _ ih =>
        rw [List.filterMap_cons_some (recordedId?_of_ofDocument first), ih, List.map_cons]
    rw [recorded]
    refine IdSet.ofList_congr fun id => ?_
    simp only [List.mem_map, List.mem_mergeSort]

namespace Ledger

variable {ledger : Ledger} {s : Store}

def documents (ledger : Ledger) (s : Store) : List Document :=
  (s.collection ledger.collection).documents

/-- The identifiers that a ledger records. -/
def recorded (ledger : Ledger) (s : Store) : List String :=
  (ledger.documents s).filterMap LedgerEntry.recordedId?

/-- Whether the documents of a ledger are those of entries with identifiers of their own. -/
def Written (ledger : Ledger) (s : Store) : Prop :=
  ∃ entries : List LedgerEntry,
    ledger.documents s = entries.map (·.document) ∧ (entries.map (·.id)).Nodup

theorem recorded_eq {entries : List LedgerEntry}
    (documents : ledger.documents s = entries.map (·.document)) :
    ledger.recorded s = entries.map (·.id) := by
  rw [recorded, documents, LedgerEntry.filterMap_recordedId?]

theorem recorded_congr {t : Store} (same : ledger.documents t = ledger.documents s) :
    ledger.recorded t = ledger.recorded s := by
  rw [recorded, same, recorded]

/-- A script that spares the ledger leaves its documents as they are. -/
theorem documents_run {σ α : Type} (v : Service σ) {script : Script α}
    (spares : script.Spares ledger.collection) (x : σ) :
    ledger.documents (v.store (v.run script x).2) = ledger.documents (v.store x) := by
  rw [documents, Store.collection, (v.get?_run spares x).1, documents, Store.collection]

/-- It also leaves them until each of its calls. -/
theorem documents_log {σ α : Type} (v : Service σ) {script : Script α}
    (spares : script.Spares ledger.collection) (x : σ) :
    ∀ made ∈ v.log script x, ledger.documents (v.store made.1) = ledger.documents (v.store x) := by
  intro made member
  rw [documents, Store.collection, (v.get?_run spares x).2 made member, documents, Store.collection]

theorem Written.congr {t : Store} (written : ledger.Written s)
    (same : ledger.documents t = ledger.documents s) : ledger.Written t := by
  obtain ⟨entries, documents, nodup⟩ := written
  exact ⟨entries, same.trans documents, nodup⟩

/-- An identifier is taken in a ledger if it is recorded there. -/
theorem Written.hasId (written : ledger.Written s) (id : String) :
    (s.collection ledger.collection).hasId (.str id) = true ↔ id ∈ ledger.recorded s := by
  obtain ⟨entries, documents, -⟩ := written
  rw [recorded_eq documents, Collection.hasId, ← Ledger.documents, documents, List.any_map,
    List.any_eq_true, List.mem_map]
  refine exists_congr fun entry => and_congr_right fun _ => ?_
  exact decide_eq_true_iff.trans Value.str_equiv

private theorem passes_onId (id : String) (entry : LedgerEntry) :
    (Filter.onId (.str id)).passes entry.document = decide (entry.id = id) := by
  rw [Bool.eq_iff_iff, Filter.passes_onId, decide_eq_true_eq]
  show some (Value.str entry.id) = some (.str id) ↔ _
  rw [Option.some.injEq, Value.str.injEq]

/-- The documents of entries without that of an identifier. -/
theorem withoutFirst?_onId {entries : List LedgerEntry} (nodup : (entries.map (·.id)).Nodup)
    (id : String) :
    Collection.withoutFirst? (.onId (.str id)) (entries.map (·.document)) =
      if id ∈ entries.map (·.id) then some ((entries.filter (·.id ≠ id)).map (·.document))
      else none := by
  induction entries with
  | nil => rfl
  | cons entry rest ih =>
    rw [List.map_cons, List.nodup_cons] at nodup
    obtain ⟨fresh, others⟩ := nodup
    simp only [List.map_cons, Collection.withoutFirst?, passes_onId, ih others, List.mem_cons]
    by_cases here : entry.id = id
    · have stay : rest.filter (·.id ≠ id) = rest := by
        refine List.filter_eq_self.mpr fun other member => decide_eq_true fun same => ?_
        rw [here, ← same] at fresh
        exact fresh (List.mem_map_of_mem member)
      rw [List.filter_cons_of_neg (by simp [here]), stay]
      simp only [here, decide_true, ↓reduceIte, true_or]
    · rw [List.filter_cons_of_pos (by simp [here])]
      simp only [here, decide_false, Bool.false_eq_true, ↓reduceIte, eq_comm (a := id), false_or]
      split <;> rfl

private theorem Written.deleteFirst (written : ledger.Written s) (id : String) :
    ∃ found t, s.deleteFirst ledger.collection (.onId (.str id)) = (.ok found, t) ∧
      ledger.Written t ∧
      ∀ other, other ∈ ledger.recorded t ↔ other ∈ ledger.recorded s ∧ other ≠ id := by
  obtain ⟨entries, before, nodup⟩ := written
  have without := withoutFirst?_onId nodup id
  rw [← before] at without
  rw [recorded_eq before]
  obtain ⟨kept, same⟩ | ⟨left, gone, deleted⟩ :=
    s.deleteFirst_cases ledger.collection (.onId (.str id))
  · rw [documents, kept] at without
    split at without
    · contradiction
    · next absent =>
      refine ⟨_, _, same, ⟨entries, before, nodup⟩, fun other => ?_⟩
      rw [recorded_eq (s := s.counted) before]
      constructor
      · intro member
        refine ⟨member, ?_⟩
        rintro rfl
        exact absent member
      · exact And.left
  · rw [documents, gone] at without
    split at without
    · cases without
      have after : ledger.documents (s.counted.put ledger.collection
          { s.collection ledger.collection with
            documents := (entries.filter (·.id ≠ id)).map (·.document) }) =
          (entries.filter (·.id ≠ id)).map (·.document) := by
        rw [documents, Store.collection_put, if_pos rfl]
      refine ⟨_, _, deleted, ⟨_, after, nodup.sublist (List.filter_sublist.map _)⟩, fun other => ?_⟩
      rw [recorded_eq after]
      simp only [List.mem_map, List.mem_filter, decide_eq_true_eq]
      constructor
      · rintro ⟨entry, ⟨member, different⟩, rfl⟩
        exact ⟨⟨entry, member, rfl⟩, different⟩
      · rintro ⟨⟨entry, member, rfl⟩, different⟩
        exact ⟨entry, ⟨member, different⟩, rfl⟩
    · contradiction

/-- A store takes the document of an entry, or refuses it because something of it is taken. -/
theorem Written.perform_record (written : ledger.Written s) (entry : LedgerEntry) :
    (∃ t, s.perform (.insert ledger.collection entry.document) = (.ok (), t) ∧ ledger.Written t ∧
      ledger.recorded t = ledger.recorded s ++ [entry.id]) ∨
    ∃ key, s.perform (.insert ledger.collection entry.document) =
      (.error (.duplicateKey ledger.collection key), s.counted) := by
  have own : entry.document.id? = some (.str entry.id) := rfl
  rw [Store.perform, Store.insert_of_id? own]
  obtain ⟨-, refused⟩ | ⟨free, -, added⟩ := s.counted.add_cases ledger.collection
    (.str entry.id) entry.document
  · exact .inr refused
  · have fresh : entry.id ∉ ledger.recorded s := by
      rw [← written.hasId]
      exact Bool.eq_false_iff.mp free
    obtain ⟨entries, before, nodup⟩ := written
    let t := s.counted.put ledger.collection { s.collection ledger.collection with
      documents := (s.collection ledger.collection).documents ++ [entry.document] }
    have whole : ledger.documents t = (entries ++ [entry]).map (·.document) := by
      rw [documents, Store.collection_put, if_pos rfl, List.map_append, ← before]
      rfl
    rw [recorded_eq before] at fresh ⊢
    refine .inl ⟨t, added, ⟨_, whole, ?_⟩, ?_⟩
    · rw [List.map_append, List.map_singleton, ← List.concat_eq_append]
      exact nodup.concat fresh
    · rw [recorded_eq whole, List.map_append, List.map_singleton]

variable {σ : Type} (v : Service σ) {x : σ}

theorem entries_eq (ledger : Ledger) :
    ledger.entries = (do
      let documents ← Attempt.request .ledger (.find ledger.collection [])
      Attempt.ofResult ((LedgerEntry.ofDocuments documents).mapError .ledger)) := by
  refine bind_congr fun documents => ?_
  cases LedgerEntry.ofDocuments documents <;> rfl

/-- What is read of a ledger is what its documents give. -/
theorem run_entries_ok (ledger : Ledger) {entries : List LedgerEntry}
    (read : (v.run ledger.entries.run x).1 = .ok entries) :
    LedgerEntry.ofDocuments (ledger.documents (v.store x)) = .ok entries := by
  rw [entries_eq, v.run_attempt_bind, v.run_request] at read
  have honest := v.honest x (.find ledger.collection [])
  rw [Store.perform, Store.find_all] at honest
  obtain ⟨answer, -⟩ | ⟨⟨cause, answer⟩, -⟩ := honest
  · rw [answer] at read
    change (LedgerEntry.ofDocuments (ledger.documents (v.store x))).mapError _ = _ at read
    cases given : LedgerEntry.ofDocuments (ledger.documents (v.store x)) with
    | error cause =>
      rw [given] at read
      contradiction
    | ok entries =>
      rw [given] at read
      cases read
      rfl
  · rw [answer] at read
    contradiction

/-- Reading changes nothing, and what is read are the identifiers that are recorded. -/
theorem run_entries (ledger : Ledger) (x : σ) :
    v.store (v.run ledger.entries.run x).2 = v.store x ∧
      ∀ entries, (v.run ledger.entries.run x).1 = .ok entries →
        LedgerEntry.ids entries = IdSet.ofList (ledger.recorded (v.store x)) := by
  refine ⟨?_, fun entries read => LedgerEntry.ids_of_ofDocuments (run_entries_ok v ledger read)⟩
  rw [entries_eq, v.run_attempt_bind, v.run_request]
  have honest := v.honest x (.find ledger.collection [])
  rw [Store.perform, Store.find_all] at honest
  obtain ⟨answer, same⟩ | ⟨⟨cause, answer⟩, same⟩ := honest
  · rw [answer]
    exact same
  · rw [answer]
    exact same

theorem log_entries (ledger : Ledger) (x : σ) :
    v.log ledger.entries.run x = [(x, .find ledger.collection [])] := by
  rw [entries_eq, v.log_attempt_bind, v.log_request, v.run_request]
  obtain ⟨answer, y⟩ := v.perform x (.find ledger.collection [])
  cases answer with
  | error cause => rfl
  | ok documents => rfl

/-- An attempt that begins with reading a ledger goes on with what is read. -/
theorem run_entries_bind {α : Type} (ledger : Ledger)
    (f : List LedgerEntry → Attempt MigrationError α) :
    (ledger.entries >>= f).run = .call (.find ledger.collection []) fun
      | .error cause => .done (.error (.ledger cause))
      | .ok documents =>
        match LedgerEntry.ofDocuments documents with
        | .error cause => .done (.error (.ledger cause))
        | .ok entries => (f entries).run := by
  rw [entries_eq, bind_assoc, ExceptT.run_bind]
  refine congrArg (Script.call _) (funext fun answer => ?_)
  cases answer with
  | error cause => rfl
  | ok documents =>
    change (Attempt.ofResult _ >>= f).run = _
    dsimp only
    cases LedgerEntry.ofDocuments documents with
    | error cause => rfl
    | ok entries => rfl

/-- Why a write to a ledger can fail. -/
def Refusal (id : String) (error : MigrationError) : Prop :=
  error = .duplicateApply id ∨ ∃ cause, error = .ledger cause

private theorem refusal_refusal (id : String) (cause : StoreError) :
    Refusal id (refusal id cause) := by
  cases cause with
  | duplicateKey _ _ => exact .inl rfl
  | _ => exact .inr ⟨_, rfl⟩

/-- Recording adds the identifier, or fails and changes nothing. -/
theorem run_record (written : ledger.Written (v.store x)) (entry : LedgerEntry) :
    ((v.run (ledger.record entry).run x).1 = .ok () ∧
      ledger.Written (v.store (v.run (ledger.record entry).run x).2) ∧
      ledger.recorded (v.store (v.run (ledger.record entry).run x).2) =
        ledger.recorded (v.store x) ++ [entry.id]) ∨
    ∃ error, (v.run (ledger.record entry).run x).1 = .error error ∧ Refusal entry.id error ∧
      ledger.documents (v.store (v.run (ledger.record entry).run x).2) =
        ledger.documents (v.store x) := by
  rw [record, v.run_request]
  have honest := v.honest x (.insert ledger.collection entry.document)
  generalize v.perform x (.insert ledger.collection entry.document) = performed at honest ⊢
  obtain ⟨answer, y⟩ := performed
  dsimp only at honest ⊢
  obtain ⟨rfl, after⟩ | ⟨⟨cause, rfl⟩, after⟩ := honest
  · obtain ⟨t, added, still, recorded⟩ | ⟨key, refused⟩ := written.perform_record entry
    · rw [added] at after ⊢
      exact .inl ⟨rfl, after ▸ still, after ▸ recorded⟩
    · rw [refused] at after ⊢
      refine .inr ⟨_, rfl, .inl rfl, ?_⟩
      rw [after]
      rfl
  · exact .inr ⟨_, rfl, refusal_refusal _ cause, congrArg ledger.documents after⟩

/-- Erasing leaves the other identifiers, or fails and changes nothing. -/
theorem run_erase (written : ledger.Written (v.store x)) (id : String) :
    ((v.run (ledger.erase id).run x).1 = .ok () ∧
      ledger.Written (v.store (v.run (ledger.erase id).run x).2) ∧
      ∀ other, other ∈ ledger.recorded (v.store (v.run (ledger.erase id).run x).2) ↔
        other ∈ ledger.recorded (v.store x) ∧ other ≠ id) ∨
    ∃ error, (v.run (ledger.erase id).run x).1 = .error error ∧ Refusal id error ∧
      ledger.documents (v.store (v.run (ledger.erase id).run x).2) =
        ledger.documents (v.store x) := by
  rw [erase, v.run_attempt_bind, v.run_request]
  have honest := v.honest x (.deleteFirst ledger.collection (.onId (.str id)))
  generalize v.perform x (.deleteFirst ledger.collection (.onId (.str id))) = performed at honest ⊢
  obtain ⟨answer, y⟩ := performed
  simp only [Store.perform] at honest
  obtain ⟨rfl, after⟩ | ⟨⟨cause, rfl⟩, after⟩ := honest
  · obtain ⟨found, t, deleted, still, left⟩ := written.deleteFirst id
    rw [deleted] at after ⊢
    exact .inl ⟨rfl, after ▸ still, after ▸ left⟩
  · exact .inr ⟨_, rfl, .inr ⟨cause, rfl⟩, congrArg ledger.documents after⟩

end Ledger

end Stepwise
