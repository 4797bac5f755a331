import Stepwise.Proofs.Ledger.Entries
import Stepwise.Proofs.Ledger.Key

/-!
# The ledger as a map

A ledger that nothing else writes to is a finite map from identifiers to instants and batches, kept
as documents in the order in which they were recorded. `Ledger.Represents` relates the documents to
the map. It is preserved by everything that can be asked of a ledger, and every answer is that of
the map (`Ledger.Represents.ask`). So are the answers to any sequence of requests, and no other
collection changes (`Ledger.refines_map`).
-/

namespace Stepwise

/-- Whether an entry is read back from its document: its year has four digits, and its batch fits 64
bits with a sign. -/
def LedgerEntry.IsStorable (entry : LedgerEntry) : Prop :=
  entry.appliedAt.IsLegible ∧ -0x8000000000000000 ≤ entry.batch ∧ entry.batch < 0x8000000000000000

instance (entry : LedgerEntry) : Decidable entry.IsStorable :=
  inferInstanceAs (Decidable (_ ∧ _ ∧ _))

private theorem LedgerEntry.IsStorable.ofDocument {entry : LedgerEntry}
    (storable : entry.IsStorable) :
    LedgerEntry.ofDocument entry.document = .ok entry :=
  ofDocument_document storable.1 storable.2.1 storable.2.2

private theorem LedgerEntry.latestBatch_eq (entries : List LedgerEntry) :
    latestBatch entries = ((entries.map (·.batch)).max?).getD 0 := by
  cases entries with
  | nil => rfl
  | cons first rest => rw [List.map_cons, List.max?_cons', List.foldl_map]; rfl

namespace Ledger

/-- What can be asked of a ledger. -/
inductive Request where
  | record (entry : LedgerEntry)
  | erase (id : String)
  | entries
  | ids
  | latestBatch
deriving DecidableEq, Repr

/-- Whether what a request records is read back. -/
def Request.IsStorable : Request → Prop
  | .record entry => entry.IsStorable
  | _ => True

instance : (request : Request) → Decidable request.IsStorable
  | .record entry => inferInstanceAs (Decidable entry.IsStorable)
  | .erase _ | .entries | .ids | .latestBatch => .isTrue trivial

inductive Answer where
  | done
  | entries (entries : List LedgerEntry)
  | ids (ids : IdSet)
  | latestBatch (batch : Int)
deriving DecidableEq

def ask (ledger : Ledger) : Request → Attempt MigrationError Answer
  | .record entry => do
    ledger.record entry
    return .done
  | .erase id => do
    ledger.erase id
    return .done
  | .entries => return .entries (← ledger.entries)
  | .ids => return .ids (← ledger.ids)
  | .latestBatch => return .latestBatch (← ledger.latestBatch)

/-- A map from identifiers to instants and batches. -/
abbrev Contents := SortedMap (Instant × Int)

namespace Contents

/-- The entries of a map, strictly ascending by identifier. -/
def list (m : Contents) : List LedgerEntry :=
  m.entries.map fun (id, appliedAt, batch) => ⟨id, appliedAt, batch⟩

/-- What a map answers: recording adds an entry unless there is one, and erasing removes it. -/
def ask : Request → StateM Contents (Except MigrationError Answer)
  | .record entry => fun m =>
    if m.contains entry.id then (.error (.duplicateApply entry.id), m)
    else (.ok .done, m.insert entry.id (entry.appliedAt, entry.batch))
  | .erase id => fun m => (.ok .done, m.erase id)
  | .entries => fun m => (.ok (.entries m.list), m)
  | .ids => fun m => (.ok (.ids (IdSet.ofList m.names)), m)
  | .latestBatch => fun m => (.ok (.latestBatch ((m.list.map (·.batch)).max?.getD 0)), m)

variable (m : Contents)

private theorem ids_list : m.list.map (·.id) = m.names := by
  rw [list, List.map_map]
  rfl

private theorem nodup_ids {m : Contents} {entries : List LedgerEntry} (perm : entries.Perm m.list) :
    (entries.map (·.id)).Nodup := by
  rw [(perm.map _).nodup_iff, ids_list]
  exact m.ascending_names.nodup

private theorem ascending_list : m.list.Pairwise fun a b => a.id < b.id := by
  have ascending := m.ascending_names
  rwa [← ids_list, List.pairwise_map] at ascending

private theorem list_insert_perm {m : Contents} {entry : LedgerEntry}
    (absent : m.get? entry.id = none) :
    (list (m.insert entry.id (entry.appliedAt, entry.batch))).Perm (entry :: m.list) :=
  (NamedList.put_perm _ absent).map _

private theorem list_erase (id : String) : list (m.erase id) = m.list.filter (·.id ≠ id) := by
  rw [list, list, List.filter_map]
  rfl

end Contents

/-- Whether the documents of a ledger are those of the entries of a map, in some order, all of which
can be read back. -/
structure Represents (ledger : Ledger) (s : Store) (m : Contents) : Prop where
  documents : ∃ entries : List LedgerEntry,
    ledger.documents s = entries.map (·.document) ∧ entries.Perm m.list
  indexes : (s.collection ledger.collection).indexes = []
  storable : ∀ entry ∈ m.list, entry.IsStorable

namespace Represents

variable {ledger : Ledger} {s : Store} {m : Contents}

theorem of_empty (absent : s.collection ledger.collection = {}) : ledger.Represents s ∅ where
  documents := ⟨[], by rw [Ledger.documents, absent]; rfl, .rfl⟩
  indexes := by rw [absent]
  storable := fun _ => nofun

theorem congr {t : Store} (represents : ledger.Represents s m)
    (same : t.collection ledger.collection = s.collection ledger.collection) :
    ledger.Represents t m where
  documents := by
    rw [Ledger.documents, same]
    exact represents.documents
  indexes := same ▸ represents.indexes
  storable := represents.storable

theorem written (represents : ledger.Represents s m) : ledger.Written s := by
  obtain ⟨entries, documents, perm⟩ := represents.documents
  exact ⟨entries, documents, Contents.nodup_ids perm⟩

private theorem hasId (represents : ledger.Represents s m) (id : String) :
    (s.collection ledger.collection).hasId (.str id) = m.contains id := by
  obtain ⟨entries, documents, perm⟩ := represents.documents
  rw [Bool.eq_iff_iff, represents.written.hasId, recorded_eq documents, (perm.map _).mem_iff,
    Contents.ids_list, SortedMap.mem_names]

/-- The documents are read as the entries of the map, in the order of their identifiers. -/
theorem ofDocuments (represents : ledger.Represents s m) :
    LedgerEntry.ofDocuments (ledger.documents s) = .ok m.list := by
  obtain ⟨entries, documents, perm⟩ := represents.documents
  have mapped : (entries.map (·.document)).mapM LedgerEntry.ofDocument = .ok entries := by
    rw [Except.mapM_eq_ok, List.forall₂_map_left_iff, List.forall₂_same]
    exact fun entry member => (represents.storable entry (perm.subset member)).ofDocument
  -- As no identifier repeats, there is only one way to sort the entries by them.
  have sorted : entries.mergeSort (fun a b => a.id ≤ b.id) = m.list := by
    have perm := (List.mergeSort_perm entries fun a b => a.id ≤ b.id).trans perm
    refine List.Perm.eq_of_pairwise (fun a b first second up down => ?_)
      (List.pairwise_mergeSort (fun a b c => ?_) (fun a b => ?_) entries)
      (m.ascending_list.imp fun less => decide_eq_true (Std.le_of_lt less)) perm
    · rw [decide_eq_true_eq] at up down
      exact List.inj_on_of_nodup_map (Contents.nodup_ids .rfl) (perm.subset first) second
        (String.le_antisymm up down)
    · simp only [decide_eq_true_eq]
      exact String.le_trans
    · rw [Bool.or_eq_true, decide_eq_true_eq, decide_eq_true_eq]
      exact String.le_total a.id b.id
  rw [LedgerEntry.ofDocuments, documents, mapped]
  exact congrArg Except.ok sorted

/-- What reading gives. -/
theorem run_entries (represents : ledger.Represents s m) :
    ledger.entries.run.run s = (.ok m.list, s) := by
  rw [run_entries_plain, represents.ofDocuments]
  rfl

/-- A write that leaves the documents of other entries, and the indexes as they were. -/
theorem put (represents : ledger.Represents s m) {left : Contents} {entries : List LedgerEntry}
    (perm : entries.Perm left.list) (storable : ∀ entry ∈ left.list, entry.IsStorable) :
    ledger.Represents (s.counted.put ledger.collection { s.collection ledger.collection with
      documents := entries.map (·.document) }) left where
  documents := ⟨entries, by rw [Ledger.documents, Store.collection_put, if_pos rfl], perm⟩
  indexes := by
    rw [Store.collection_put, if_pos rfl]
    exact represents.indexes
  storable := storable

/-- Recording adds the entry to the map unless there is one of its identifier. -/
theorem run_record (represents : ledger.Represents s m) {entry : LedgerEntry}
    (storable : entry.IsStorable) :
    (m.contains entry.id = true ∧
      ((ledger.record entry).run.run s).1 = .error (.duplicateApply entry.id) ∧
      ledger.Represents ((ledger.record entry).run.run s).2 m) ∨
    (m.contains entry.id = false ∧ ((ledger.record entry).run.run s).1 = .ok () ∧
      ledger.Represents ((ledger.record entry).run.run s).2
        (m.insert entry.id (entry.appliedAt, entry.batch))) := by
  have own : entry.document.id? = some (.str entry.id) := rfl
  rw [← Service.run_plain, record, Service.run_request, Service.perform_plain, Store.perform,
    Store.insert_of_id? own]
  obtain ⟨taken, key, refused⟩ | ⟨free, -, added⟩ :=
    s.counted.add_cases ledger.collection (.str entry.id) entry.document
  · -- Without indexes, it can only be the identifier that is taken.
    have allowed : (s.counted.collection ledger.collection).violated? entry.document = none := by
      have none : (s.counted.collection ledger.collection).indexes = [] := represents.indexes
      rw [Collection.violated?, none]
      rfl
    have taken := taken.resolve_right (· allowed)
    rw [refused]
    exact .inl ⟨(represents.hasId _).symm.trans taken, rfl, represents.congr rfl⟩
  · have absent : m.contains entry.id = false := (represents.hasId _).symm.trans free
    have fresh : m.get? entry.id = none :=
      Option.not_isSome_iff_eq_none.mp (Bool.eq_false_iff.mp absent)
    have inserted := Contents.list_insert_perm fresh
    obtain ⟨entries, documents, perm⟩ := represents.documents
    have whole : (s.collection ledger.collection).documents ++ [entry.document] =
        (entries ++ [entry]).map (·.document) := by
      rw [List.map_append, ← documents]
      rfl
    have perm : (entries ++ [entry]).Perm
        (Contents.list (m.insert entry.id (entry.appliedAt, entry.batch))) :=
      ((List.perm_append_singleton ..).trans (perm.cons entry)).trans inserted.symm
    have after := represents.put perm fun other member => by
      obtain rfl | before := List.mem_cons.mp (inserted.subset member)
      · exact storable
      · exact represents.storable other before
    rw [← whole] at after
    rw [added]
    exact .inr ⟨absent, rfl, after⟩

/-- Erasing removes the entry from the map. -/
theorem run_erase (represents : ledger.Represents s m) (id : String) :
    ((ledger.erase id).run.run s).1 = .ok () ∧
      ledger.Represents ((ledger.erase id).run.run s).2 (m.erase id) := by
  refine ⟨(run_erase_plain ledger id s).1, ?_⟩
  obtain ⟨entries, documents, perm⟩ := represents.documents
  have without := withoutFirst?_onId (Contents.nodup_ids perm) id
  have left : (entries.filter (·.id ≠ id)).Perm (Contents.list (m.erase id)) := by
    rw [Contents.list_erase]
    exact perm.filter _
  have storable : ∀ entry ∈ Contents.list (m.erase id), entry.IsStorable := by
    intro entry member
    rw [Contents.list_erase] at member
    exact represents.storable entry (List.mem_of_mem_filter member)
  rw [← documents, Ledger.documents] at without
  rw [← Service.run_plain, erase, Service.run_attempt_bind, Service.run_request,
    Service.perform_plain, Store.perform]
  obtain ⟨kept, same⟩ | ⟨rest, gone, deleted⟩ :=
    s.deleteFirst_cases ledger.collection (.onId (.str id))
  · rw [kept] at without
    split at without
    · contradiction
    · next absent =>
      have all : entries.filter (·.id ≠ id) = entries := by
        refine List.filter_eq_self.mpr fun entry member => decide_eq_true ?_
        rintro rfl
        exact absent (List.mem_map_of_mem member)
      rw [same]
      exact ⟨⟨entries, documents, all ▸ left⟩, represents.indexes, storable⟩
  · rw [gone] at without
    split at without
    · cases without
      rw [deleted]
      exact represents.put left storable
    · contradiction

/-- A ledger that represents a map answers what the map does, and represents what is left of it. -/
theorem ask (represents : ledger.Represents s m) {request : Request}
    (storable : request.IsStorable) :
    ((ledger.ask request).run.run s).1 = ((Contents.ask request).run m).1 ∧
      ledger.Represents ((ledger.ask request).run.run s).2 ((Contents.ask request).run m).2 := by
  rw [← Service.run_plain]
  cases request with
  | record entry =>
    have recorded := represents.run_record storable
    rw [Ledger.ask, Service.run_attempt_bind, Service.run_plain]
    generalize (ledger.record entry).run.run s = ran at recorded
    obtain ⟨result, t⟩ := ran
    obtain ⟨taken, rfl, after⟩ | ⟨free, rfl, after⟩ := recorded
    · have answer : (Contents.ask (.record entry)).run m = (.error (.duplicateApply entry.id), m) :=
        if_pos taken
      rw [answer]
      exact ⟨rfl, after⟩
    · have answer : (Contents.ask (.record entry)).run m =
          (.ok .done, m.insert entry.id (entry.appliedAt, entry.batch)) :=
        if_neg (Bool.eq_false_iff.mp free)
      rw [answer]
      exact ⟨rfl, after⟩
  | erase id =>
    have erased := represents.run_erase id
    rw [Ledger.ask, Service.run_attempt_bind, Service.run_plain]
    generalize (ledger.erase id).run.run s = ran at erased
    obtain ⟨result, t⟩ := ran
    obtain ⟨rfl, after⟩ := erased
    exact ⟨rfl, after⟩
  | entries =>
    rw [Ledger.ask, Service.run_attempt_bind, Service.run_plain, represents.run_entries]
    exact ⟨rfl, represents⟩
  | ids =>
    have ids : LedgerEntry.ids m.list = IdSet.ofList m.names := by
      rw [LedgerEntry.ids, Contents.ids_list]
    rw [Ledger.ask, Ledger.ids, Service.run_attempt_bind, Service.run_attempt_bind,
      Service.run_plain, represents.run_entries]
    exact ⟨congrArg (Except.ok ∘ Answer.ids) ids, represents⟩
  | latestBatch =>
    have greatest := LedgerEntry.latestBatch_eq m.list
    rw [Ledger.ask, Ledger.latestBatch, Service.run_attempt_bind, Service.run_attempt_bind,
      Service.run_plain, represents.run_entries]
    exact ⟨congrArg (Except.ok ∘ Answer.latestBatch) greatest, represents⟩

end Represents

variable (ledger : Ledger)

def askAll (requests : List Request) : Script (List (Except MigrationError Answer)) :=
  requests.mapM fun request => (ledger.ask request).run

variable {ledger} {s : Store} {m : Contents}

/-- Whatever is asked, other collections are left alone. -/
theorem spares_ask {name : String} (other : name ≠ ledger.collection) (request : Request) :
    (ledger.ask request).run.Spares name := by
  have own : Migrator.LedgerCalls ledger fun c => c.isWrite = true → c.collection ≠ name :=
    ⟨nofun, fun _ _ => other.symm, fun _ _ => other.symm⟩
  have read := Migrator.calls_entries own
  cases request with
  | record entry =>
    exact Attempt.calls_bind (Attempt.calls_request (own.record _)) fun _ => trivial
  | erase id =>
    have erase : (ledger.erase id).run.Spares name :=
      Attempt.calls_bind (Attempt.calls_request (own.erase _)) fun _ => trivial
    exact Attempt.calls_bind erase fun _ => trivial
  | entries => exact Attempt.calls_bind read fun _ => trivial
  | ids => exact Attempt.calls_bind (Attempt.calls_bind read fun _ => trivial) fun _ => trivial
  | latestBatch =>
    exact Attempt.calls_bind (Attempt.calls_bind read fun _ => trivial) fun _ => trivial

/-- Asked one thing after the other, a ledger answers what the map does that it represents. -/
theorem Represents.askAll (represents : ledger.Represents s m) {requests : List Request}
    (storable : ∀ request ∈ requests, request.IsStorable) :
    ((ledger.askAll requests).run s).1 = ((requests.mapM Contents.ask).run m).1 ∧
      ledger.Represents ((ledger.askAll requests).run s).2
        ((requests.mapM Contents.ask).run m).2 ∧
      ∀ name, name ≠ ledger.collection →
        ((ledger.askAll requests).run s).2.collections.get? name = s.collections.get? name := by
  induction requests generalizing s m with
  | nil => exact ⟨rfl, represents, fun _ _ => rfl⟩
  | cons request rest ih =>
    obtain ⟨here, others⟩ := List.forall_mem_cons.mp storable
    obtain ⟨answer, after⟩ := represents.ask here
    obtain ⟨answers, last, kept⟩ := ih after others
    have run : (ledger.askAll (request :: rest)).run s =
        let asked := (ledger.ask request).run.run s
        let later := (ledger.askAll rest).run asked.2
        (asked.1 :: later.1, later.2) := by
      rw [Ledger.askAll, List.mapM_cons, ← Service.run_plain, Service.run_bind, Service.run_bind]
      rfl
    have map : ((request :: rest).mapM Contents.ask).run m =
        let asked := (Contents.ask request).run m
        let later := (rest.mapM Contents.ask).run asked.2
        (asked.1 :: later.1, later.2) := by
      rw [List.mapM_cons]
      rfl
    rw [run, map]
    refine ⟨congrArg₂ List.cons answer answers, last, fun name other => ?_⟩
    have here := (Service.plain.get?_run (spares_ask other request) s).1
    exact (kept name other).trans here

/-- A ledger whose collection does not exist, in any store, answers to whatever is recorded, erased
and read, one after the other, what a map does that is empty at first: recording adds an entry
unless there is one of its identifier, and then fails and changes nothing; erasing removes it, also
if there is none; reading gives all entries strictly ascending by identifier, the identifiers, or
the greatest batch, zero if there is none. No other collection changes. -/
theorem refines_map (absent : s.collection ledger.collection = {}) (requests : List Request)
    (storable : ∀ request ∈ requests, request.IsStorable) :
    ((ledger.askAll requests).run s).1 = ((requests.mapM Contents.ask).run ∅).1 ∧
      ∀ name, name ≠ ledger.collection →
        ((ledger.askAll requests).run s).2.collections.get? name = s.collections.get? name := by
  obtain ⟨answers, -, kept⟩ := (Represents.of_empty absent).askAll storable
  exact ⟨answers, kept⟩

/-- The second entry comes first when the entries are read, and the third is refused. -/
theorem refines_map_beside :
    let s := Store.after [.insert "orders" [("_id", .str "users")]]
    let users : LedgerEntry := ⟨"users", ⟨⟨2025, 1, 3⟩, 8, 0, 0, 0⟩, -1⟩
    let accent : LedgerEntry := ⟨"\"é\"", ⟨⟨0, 2, 29⟩, 23, 59, 60, 5⟩, -2⟩
    let requests : List Request := [.latestBatch, .record users, .record accent,
      .record { users with batch := 9 }, .entries, .latestBatch, .erase "users", .erase "users",
      .ids]
    ((Migrator.two.ledger.askAll requests).run s).1 = [.ok (.latestBatch 0), .ok .done, .ok .done,
        .error (.duplicateApply "users"), .ok (.entries [accent, users]), .ok (.latestBatch (-1)),
        .ok .done, .ok .done, .ok (.ids (IdSet.ofList ["\"é\""]))] ∧
      ((Migrator.two.ledger.askAll requests).run s).2.collections.get? "orders" =
        s.collections.get? "orders" := by
  intro s users accent requests
  have absent : s.collection Migrator.two.ledger.collection = {} := by decide +kernel
  have storable : ∀ request ∈ requests, request.IsStorable := by decide +kernel
  obtain ⟨answers, kept⟩ := refines_map absent requests storable
  rw [answers]
  exact ⟨by decide +kernel, kept "orders" (by decide)⟩

end Ledger

end Stepwise
