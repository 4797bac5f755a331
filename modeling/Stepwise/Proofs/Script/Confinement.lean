import Stepwise.Config
import Stepwise.Proofs.Script.Operations
import Stepwise.Proofs.Store.Service

/-!
# What a declared migration can reach

A body that is made of operations reaches the collections that these name, and no others: it leaves
the others alone under every schedule of faults (`Definition.get?_run_of_not_names`), and stores
that differ only there run it alike (`Definition.agree_run`). So one that names neither the ledger
nor the lock has nothing to do with them (`Definition.confined`).
-/

namespace Stepwise

namespace Definition

/-- Whether an operation that runs in the direction names the collection. -/
def Names (d : Definition) (direction : Direction) (name : String) : Prop :=
  ∃ operation ∈ d.operations direction, operation.collection = name

instance (d : Definition) (direction : Direction) (name : String) :
    Decidable (d.Names direction name) :=
  inferInstanceAs (Decidable (∃ operation ∈ d.operations direction, _))

/-- Whether the documents that operations insert in the direction have identifying values of their
own. -/
def Identified (d : Definition) (direction : Direction) : Prop :=
  ∀ operation ∈ d.operations direction, ∀ document ∈ operation.inserted,
    document.id?.isSome = true

instance (d : Definition) (direction : Direction) : Decidable (d.Identified direction) :=
  inferInstanceAs (Decidable (∀ operation ∈ d.operations direction, _))

variable {d : Definition} {direction : Direction} {name : String}

theorem spares_of_not_names (unnamed : ¬ d.Names direction name) :
    (d.toMigration.body direction).run.Spares name := by
  refine calls_operations fun operation member c allowed _ => ?_
  rw [allowed.named]
  intro same
  exact unnamed ⟨operation, member, same⟩

/-- A collection that is not named stays as it is, however the body ends and whichever of its calls
fail. -/
theorem get?_run_of_not_names {σ : Type} (v : Service σ) (x : σ)
    (unnamed : ¬ d.Names direction name) :
    (v.store (v.run (d.toMigration.body direction).run x).2).collections.get? name =
      (v.store x).collections.get? name :=
  (v.get?_run (spares_of_not_names unnamed) x).1

private theorem identified_body (identified : d.Identified direction) :
    (d.toMigration.body direction).run.Identified := by
  refine calls_operations fun operation member c allowed => ?_
  cases c with
  | insert collection document =>
    exact identified operation member document (allowed.inserted collection document rfl)
  | _ => trivial

/-- Stores with the same collections under the names give the body the same result, and have the
same collections there afterwards. -/
theorem agree_run (identified : d.Identified direction) {s t : Store}
    (same : ∀ name, d.Names direction name → s.collections.get? name = t.collections.get? name) :
    ((d.toMigration.body direction).run.run s).1 = ((d.toMigration.body direction).run.run t).1 ∧
      ∀ name, d.Names direction name →
        ((d.toMigration.body direction).run.run s).2.collections.get? name =
          ((d.toMigration.body direction).run.run t).2.collections.get? name := by
  have within : (d.toMigration.body direction).run.Calls (·.Within (d.Names direction)) :=
    calls_body fun operation member => ⟨operation, member, rfl⟩
  have calls := (within.and (identified_body identified)).mono fun c kind =>
    (⟨kind.1, .inr kind.2⟩ : c.Within (d.Names direction) ∧ (False ∨ c.Identified))
  obtain ⟨results, agree⟩ := calls.agree_run ⟨same, False.elim⟩
  exact ⟨results, agree.get?⟩

/-- The body of a declared migration leaves every collection that it does not name as it is, with
its documents and indexes, or missing, whether the body succeeds or fails. Neither its result nor
what becomes of the collections that it names depends on the others. A body that names neither the
ledger nor the lock changes neither of them, and two stores that differ in nothing else run it with
the same result and differ in nothing else afterwards. -/
theorem confined (d : Definition) (direction : Direction) :
    let body := (d.toMigration.body direction).run
    (∀ s name, ¬ d.Names direction name →
      (body.run s).2.collections.get? name = s.collections.get? name) ∧
    (d.Identified direction → ∀ s t : Store,
      (∀ name, d.Names direction name → s.collections.get? name = t.collections.get? name) →
      (body.run s).1 = (body.run t).1 ∧ ∀ name, d.Names direction name →
        (body.run s).2.collections.get? name = (body.run t).2.collections.get? name) ∧
    ∀ config : Config, ¬ d.Names direction config.ledgerCollection →
      ¬ d.Names direction config.lockCollection →
      let aside (name : String) := name = config.ledgerCollection ∨ name = config.lockCollection
      (∀ s name, aside name → (body.run s).2.collections.get? name = s.collections.get? name) ∧
      (d.Identified direction → ∀ s t : Store,
        (∀ name, ¬ aside name → s.collections.get? name = t.collections.get? name) →
        (body.run s).1 = (body.run t).1 ∧ ∀ name, ¬ aside name →
          (body.run s).2.collections.get? name = (body.run t).2.collections.get? name) := by
  intro body
  have untouched (s : Store) (name : String) (unnamed : ¬ d.Names direction name) :
      (body.run s).2.collections.get? name = s.collections.get? name :=
    get?_run_of_not_names Service.plain s unnamed
  refine ⟨untouched, fun identified s t => agree_run identified, ?_⟩
  intro config ledger lock aside
  have unnamed (name : String) (beside : aside name) : ¬ d.Names direction name := by
    rcases beside with rfl | rfl
    · exact ledger
    · exact lock
  refine ⟨fun s name beside => untouched s name (unnamed name beside), ?_⟩
  intro identified s t same
  obtain ⟨results, agree⟩ := agree_run (s := s) (t := t) identified fun name named =>
    same name fun beside => unnamed name beside named
  refine ⟨results, fun name among => ?_⟩
  by_cases named : d.Names direction name
  · exact agree name named
  · rw [untouched s name named, untouched t name named]
    exact same name among

/-- The body fails at the last of its documents, whatever stands in the ledger, the lock and an
archive that it does not name, and leaves all three as they are. -/
theorem confined_midway :
    let document (id : String) : Document := [("_id", .str id)]
    let d : Definition :=
      { id := "20250101-users"
        up := [.createCollection "orders",
          .insertDocuments "users" [document "a", document "b", document "a"],
          .dropCollection "orders"] }
    let body := (d.toMigration.body .up).run
    let config : Config := {}
    let bare := Store.after [.insert "archive" (document "a")]
    let kept := (bare.put config.ledgerCollection { documents := [document "20250101-users"] }).put
      config.lockCollection {}
    (body.run bare).1 = .error (.duplicateKey "users" "\"a\"") ∧
      (body.run kept).1 = (body.run bare).1 ∧
      (body.run kept).2.collections.get? "users" = (body.run bare).2.collections.get? "users" ∧
      (body.run kept).2.collections.get? "archive" = kept.collections.get? "archive" ∧
      (body.run kept).2.collections.get? config.ledgerCollection =
        kept.collections.get? config.ledgerCollection ∧
      (body.run {}).1 = (body.run bare).1 := by
  intro document d body config bare kept
  obtain ⟨untouched, agree, apart⟩ := d.confined .up
  obtain ⟨spared, unseen⟩ := apart config (by decide) (by decide)
  have identified : d.Identified .up := by decide
  have beside (name : String)
      (other : ¬ (name = config.ledgerCollection ∨ name = config.lockCollection)) :
      kept.collections.get? name = bare.collections.get? name := by
    rw [not_or] at other
    rw [Store.get?_put, if_neg (Ne.symm other.2), Store.get?_put, if_neg (Ne.symm other.1)]
  have empty (name : String) (named : d.Names .up name) :
      (∅ : SortedMap Collection).get? name = bare.collections.get? name := by
    obtain ⟨operation, member, rfl⟩ := named
    revert operation
    decide
  obtain ⟨result, afterwards⟩ := unseen identified kept bare beside
  have failed : (body.run bare).1 = .error (.duplicateKey "users" "\"a\"") := by decide
  have users := afterwards "users" (by decide)
  have archive := untouched kept "archive" (by decide)
  have ledger := spared kept config.ledgerCollection (.inl rfl)
  have alike := (agree identified {} bare empty).1
  exact ⟨failed, result, users, archive, ledger, alike⟩

end Definition

end Stepwise
