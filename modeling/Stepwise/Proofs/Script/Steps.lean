import Stepwise.Proofs.Script.Operations
import Stepwise.Proofs.Store.Refusal
import Stepwise.Proofs.Store.Service

/-!
# The steps of operations

An operation goes through atomic steps: inserting documents takes one for each of them, and an
update that neither sets nor unsets anything is a step that always fails. The body of a declared
migration is the sequence of the steps of its operations (`Operation.bodyAll_eq`), so it leaves what
the steps before its first failure have made, and nothing of the failing one
(`Definition.completed_steps`).
-/

namespace Stepwise

namespace Operation

/-- An atomic part of an operation. -/
inductive Step where
  | call (c : Call)
  /-- A failure without a call. -/
  | refuse (reason : StoreError)
deriving DecidableEq, Repr

namespace Step

/-- What a step answers and leaves. -/
def take (s : Store) : Step → Store.Outcome Unit
  | .call c => ((s.perform c).1.map fun _ => (), (s.perform c).2)
  | .refuse reason => (.error reason, s)

/-- The script of one step. -/
def body : Step → Body
  | .call c => attempt c
  | .refuse reason => throw reason

/-- The script of steps, one after the other, until one fails. -/
def sequence : List Step → Body
  | [] => return ()
  | step :: rest => do
    step.body
    sequence rest

/-- Whether steps succeed one after the other, from one store to another. -/
inductive Complete : Store → List Step → Store → Prop
  | nil {s : Store} : Complete s [] s
  | cons {s middle after : Store} {step : Step} {rest : List Step} :
      step.take s = (.ok (), middle) → Complete middle rest after → Complete s (step :: rest) after

end Step

/-- The steps of an operation, in order. -/
def steps : Operation → List Step
  | .createCollection name => [.call (.createCollection name)]
  | .dropCollection name => [.call (.dropCollection name)]
  | .createIndex name index => [.call (.createIndex name index)]
  | .dropIndex name index => [.call (.dropIndex name index)]
  | .insertDocuments name documents => documents.map fun document => .call (.insert name document)
  | .updateDocuments name filter update =>
    if update.isEmpty then
      [.refuse (.invalidDocument ("update on '" ++ name ++ "' sets and unsets nothing"))]
    else [.call (.update name filter update)]
  | .deleteDocuments name filter => [.call (.delete name filter)]

namespace Step

theorem run_body (step : Step) (s : Store) : step.body.run.run s = step.take s := by
  cases step with
  | call c =>
    rw [body, attempt, ← Service.run_plain, Service.run_attempt_bind, Service.run_request,
      Service.perform_plain, take]
    cases (s.perform c).1 <;> rfl
  | refuse reason => rfl

private theorem sequence_singleton (step : Step) : sequence [step] = step.body := by
  simp [sequence]

theorem sequence_append (first rest : List Step) :
    sequence (first ++ rest) = (do sequence first; sequence rest) := by
  induction first with
  | nil => simp [sequence]
  | cons step first ih => simp [sequence, ih]

private theorem run_sequence_cons (step : Step) (rest : List Step) (s : Store) :
    (sequence (step :: rest)).run.run s =
      match step.take s with
      | (.ok _, middle) => (sequence rest).run.run middle
      | (.error reason, left) => (.error reason, left) := by
  rw [sequence, ← Service.run_plain, Service.run_attempt_bind, Service.run_plain, run_body]
  obtain ⟨result | reason, middle⟩ := step.take s <;> rfl

/-- Steps run to the end exactly if each succeeds in what those before it leave. -/
theorem run_sequence_eq_ok {steps : List Step} {s after : Store} :
    (sequence steps).run.run s = (.ok (), after) ↔ Complete s steps after := by
  induction steps generalizing s with
  | nil =>
    constructor
    · intro ran
      cases ran
      exact .nil
    · rintro ⟨⟩
      rfl
  | cons step rest ih =>
    rw [run_sequence_cons]
    constructor
    · intro ran
      split at ran
      · next middle succeeded => exact .cons succeeded (ih.mp ran)
      · cases ran
    · rintro (_ | ⟨succeeded, later⟩)
      rw [succeeded]
      exact ih.mpr later

/-- Steps that do not run to the end stop at the first that fails. -/
theorem run_sequence_eq_error {steps : List Step} {s left : Store} {reason : StoreError} :
    (sequence steps).run.run s = (.error reason, left) ↔
      ∃ before step rest now, steps = before ++ step :: rest ∧ Complete s before now ∧
        step.take now = (.error reason, left) := by
  constructor
  · intro ran
    induction steps generalizing s with
    | nil => cases ran
    | cons step rest ih =>
      rw [run_sequence_cons] at ran
      split at ran
      · next middle succeeded =>
        obtain ⟨before, failing, later, now, rfl, complete, failed⟩ := ih ran
        exact ⟨step :: before, failing, later, now, rfl, .cons succeeded complete, failed⟩
      · next reason left failed =>
        cases ran
        exact ⟨[], step, rest, s, rfl, .nil, failed⟩
  · rintro ⟨before, step, rest, now, rfl, complete, failed⟩
    induction complete with
    | nil => rw [List.nil_append, run_sequence_cons, failed]
    | cons succeeded _ ih =>
      rw [List.cons_append, run_sequence_cons, succeeded]
      exact ih failed

/-- A step that fails leaves nothing but the count of a call. -/
theorem kept_of_failed {step : Step} {s left : Store} {reason : StoreError}
    (failed : step.take s = (.error reason, left)) :
    left.collections = s.collections ∧ left.issued = s.issued := by
  cases step with
  | call c =>
    obtain ⟨answered, rfl⟩ := Prod.ext_iff.mp failed
    cases answer : (s.perform c).1 with
    | ok result => simp [take, answer, Except.map] at answered
    | error cause =>
      rw [take, (Store.unchanged_of_refused answer).2]
      exact ⟨rfl, rfl⟩
  | refuse cause =>
    cases failed
    exact ⟨rfl, rfl⟩

end Step

private theorem insertAll_eq (name : String) (documents : List Document) :
    insertAll name documents =
      Step.sequence (documents.map fun document => .call (.insert name document)) := by
  induction documents with
  | nil => rfl
  | cons document rest ih =>
    rw [insertAll, ih]
    rfl

private theorem body_eq (operation : Operation) :
    operation.body = Step.sequence operation.steps := by
  cases operation with
  | insertDocuments name documents => exact insertAll_eq name documents
  | updateDocuments name filter update =>
    rw [body, steps]
    split <;> rw [Step.sequence_singleton] <;> rfl
  | _ =>
    rw [steps, Step.sequence_singleton]
    rfl

private theorem bodyAll_eq (operations : List Operation) :
    bodyAll operations = Step.sequence (operations.flatMap steps) := by
  induction operations with
  | nil => rfl
  | cons operation rest ih => rw [bodyAll, body_eq, ih, List.flatMap_cons, Step.sequence_append]

end Operation

namespace Definition

open Operation (Step)

/-- The body of a declared migration succeeds exactly if all steps of its operations do, one after
the other, and leaves what they leave. It fails exactly if one of the steps does after all before it
have succeeded, for the same reason, and the collections are as those before it have left them:
there is nothing of the failing step, nor of any after it. -/
theorem completed_steps (d : Definition) (direction : Direction) (s : Store) :
    let steps := (d.operations direction).flatMap Operation.steps
    let ran := (d.toMigration.body direction).run.run s
    (∀ after, ran = (.ok (), after) ↔ Step.Complete s steps after) ∧
    ∀ reason left, ran = (.error reason, left) ↔
      ∃ before step rest now, steps = before ++ step :: rest ∧ Step.Complete s before now ∧
        step.take now = (.error reason, left) ∧
        left.collections = now.collections ∧ left.issued = now.issued := by
  intro steps ran
  have same : ran = (Step.sequence steps).run.run s := by
    rw [← Operation.bodyAll_eq]
    cases direction <;> rfl
  rw [same]
  refine ⟨fun after => Step.run_sequence_eq_ok, fun reason left => ?_⟩
  rw [Step.run_sequence_eq_error]
  constructor
  · rintro ⟨before, step, rest, now, parts, complete, failed⟩
    exact ⟨before, step, rest, now, parts, complete, failed, Step.kept_of_failed failed⟩
  · rintro ⟨before, step, rest, now, parts, complete, failed, -⟩
    exact ⟨before, step, rest, now, parts, complete, failed⟩

/-- The second of three documents is refused: what was made before it stays, the first document
included, and the third document and the operation after it leave no trace. -/
theorem completed_steps_midway :
    let document (id : String) : Document := [("_id", .str id)]
    let d : Definition :=
      { id := "20250101-users"
        up := [.createCollection "orders",
          .insertDocuments "users" [document "a", document "a", document "b"],
          .dropCollection "orders"] }
    let ran := (d.toMigration.body .up).run.run {}
    let made := Store.after [.createCollection "orders", .insert "users" (document "a")]
    ran.1 = .error (.duplicateKey "users" "\"a\"") ∧ ran.2.collections = made.collections ∧
      ∃ before step rest now, (d.operations .up).flatMap Operation.steps = before ++ step :: rest ∧
        Step.Complete {} before now ∧
        (step.take now).1 = .error (.duplicateKey "users" "\"a\"") ∧
        ran.2.collections = now.collections := by
  intro document d ran made
  have failed : ran = (.error (.duplicateKey "users" "\"a\""), ran.2) :=
    Prod.ext (by decide) rfl
  obtain ⟨before, step, rest, now, parts, complete, refused, kept, -⟩ :=
    ((d.completed_steps .up {}).2 _ _).mp failed
  refine ⟨congrArg Prod.fst failed, by decide, ?_⟩
  exact ⟨before, step, rest, now, parts, complete, congrArg Prod.fst refused, kept⟩

end Definition

end Stepwise
