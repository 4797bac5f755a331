import Stepwise.Proofs.Store.Agreement

/-!
# The calls of a script

`Script.Calls p` says that a script makes no calls but those of a kind, whatever answers it gets.
Two kinds matter: a script that spares a collection does not write to it, so that no run of the
script changes it, and one that avoids a collection runs alike on stores that differ in nothing else
(`Script.Calls.agree_run`).
-/

namespace Stepwise

namespace Script

variable {α β σ : Type}

/-- Whether all calls that the script can make are of a kind. -/
def Calls (p : Call → Prop) : Script α → Prop
  | .done _ => True
  | .call c next => p c ∧ ∀ answer, (next answer).Calls p

/-- Whether the script writes to other collections only. -/
abbrev Spares (name : String) : Script α → Prop :=
  Calls fun c => c.isWrite = true → c.collection ≠ name

/-- Whether the script neither reads nor writes the collection, nor asks for its existence. -/
abbrev Avoids (name : String) : Script α → Prop :=
  Calls (·.Within (· ≠ name))

/-- Whether all documents that the script inserts have identifying values of their own. -/
abbrev Identified : Script α → Prop :=
  Calls Call.Identified

theorem calls_of_forall {p : Call → Prop} (all : ∀ c, p c) (script : Script α) :
    script.Calls p := by
  induction script with
  | done result => trivial
  | call c next ih => exact ⟨all c, ih⟩

namespace Calls

variable {p q : Call → Prop}

theorem mono {script : Script α} (calls : script.Calls p) (weaker : ∀ c, p c → q c) :
    script.Calls q := by
  induction script with
  | done result => trivial
  | call c next ih => exact ⟨weaker c calls.1, fun answer => ih answer (calls.2 answer)⟩

theorem and {script : Script α} (first : script.Calls p) (second : script.Calls q) :
    script.Calls fun c => p c ∧ q c := by
  induction script with
  | done result => trivial
  | call c next ih =>
    exact ⟨⟨first.1, second.1⟩, fun answer => ih answer (first.2 answer) (second.2 answer)⟩

theorem bind {script : Script α} {f : α → Script β} (calls : script.Calls p)
    (rest : ∀ result, (f result).Calls p) : (script >>= f).Calls p := by
  induction script with
  | done result => exact rest result
  | call c next ih => exact ⟨calls.1, fun answer => ih answer (calls.2 answer)⟩

theorem request {c : Call} (kind : p c) : (Script.request c).Calls p :=
  ⟨kind, fun _ => trivial⟩

/-- Stores that agree on all that the script depends on give the same result, and agree after it. -/
theorem agree_run {script : Script α} {seen : String → Prop} {counting : Prop} {a b : Store}
    (calls : script.Calls fun c => c.Within seen ∧ (counting ∨ c.Identified))
    (same : Store.Agree seen counting a b) :
    Store.Agree.Outcomes seen counting (script.run a) (script.run b) := by
  induction script generalizing a b with
  | done result => exact ⟨rfl, same⟩
  | call c next ih =>
    obtain ⟨answers, agree⟩ := same.perform calls.1.1 calls.1.2
    simp only [run, runWith]
    rw [answers]
    exact ih _ (calls.2 _) agree

end Calls

/-- Stores that agree on everything run any script alike. -/
theorem run_of_agree {a b : Store} (same : Store.Agree (fun _ => True) True a b)
    (script : Script α) :
    Store.Agree.Outcomes (fun _ => True) True (script.run a) (script.run b) := by
  refine Calls.agree_run (calls_of_forall (fun c => ⟨?_, .inl trivial⟩) script) same
  cases c with
  | listCollections => exact fun _ => trivial
  | _ => trivial

theorem spares_of_avoids {script : Script α} {name : String} (avoids : script.Avoids name) :
    script.Spares name := by
  refine avoids.mono fun c within write => ?_
  cases c with
  | listCollections => contradiction
  | _ => exact within

/-- The calls of a run, each with the state in which it is made. -/
def log (perform : σ → (c : Call) → Except StoreError c.Answer × σ) : Script α → σ → List (σ × Call)
  | .done _, _ => []
  | .call c next, s => (s, c) :: (next (perform s c).1).log perform (perform s c).2

/-- The log of a sequence is that of its first part and then that of the second. -/
theorem log_bind (perform : σ → (c : Call) → Except StoreError c.Answer × σ) (script : Script α)
    (f : α → Script β) (s : σ) :
    (script >>= f).log perform s =
      script.log perform s ++
        (f (script.runWith perform s).1).log perform (script.runWith perform s).2 := by
  induction script generalizing s with
  | done result => rfl
  | call c next ih => exact congrArg ((s, c) :: ·) (ih _ _)

end Script

namespace Attempt

variable {α β ε ε' : Type} {p : Call → Prop}

theorem calls_bind {attempt : Attempt ε α} {f : α → Attempt ε β} (calls : attempt.run.Calls p)
    (rest : ∀ result, (f result).run.Calls p) : (attempt >>= f).run.Calls p := by
  rw [ExceptT.run_bind]
  refine calls.bind fun result => ?_
  cases result with
  | error reason => trivial
  | ok result => exact rest result

theorem calls_request {reason : StoreError → ε} {c : Call} (kind : p c) :
    (Attempt.request reason c).run.Calls p :=
  (Script.Calls.request kind).bind fun _ => trivial

theorem calls_adapt {attempt : Attempt ε α} {f : ε → ε'} (calls : attempt.run.Calls p) :
    (attempt.adapt f).run.Calls p :=
  calls.bind fun _ => trivial

theorem calls_lift {script : Script α} (calls : script.Calls p) :
    (ExceptT.lift script : Attempt ε α).run.Calls p :=
  calls.bind fun _ => trivial

end Attempt

end Stepwise
