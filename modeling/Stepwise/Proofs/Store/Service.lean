import Stepwise.Proofs.Script.Calls
import Stepwise.Store.Host

/-!
# Services

A service answers calls from a store, and lets some of them fail instead, for any cause, before they
take effect. Which ones may depend on anything that it keeps besides the store: a schedule, the
faults of a `Host`, nothing at all. What is proved of every service holds under every schedule of
faults.
-/

namespace Stepwise

/-- A way of answering calls from a store in which each may fail before it takes effect. -/
structure Service (σ : Type) where
  store : σ → Store
  perform : σ → (c : Call) → Except StoreError c.Answer × σ
  /-- A call is answered by the store, or fails and leaves the store as it is. -/
  honest : ∀ x c,
    ((perform x c).1 = ((store x).perform c).1 ∧
      store (perform x c).2 = ((store x).perform c).2) ∨
    ((∃ cause, (perform x c).1 = .error cause) ∧ store (perform x c).2 = store x)

namespace Service

variable {σ α : Type}

/-- The service in which no call fails but for the store. -/
def plain : Service Store where
  store := id
  perform := Store.perform
  honest := fun _ _ => .inl ⟨rfl, rfl⟩

/-- The hosts with their faults. -/
def host : Service Host where
  store := Host.store
  perform := Host.perform
  honest := by
    intro h c
    unfold Host.perform
    split
    · exact .inr ⟨⟨_, rfl⟩, rfl⟩
    · exact .inl ⟨rfl, rfl⟩

@[simp]
theorem store_plain (s : Store) : plain.store s = s :=
  rfl

@[simp]
theorem perform_plain (s : Store) (c : Call) : plain.perform s c = s.perform c :=
  rfl

/-- The service in which calls fail that are told, for one cause, and no others. -/
def failing (fails : Call → Bool) (cause : StoreError) : Service Store where
  store := id
  perform := fun s c => if fails c then (.error cause, s) else s.perform c
  honest := by
    intro s c
    split
    · exact .inr ⟨⟨cause, rfl⟩, rfl⟩
    · exact .inl ⟨rfl, rfl⟩

theorem perform_failing (fails : Call → Bool) (cause : StoreError) (s : Store) (c : Call) :
    (failing fails cause).perform s c = if fails c then (.error cause, s) else s.perform c :=
  rfl

variable (v : Service σ)

def run (script : Script α) (x : σ) : α × σ :=
  script.runWith v.perform x

@[simp]
theorem run_plain (script : Script α) (s : Store) : plain.run script s = script.run s :=
  rfl

/-- The calls of a run, each with the state in which it is made. -/
def log (script : Script α) (x : σ) : List (σ × Call) :=
  script.log v.perform x

theorem run_bind {β : Type} (script : Script α) (f : α → Script β) (x : σ) :
    v.run (script >>= f) x = v.run (f (v.run script x).1) (v.run script x).2 :=
  Script.runWith_bind ..

theorem log_bind {β : Type} (script : Script α) (f : α → Script β) (x : σ) :
    v.log (script >>= f) x = v.log script x ++ v.log (f (v.run script x).1) (v.run script x).2 :=
  Script.log_bind ..

variable {ε β : Type}

/-- An attempt goes on if its first part succeeds. -/
theorem run_attempt_bind (attempt : Attempt ε α) (f : α → Attempt ε β) (x : σ) :
    v.run (attempt >>= f).run x =
      match v.run attempt.run x with
      | (.ok result, y) => v.run (f result).run y
      | (.error reason, y) => (.error reason, y) := by
  rw [ExceptT.run_bind, run_bind]
  obtain ⟨result, y⟩ := v.run attempt.run x
  cases result <;> rfl

theorem log_attempt_bind (attempt : Attempt ε α) (f : α → Attempt ε β) (x : σ) :
    v.log (attempt >>= f).run x = v.log attempt.run x ++
      match v.run attempt.run x with
      | (.ok result, y) => v.log (f result).run y
      | (.error _, _) => [] := by
  rw [ExceptT.run_bind, log_bind]
  obtain ⟨result, y⟩ := v.run attempt.run x
  cases result <;> rfl

theorem run_adapt {ε' : Type} (f : ε → ε') (attempt : Attempt ε α) (x : σ) :
    v.run (attempt.adapt f).run x =
      ((v.run attempt.run x).1.mapError f, (v.run attempt.run x).2) := by
  rw [ExceptT.run_adapt, map_eq_pure_bind, run_bind]
  rfl

theorem log_adapt {ε' : Type} (f : ε → ε') (attempt : Attempt ε α) (x : σ) :
    v.log (attempt.adapt f).run x = v.log attempt.run x := by
  rw [ExceptT.run_adapt, map_eq_pure_bind, log_bind]
  exact List.append_nil _

theorem run_request (reason : StoreError → ε) (c : Call) (x : σ) :
    v.run (Attempt.request reason c).run x =
      ((v.perform x c).1.mapError reason, (v.perform x c).2) :=
  rfl

theorem log_request (reason : StoreError → ε) (c : Call) (x : σ) :
    v.log (Attempt.request reason c).run x = [(x, c)] :=
  rfl

theorem run_lift (script : Script α) (x : σ) :
    v.run (ExceptT.lift script : Attempt ε α).run x =
      (.ok (v.run script x).1, (v.run script x).2) := by
  rw [ExceptT.run_lift, map_eq_pure_bind, run_bind]
  rfl

theorem log_lift (script : Script α) (x : σ) :
    v.log (ExceptT.lift script : Attempt ε α).run x = v.log script x := by
  rw [ExceptT.run_lift, map_eq_pure_bind, log_bind]
  exact List.append_nil _

/-- A script runs as on the store alone if its calls are answered as by the store. -/
theorem run_of_answered {v : Service Store} {p : Call → Prop} {script : Script α}
    (calls : script.Calls p) (answered : ∀ s c, p c → v.perform s c = s.perform c) (s : Store) :
    v.run script s = script.run s := by
  induction script generalizing s with
  | done result => rfl
  | call c next ih =>
    have later := ih (s.perform c).1 (calls.2 _) (s.perform c).2
    rw [run, Script.runWith, answered s c calls.1]
    exact later

/-- What a call keeps holds after it, whether it fails or not. -/
theorem kept_perform {kept : Store → Prop} {c : Call} (step : ∀ s, kept s → kept (s.perform c).2)
    {x : σ} (held : kept (v.store x)) : kept (v.store (v.perform x c).2) := by
  obtain ⟨-, same⟩ | ⟨-, same⟩ := v.honest x c
  · rw [same]
    exact step _ held
  · rwa [same]

/-- What holds of the store, and is kept by calls of a kind, holds at every call of a script of such
calls and after it. -/
theorem run_induction {p : Call → Prop} {kept : Store → Prop}
    (step : ∀ s c, p c → kept s → kept (s.perform c).2) {script : Script α} (calls : script.Calls p)
    {x : σ} (held : kept (v.store x)) :
    kept (v.store (v.run script x).2) ∧ ∀ made ∈ v.log script x, kept (v.store made.1) := by
  induction script generalizing x with
  | done result => exact ⟨held, List.forall_mem_nil _⟩
  | call c next ih =>
    have next := v.kept_perform (fun s => step s c calls.1) held
    obtain ⟨last, later⟩ := ih _ (calls.2 _) next
    exact ⟨last, List.forall_mem_cons.mpr ⟨held, later⟩⟩

/-- A collection that a script spares is the same at every call of a run and after it. -/
theorem get?_run {script : Script α} {name : String} (spares : script.Spares name) (x : σ) :
    (v.store (v.run script x).2).collections.get? name = (v.store x).collections.get? name ∧
      ∀ made ∈ v.log script x,
        (v.store made.1).collections.get? name = (v.store x).collections.get? name := by
  let kept (s : Store) : Prop := s.collections.get? name = (v.store x).collections.get? name
  have step (s : Store) (c : Call) (spared : c.isWrite = true → c.collection ≠ name)
      (held : kept s) : kept (s.perform c).2 := by
    have untouched := s.get?_perform_of_spared spared
    exact untouched.trans held
  exact v.run_induction step spares rfl

end Service

end Stepwise
