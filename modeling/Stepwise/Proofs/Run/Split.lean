import Stepwise.Proofs.Run.Completed
import Stepwise.Proofs.Run.Restart

/-!
# Runs up in parts

A run up through everything can be split: runs to registered identifiers, in any order, and then a
run through what is left come to the same (`Migrator.split_up`). A course through the first part of
a plan and one through the rest are compared with the course through the whole; what the second run
plans is the rest, as it replans from what the first has recorded.
-/

namespace Stepwise

/-- A ledger that accepts migrations accepts the first of them. -/
theorem Ledger.Accepts.of_append {ledger : Ledger} {direction : Direction} {s : Store}
    {first rest : List Migration} (accepts : ledger.Accepts direction (first ++ rest) s) :
    ledger.Accepts direction first s where
  written := accepts.written
  unindexed := accepts.unindexed
  fresh := fun up m member => accepts.fresh up m (List.mem_append_left _ member)
  nodup := fun up => (accepts.nodup up).sublist ((List.sublist_append_left first rest).map _)

namespace Course

variable {ledger : Ledger} {pass : Pass} {clock : Clock} {first rest : List Migration}
  {x y : Store} {stages : List (Stage Store)} {completed : List String}
  {failure : Option RunFailure}

/-- A course through the first part of a list and the rest either stops in the first part, or is a
course through the rest after it. -/
theorem of_append {σ : Type} {v : Service σ} {x y : σ} {stages : List (Stage σ)}
    (course : Course v ledger pass clock (first ++ rest) x stages completed failure y) :
    (failure.isSome ∧ Course v ledger pass clock first x stages completed failure y) ∨
    ∃ clock' before after later z,
      Course v ledger pass clock first x before (first.map (·.id)) none z ∧
      Course v ledger pass clock' rest z after later failure y ∧
      completed = first.map (·.id) ++ later := by
  induction first generalizing clock x stages completed with
  | nil => exact .inr ⟨clock, [], stages, completed, x, .finished clock x, course, rfl⟩
  | cons m others ih =>
    cases course with
    | recorded ended course =>
      obtain ⟨failed, stopped⟩ | ⟨clock', before, after, later, z, part, last, rfl⟩ := ih course
      · exact .inl ⟨failed, .recorded ended stopped⟩
      · exact .inr ⟨clock', _, after, later, z, .recorded ended part, last, rfl⟩
    | stopped ended => exact .inl ⟨rfl, .stopped ended⟩

/-- A ledger that accepts migrations accepts those that are left when the first are done. -/
theorem accepts_rest
    (course : Course .plain ledger pass clock first x stages completed failure y)
    (success : failure = none)
    (spares : ∀ m ∈ first, (m.body pass.direction).run.Spares ledger.collection)
    (accepts : ledger.Accepts pass.direction (first ++ rest) x) :
    ledger.Accepts pass.direction rest y := by
  induction course with
  | finished clock x => exact accepts
  | @recorded clock m others x _ _ _ _ ended _ ih =>
    obtain ⟨body, spared⟩ := List.forall_mem_cons.mp spares
    obtain ⟨_, u, -, ran, later, -⟩ | ⟨_, _, -, failed⟩ :=
      (Stage.mk m (clock 0) x).ended_of_accepts body accepts
    · rw [ran] at ih
      exact ih success spared later
    · rw [failed] at ended
      contradiction
  | stopped _ => contradiction

/-- A course through the first part of a list stops where the course through the whole list does, or
leaves a store that is like the one from which the whole course goes on. -/
theorem alike_append {pass' : Pass} {clock' : Clock} {y' : Store} {stages' : List (Stage Store)}
    {completed' : List String} {failure' : Option RunFailure}
    (course : Course .plain ledger pass clock (first ++ rest) x stages completed failure y)
    (course' : Course .plain ledger pass' clock' first x stages' completed' failure' y')
    (way : pass'.direction = pass.direction)
    (avoids : ∀ m ∈ first ++ rest, (m.body pass.direction).run.Avoids ledger.collection)
    (accepts : ledger.Accepts pass.direction (first ++ rest) x) :
    (failure' ≠ none ∧ failure ≠ none) ∨
    failure' = none ∧ completed' = first.map (·.id) ∧
    ∃ later middle after remaining, completed = first.map (·.id) ++ remaining ∧
      Course .plain ledger pass later rest middle after remaining failure y ∧
      ledger.Accepts pass.direction rest middle ∧ ledger.Alike middle y' := by
  obtain ⟨bodies, -⟩ := List.forall_mem_append.mp avoids
  have part := accepts.of_append
  obtain ⟨failed, stopped⟩ | ⟨later, before, after, remaining, z, started, left, ids⟩ :=
    course.of_append
  · obtain ⟨-, rfl, -⟩ := stopped.alike course' way bodies part part (.refl x)
    exact .inl ⟨Option.isSome_iff_ne_none.mp failed, Option.isSome_iff_ne_none.mp failed⟩
  · obtain ⟨completed, failure, alike⟩ := started.alike course' way bodies part part (.refl x)
    have spares := fun m member => Script.spares_of_avoids (bodies m member)
    have accepts := started.accepts_rest rfl spares accepts
    exact .inr ⟨failure, completed, later, z, after, remaining, ids, left, accepts, alike⟩

end Course

namespace Ledger

/-- Whether runs come to the same, the data and what is completed and recorded. -/
abbrev SameOutcome (ledger : Ledger) : Option (List String × Store) → Option (List String × Store) →
    Prop :=
  Option.Rel fun a b => a.1 = b.1 ∧ ledger.Alike a.2 b.2

variable {ledger : Ledger} {s t : Store}

private theorem SameOutcome.isSome_iff {a b : Option (List String × Store)}
    (same : ledger.SameOutcome a b) : a.isSome ↔ b.isSome := by
  cases same with
  | none => exact Iff.rfl
  | some _ => exact Iff.rfl

theorem SameOutcome.trans {a b c : Option (List String × Store)} (first : ledger.SameOutcome a b)
    (second : ledger.SameOutcome b c) : ledger.SameOutcome a c := by
  cases first with
  | none => exact second
  | some same =>
    cases second with
    | some also => exact .some ⟨same.1.trans also.1, same.2.trans also.2⟩

/-- Runs that come to the same do so after the same beginning. -/
theorem SameOutcome.prepend {a b : Option (List String × Store)} (same : ledger.SameOutcome a b)
    (before : List String) :
    ledger.SameOutcome (a.map fun (completed, t) => (before ++ completed, t))
      (b.map fun (completed, t) => (before ++ completed, t)) := by
  cases same with
  | none => exact .none
  | some same => exact .some ⟨congrArg (before ++ ·) same.1, same.2⟩

/-- Whether a ledger that only runs have written can be read, and has room for so many batches. -/
structure Ready (ledger : Ledger) (n : Nat) (s : Store) : Prop where
  written : ledger.Written s
  unindexed : ∀ index ∈ (s.collection ledger.collection).indexes, index.unique = false
  readable : ledger.Readable s
  room : ∀ entries, LedgerEntry.ofDocuments (ledger.documents s) = .ok entries →
    LedgerEntry.latestBatch entries + n < 0x8000000000000000

section

variable {n : Nat} {entries : List LedgerEntry} {clock : Clock} {migrations : List Migration}
  {stages : List (Stage Store)} {completed : List String} {failure : Option RunFailure}

theorem Ready.mono {m : Nat} (ready : ledger.Ready n s)
    (fewer : m ≤ n) : ledger.Ready m s := by
  refine { ready with room := fun entries read => ?_ }
  have room := ready.room entries read
  omega

/-- The batches after a run up are not above that of the run. -/
theorem latestBatch_le_of_course (read : LedgerEntry.ofDocuments (ledger.documents s) = .ok entries)
    (course : Course .plain ledger (.apply (LedgerEntry.latestBatch entries + 1)) clock migrations s
      stages completed failure t)
    (written : ledger.Written s)
    (spares : ∀ m ∈ migrations, (m.body .up).run.Spares ledger.collection)
    {entries' : List LedgerEntry}
    (read' : LedgerEntry.ofDocuments (ledger.documents t) = .ok entries') :
    LedgerEntry.latestBatch entries' ≤ LedgerEntry.latestBatch entries + 1 := by
  refine LedgerEntry.latestBatch_le (fun nothing => ?_) fun entry member => ?_
  · cases entries with
    | nil => decide
    | cons entry _ =>
      -- What was recorded still is, so that there is an entry.
      obtain ⟨document, inside, here⟩ :=
        (LedgerEntry.mem_of_ofDocuments read).mp List.mem_cons_self
      have before : entry.id ∈ ledger.recorded s :=
        mem_recorded.mpr ⟨document, inside, LedgerEntry.recordedId?_of_ofDocument here⟩
      have after := ((course.recorded_iff spares written).2 entry.id).mpr (.inl before)
      obtain ⟨document, inside, -⟩ := mem_recorded.mp after
      obtain ⟨other, there⟩ := LedgerEntry.exists_ofDocuments.mp ⟨_, read'⟩ document inside
      have never := (LedgerEntry.mem_of_ofDocuments read').mpr ⟨document, inside, there⟩
      rw [nothing] at never
      contradiction
  · obtain ⟨document, inside, here⟩ := (LedgerEntry.mem_of_ofDocuments read').mp member
    obtain before | ⟨stage, -, batch, applies, rfl⟩ := course.mem_documents spares inside
    · have among := (LedgerEntry.mem_of_ofDocuments read).mpr ⟨document, before, here⟩
      have below := LedgerEntry.batch_le_latestBatch among
      omega
    · cases applies
      obtain ⟨-, batch⟩ := LedgerEntry.of_ofDocument_document here
      exact Int.le_of_eq batch

/-- A ledger is ready for one batch less after a run up that completes. -/
theorem Ready.of_course (ready : ledger.Ready (n + 1) s)
    (read : LedgerEntry.ofDocuments (ledger.documents s) = .ok entries)
    (course : Course .plain ledger (.apply (LedgerEntry.latestBatch entries + 1)) clock migrations s
      stages completed failure t)
    (success : failure = none)
    (spares : ∀ m ∈ migrations, (m.body .up).run.Spares ledger.collection)
    (accepts : ledger.Accepts .up migrations s)
    (legible : ∀ k, (clock k).IsLegible) : ledger.Ready n t := by
  have room := ready.room entries read
  obtain ⟨written, unindexed, -⟩ : ledger.Accepts .up [] t :=
    course.accepts_rest success spares (by rwa [List.append_nil])
  refine ⟨written, unindexed, course.readable spares legible ?_ ready.readable, ?_⟩
  · rintro batch applies
    cases applies
    have low : -0x8000000000000000 ≤ LedgerEntry.latestBatch entries := by
      refine LedgerEntry.le_latestBatch (by decide) fun entry member => ?_
      obtain ⟨document, -, here⟩ := (LedgerEntry.mem_of_ofDocuments read).mp member
      exact (LedgerEntry.batch_range here).1
    omega
  · intro entries' read'
    have high := latestBatch_le_of_course read course ready.written spares read'
    omega

end

end Ledger

namespace Migrator

variable {migrator : Migrator} {target : UpTarget} {clock : Clock} {s t : Store}

/-- What a run up to a target goes through. -/
def pending (migrator : Migrator) (target : UpTarget) (s : Store) : List Migration :=
  Plan.pending migrator.registry.migrations (IdSet.ofList (migrator.ledger.recorded s)) target.last?

/-- The identifiers that runs up complete, one after the other, and the store that they leave, if
each goes through its whole plan. -/
def ascend? (migrator : Migrator) (runs : List (UpTarget × Clock)) (s : Store) :
    Option (List String × Store) :=
  completeAll? .plain migrator (runs.map fun run => (.up run.1, run.2)) s

/-- Runs up to identifiers and then one through everything. -/
def parts (runs : List (String × Clock)) (last : Clock) : List (UpTarget × Clock) :=
  runs.map (fun run => (.to run.1, run.2)) ++ [(.all, last)]

private theorem plan_up (known : ∀ id ∈ target.last?, id ∈ migrator.registry.ids) (s : Store) :
    Plan.ofTarget migrator.registry (IdSet.ofList (migrator.ledger.recorded s)) (.up target) =
      .ok ⟨.up, migrator.pending target s⟩ :=
  Plan.up_eq_ok.mpr ⟨known, rfl⟩

/-- A run up to a registered target goes through what is pending. -/
theorem exists_course_up (readable : migrator.ledger.Readable s)
    (known : ∀ id ∈ target.last?, id ∈ migrator.registry.ids) (clock : Clock) :
    ∃ report t entries stages,
      Service.plain.run (migrator.migrate (.up target) clock).run s = (.ok report, t) ∧
      LedgerEntry.ofDocuments (migrator.ledger.documents s) = .ok entries ∧
      Course .plain migrator.ledger (.apply (LedgerEntry.latestBatch entries + 1)) clock
        (migrator.pending target s) s stages report.completed report.failure t := by
  have planned : ((migrator.preview (.up target)).run.run s).1 =
      .ok ⟨.up, migrator.pending target s⟩ := run_preview_eq_ok.mpr ⟨readable, plan_up known s⟩
  obtain ⟨report, entries, stages, ok, read, course, -⟩ := run_migrate_of_preview planned clock
  exact ⟨report, _, entries, stages, Prod.ext ok rfl, read, course⟩

/-- The rest of a plan is what is pending when its first part is recorded. -/
theorem pending_append (migrator : Migrator) (id : String) (s : Store) :
    ∃ rest, migrator.pending .all s = migrator.pending (.to id) s ++ rest ∧
      ∀ t, (∀ other, other ∈ migrator.ledger.recorded t ↔ other ∈ migrator.ledger.recorded s ∨
        other ∈ (migrator.pending (.to id) s).map (·.id)) → migrator.pending .all t = rest := by
  have part : migrator.pending (.to id) s = (migrator.pending .all s).filter (·.id ≤ id) := by
    rw [pending, pending, Plan.pending, Plan.pending, List.filter_filter]
    rfl
  have initial : migrator.pending (.to id) s <+: migrator.pending .all s := by
    rw [part]
    refine List.filter_isPrefix ?_
    have ascending := migrator.registry.ascending.sublist
      (List.filter_sublist : (migrator.pending .all s).Sublist _)
    refine ascending.imp fun {a b} less within => ?_
    rw [decide_eq_true_eq] at within ⊢
    exact String.le_trans (Std.le_of_lt less) within
  obtain ⟨rest, whole⟩ := initial
  refine ⟨rest, whole.symm, fun t moved => ?_⟩
  have first : (migrator.pending .all s).take (migrator.pending (.to id) s).length =
      migrator.pending (.to id) s := by
    rw [← whole, List.take_left]
  have left : (migrator.pending .all s).drop (migrator.pending (.to id) s).length = rest := by
    rw [← whole, List.drop_left]
  rw [← first] at moved
  exact (Plan.pending_of_moved moved).trans left

section

variable (avoids : migrator.registry.Calls (·.Within (· ≠ migrator.ledger.collection)))

include avoids

private theorem avoids_pending (target : UpTarget) (s : Store) :
    ∀ m ∈ migrator.pending target s, (m.body .up).run.Avoids migrator.ledger.collection :=
  fun m member => avoids m (List.mem_filter.mp member).1 .up

/-- Two runs up to one target come to the same, whatever their clocks. -/
theorem sameOutcome_again (ready : migrator.ledger.Ready 1 s)
    (known : ∀ id ∈ target.last?, id ∈ migrator.registry.ids) (clock clock' : Clock) :
    migrator.ledger.SameOutcome (completeAll? .plain migrator [(.up target, clock)] s)
      (completeAll? .plain migrator [(.up target, clock')] s) := by
  obtain ⟨report, t, entries, stages, ran, -, course⟩ :=
    exists_course_up ready.readable known clock
  obtain ⟨report', t', entries', stages', ran', -, course'⟩ :=
    exists_course_up ready.readable known clock'
  have accepts := accepts_of_plan ready.written ready.unindexed (plan_up known s)
  obtain ⟨completed, failure, alike⟩ := course.alike course' rfl (avoids_pending avoids target s)
    accepts accepts (.refl s)
  rw [completeAll?_cons ran, completeAll?_cons ran', failure, completed]
  split
  · exact .some ⟨rfl, alike⟩
  · exact .none

/-- A run up to a registered identifier and then one through everything come to the same as the
latter alone. -/
theorem sameOutcome_split {id : String} (ready : migrator.ledger.Ready 2 s)
    (known : id ∈ migrator.registry.ids) (legible : ∀ k, (clock k).IsLegible)
    (whole last : Clock) :
    migrator.ledger.SameOutcome (completeAll? .plain migrator [(.up .all, whole)] s)
      (completeAll? .plain migrator [(.up (.to id), clock), (.up .all, last)] s) := by
  have every := UpTarget.forall_mem_last?_all (p := (· ∈ migrator.registry.ids))
  have here := UpTarget.forall_mem_last?_to.mpr known
  obtain ⟨rest, parts, left⟩ := migrator.pending_append id s
  have bodies := avoids_pending avoids .all s
  have accepts := accepts_of_plan ready.written ready.unindexed (plan_up every s)
  obtain ⟨report, t, entries, stages, ran, -, course⟩ :=
    exists_course_up ready.readable every whole
  obtain ⟨report₁, z, entries₁, stages₁, ran₁, read₁, course₁⟩ :=
    exists_course_up ready.readable here clock
  simp only [parts] at bodies accepts
  rw [parts] at course
  rw [completeAll?_cons ran, completeAll?_cons ran₁]
  obtain ⟨failed₁, failed⟩ |
      ⟨success, completed₁, _, middle, _, later, ids, course, accepts, alike⟩ :=
    course.alike_append course₁ rfl bodies accepts
  · rw [if_neg failed, if_neg failed₁]
    exact .none
  · have spares : ∀ m ∈ migrator.pending (.to id) s,
        (m.body .up).run.Spares migrator.ledger.collection :=
      fun m member => Script.spares_of_avoids (avoids_pending avoids (.to id) s m member)
    have ready₁ := ready.of_course read₁ course₁ success spares
      (accepts_of_plan ready.written ready.unindexed (plan_up here s)) legible
    -- The second run plans the rest, which the whole run has still to go through.
    have planned : migrator.pending .all z = rest := by
      refine left z fun other => ?_
      have moved := (course₁.recorded_iff spares ready.written).2 other
      rwa [completed₁] at moved
    obtain ⟨report₂, u, entries₂, stages₂, ran₂, -, course₂⟩ :=
      exists_course_up ready₁.readable every last
    have accepts₂ := accepts_of_plan ready₁.written ready₁.unindexed (plan_up every z)
    simp only [planned] at accepts₂
    rw [planned] at course₂
    obtain ⟨completed₂, failure₂, alike⟩ := course.alike course₂ rfl
      (fun m member => bodies m (List.mem_append_right _ member)) accepts accepts₂ alike
    rw [if_pos success, completeAll?_cons ran₂, failure₂]
    split
    · refine .some ⟨?_, alike⟩
      simp only [ids, completed₁, completed₂, List.append_nil]
    · exact .none

/-- A ledger is ready for one batch less after a run up that is completed. -/
theorem exists_ready {n : Nat} (ready : migrator.ledger.Ready (n + 1) s)
    (known : ∀ id ∈ target.last?, id ∈ migrator.registry.ids)
    (legible : ∀ k, (clock k).IsLegible) :
    ∃ report t, Service.plain.run (migrator.migrate (.up target) clock).run s = (.ok report, t) ∧
      (report.failure = none → migrator.ledger.Ready n t) := by
  obtain ⟨report, t, entries, stages, ran, read, course⟩ :=
    exists_course_up ready.readable known clock
  have accepts := accepts_of_plan ready.written ready.unindexed (plan_up known s)
  have spares : ∀ m ∈ migrator.pending target s,
      (m.body .up).run.Spares migrator.ledger.collection :=
    fun m member => Script.spares_of_avoids (avoids_pending avoids target s m member)
  exact ⟨report, t, ran, fun success => ready.of_course read course success spares accepts legible⟩

/-- Runs up to registered identifiers and then one through everything come to the same as the latter
alone. -/
theorem sameOutcome_parts {runs : List (String × Clock)}
    (ready : migrator.ledger.Ready (runs.length + 1) s)
    (known : ∀ run ∈ runs, run.1 ∈ migrator.registry.ids)
    (legible : ∀ run ∈ runs, ∀ k, (run.2 k).IsLegible) (whole last : Clock) :
    migrator.ledger.SameOutcome (migrator.ascend? [(.all, whole)] s)
      (migrator.ascend? (parts runs last) s) := by
  induction runs generalizing s with
  | nil => exact sameOutcome_again avoids ready UpTarget.forall_mem_last?_all whole last
  | cons run runs ih =>
    obtain ⟨here, others⟩ := List.forall_mem_cons.mp known
    obtain ⟨dated, later⟩ := List.forall_mem_cons.mp legible
    have split := sameOutcome_split avoids (ready.mono (by simp)) here dated whole whole
    obtain ⟨report, z, ran, ready⟩ :=
      exists_ready avoids ready (UpTarget.forall_mem_last?_to.mpr here) dated
    refine split.trans ?_
    rw [parts, List.map_cons, List.cons_append, ← parts, ascend?, List.map_cons,
      completeAll?_cons ran, completeAll?_cons ran]
    split
    · next success => exact (ih (ready success) others later).prepend report.completed
    · exact .none

/-- A ledger that is ready for as many batches as there are runs up is still ready after them. -/
theorem ready_of_ascend? {runs : List (UpTarget × Clock)} {completed : List String}
    (ready : migrator.ledger.Ready runs.length s)
    (known : ∀ run ∈ runs, ∀ id ∈ run.1.last?, id ∈ migrator.registry.ids)
    (legible : ∀ run ∈ runs, ∀ k, (run.2 k).IsLegible)
    (ran : migrator.ascend? runs s = some (completed, t)) : migrator.ledger.Ready 0 t := by
  induction runs generalizing s completed with
  | nil =>
    cases ran
    exact ready
  | cons run runs ih =>
    obtain ⟨here, others⟩ := List.forall_mem_cons.mp known
    obtain ⟨dated, later⟩ := List.forall_mem_cons.mp legible
    obtain ⟨report, z, remaining, first, success, ran, -⟩ := completeAll?_cons_eq_some.mp ran
    obtain ⟨report', z', first', ready⟩ := exists_ready avoids ready here dated
    rw [first] at first'
    cases first'
    exact ih (ready success) others later ran

end

/-- Where a run is completed, the ledger can be read. -/
theorem readable_of_ascend? {runs : List (UpTarget × Clock)} (some : runs ≠ [])
    (ran : (migrator.ascend? runs s).isSome) : migrator.ledger.Readable s := by
  obtain ⟨⟨completed, t⟩, ran⟩ := Option.isSome_iff_exists.mp ran
  cases runs with
  | nil => contradiction
  | cons run runs =>
    obtain ⟨report, z, -, first, -⟩ := completeAll?_cons_eq_some.mp ran
    obtain ⟨error, failed, -⟩ | ⟨_, entries, _, _, -, read, -⟩ :=
      run_migrate .plain migrator (.up run.1) run.2 s
    · rw [first] at failed
      contradiction
    · exact LedgerEntry.exists_ofDocuments.mp ⟨entries, Ledger.run_entries_ok .plain _ read⟩

/-- After a run through everything, all that is registered is recorded. -/
theorem recorded_of_ascend?_all {completed : List String} (written : migrator.ledger.Written s)
    (spares : migrator.registry.Spares migrator.ledger.collection)
    (ran : migrator.ascend? [(.all, clock)] s = some (completed, t)) :
    ∀ id ∈ migrator.registry.ids, id ∈ migrator.ledger.recorded t := by
  obtain ⟨report, z, _, first, success, ran, -⟩ := completeAll?_cons_eq_some.mp ran
  cases ran
  obtain ⟨plan, planned, -, -, moved⟩ := moved_of_completed written spares first success
  rw [Plan.ofTarget] at planned
  intro id registered
  refine (moved id).mpr ?_
  show id ∈ migrator.ledger.recorded s ∨ id ∈ plan.ids
  rw [Plan.mem_ids_up planned]
  by_cases before : id ∈ migrator.ledger.recorded s
  · exact .inl before
  · exact .inr ⟨registered, UpTarget.forall_mem_last?_all, before⟩

/-- A run up changes nothing when all that is registered is recorded. -/
theorem idle_of_recorded (readable : migrator.ledger.Readable s)
    (recorded : ∀ id ∈ migrator.registry.ids, id ∈ migrator.ledger.recorded s)
    (known : ∀ id ∈ target.last?, id ∈ migrator.registry.ids) (clock : Clock) :
    ((migrator.planUp target).run.run s).1 = .ok ⟨.up, []⟩ ∧
    (migrator.up target clock).run.run s = (.ok ⟨.up, none, [], none⟩, s) ∧
    ∀ made ∈ Service.plain.log (migrator.up target clock).run s, made.2.isWrite = false := by
  have nothing : migrator.pending target s = [] := by
    refine List.filter_eq_nil_iff.mpr fun m member waits => ?_
    rw [IdSet.contains_ofList, decide_eq_true (recorded m.id (List.mem_map_of_mem member))] at waits
    simp at waits
  have planned := plan_up known s
  rw [nothing] at planned
  have made : ((migrator.preview (.up target)).run.run s).1 = .ok ⟨.up, []⟩ :=
    run_preview_eq_ok.mpr ⟨readable, planned⟩
  obtain ⟨entries, -, ran, log⟩ := run_eq_goThrough made clock
  refine ⟨made, ran, fun call member => ?_⟩
  change call ∈ Service.plain.log (migrator.migrate (.up target) clock).run s at member
  rw [log] at member
  obtain rfl := List.mem_singleton.mp member
  rfl

/-- Splitting a run up changes nothing. Runs to registered identifiers, in any order, and then a run
through everything are all completed if and only if a single run through everything is. Then they
complete the same migrations in the same order, leave the same data, and record the same
identifiers; and every further run up has nothing to do and changes nothing. The clocks are to show
years of four digits, and the batches of these runs to fit 64 bits. -/
theorem split_up {runs : List (String × Clock)} {last whole : Clock}
    (written : migrator.ledger.Written s)
    (unindexed : ∀ index ∈ (s.collection migrator.ledger.collection).indexes, index.unique = false)
    (avoids : migrator.registry.Calls (·.Within (· ≠ migrator.ledger.collection)))
    (known : ∀ run ∈ runs, run.1 ∈ migrator.registry.ids)
    (legible : ∀ clock ∈ last :: whole :: runs.map (·.2), ∀ k, (clock k).IsLegible)
    (room : ∀ entries, LedgerEntry.ofDocuments (migrator.ledger.documents s) = .ok entries →
      LedgerEntry.latestBatch entries + runs.length + 1 < 0x8000000000000000) :
    ((migrator.ascend? (parts runs last) s).isSome ↔
      (migrator.ascend? [(.all, whole)] s).isSome) ∧
    ∀ completed t completed' t', migrator.ascend? (parts runs last) s = some (completed, t) →
      migrator.ascend? [(.all, whole)] s = some (completed', t') →
        completed = completed' ∧ migrator.ledger.data t = migrator.ledger.data t' ∧
        (∀ id, id ∈ migrator.ledger.recorded t ↔ id ∈ migrator.ledger.recorded t') ∧
        ∀ u ∈ [t, t'], ∀ target : UpTarget, (∀ id ∈ target.last?, id ∈ migrator.registry.ids) →
          ∀ again : Clock,
            ((migrator.planUp target).run.run u).1 = .ok ⟨.up, []⟩ ∧
            (migrator.up target again).run.run u = (.ok ⟨.up, none, [], none⟩, u) ∧
            ∀ made ∈ Service.plain.log (migrator.up target again).run u,
              made.2.isWrite = false := by
  have spares : migrator.registry.Spares migrator.ledger.collection := fun m member direction =>
    Script.spares_of_avoids (avoids m member direction)
  have ready (readable : migrator.ledger.Readable s) :
      migrator.ledger.Ready (runs.length + 1) s := by
    refine ⟨written, unindexed, readable, fun entries read => ?_⟩
    have room := room entries read
    omega
  have dated : ∀ run ∈ runs, ∀ k, (run.2 k).IsLegible := fun run member =>
    legible run.2 (by simp only [List.mem_cons, List.mem_map_of_mem member, or_true])
  have same (readable : migrator.ledger.Readable s) :=
    sameOutcome_parts avoids (ready readable) known dated whole last
  have several : parts runs last ≠ [] := List.append_ne_nil_of_right_ne_nil _ (List.cons_ne_nil _ _)
  have one : [(UpTarget.all, whole)] ≠ [] := List.cons_ne_nil _ _
  refine ⟨⟨fun some => ?_, fun some => ?_⟩, fun completed t completed' t' ran ran' => ?_⟩
  · exact (same (readable_of_ascend? several some)).isSome_iff.mpr some
  · exact (same (readable_of_ascend? one some)).isSome_iff.mp some
  · have readable := readable_of_ascend? one (Option.isSome_of_eq_some ran')
    have outcomes := same readable
    rw [ran, ran'] at outcomes
    obtain ⟨completed, alike⟩ := Option.rel_some_some.mp outcomes
    have data := alike.data.symm
    have after' : migrator.ledger.Ready 0 t' := by
      refine ready_of_ascend? avoids ?_ ?_ ?_ ran'
      · exact (ready readable).mono (Nat.le_add_left 1 runs.length)
      · exact List.forall_mem_singleton.mpr UpTarget.forall_mem_last?_all
      · exact List.forall_mem_singleton.mpr (legible whole (by simp))
    have after : migrator.ledger.Ready 0 t := by
      refine ready_of_ascend? avoids ?_ ?_ ?_ ran
      · rw [parts, List.length_append, List.length_map]
        exact ready readable
      · exact List.forall_mem_append.mpr
          ⟨List.forall_mem_map.mpr fun run member => UpTarget.forall_mem_last?_to.mpr
            (known run member), List.forall_mem_singleton.mpr UpTarget.forall_mem_last?_all⟩
      · exact List.forall_mem_append.mpr
          ⟨List.forall_mem_map.mpr dated, List.forall_mem_singleton.mpr (legible last (by simp))⟩
    have recorded' := recorded_of_ascend?_all written spares ran'
    have recorded : ∀ id ∈ migrator.registry.ids, id ∈ migrator.ledger.recorded t :=
      fun id member => (alike.recorded id).mp (recorded' id member)
    refine ⟨completed.symm, data, fun id => (alike.recorded id).symm, ?_⟩
    rw [List.forall_mem_cons, List.forall_mem_singleton]
    exact ⟨fun target known again => idle_of_recorded after.readable recorded known again,
      fun target known again => idle_of_recorded after'.readable recorded' known again⟩

/-- Three runs to the two migrations, the second of them first, and a run through everything
complete what a single run through everything does. -/
theorem split_up_two :
    let clock : Clock := fun _ => ⟨⟨2025, 1, 3⟩, 8, 0, 0, 0⟩
    let runs : List (String × Clock) :=
      [("20250102-orders", clock), ("20250101-users", clock), ("20250102-orders", clock)]
    ∃ t t', two.ascend? [(.all, clock)] {} = some (["20250101-users", "20250102-orders"], t') ∧
      two.ascend? (parts runs clock) {} = some (["20250101-users", "20250102-orders"], t) ∧
      two.ledger.data t = two.ledger.data t' ∧
      (two.up .all clock).run.run t = (.ok ⟨.up, none, [], none⟩, t) := by
  intro clock runs
  have completed : ∃ left, two.ascend? [(.all, clock)] {} = some left ∧
      left.1 = ["20250101-users", "20250102-orders"] := by decide +kernel
  obtain ⟨⟨_, t'⟩, whole, rfl⟩ := completed
  have written : two.ledger.Written {} := ⟨[], rfl, List.nodup_nil⟩
  have known : ∀ run ∈ runs, run.1 ∈ two.registry.ids := by decide
  have legible : ∀ c ∈ clock :: clock :: runs.map (·.2), ∀ k, (c k).IsLegible := by
    intro c member k
    have same : c = clock := by simpa [runs] using member
    rw [same]
    decide
  have room : ∀ entries, LedgerEntry.ofDocuments (two.ledger.documents {}) = .ok entries →
      LedgerEntry.latestBatch entries + runs.length + 1 < 0x8000000000000000 := by
    intro entries read
    have nothing : entries = [] := by
      refine List.eq_nil_iff_forall_not_mem.mpr fun entry member => ?_
      obtain ⟨document, inside, -⟩ := (LedgerEntry.mem_of_ofDocuments read).mp member
      contradiction
    rw [nothing]
    decide
  obtain ⟨both, same⟩ :=
    split_up written (List.forall_mem_nil _) avoids_two known legible room
  obtain ⟨⟨ids, t⟩, ran⟩ := Option.isSome_iff_exists.mp (both.mpr (Option.isSome_of_eq_some whole))
  obtain ⟨rfl, data, -, idle⟩ := same _ t _ t' ran whole
  obtain ⟨-, again, -⟩ := idle t List.mem_cons_self .all UpTarget.forall_mem_last?_all clock
  exact ⟨t, t', whole, ran, data, again⟩

end Migrator

end Stepwise
