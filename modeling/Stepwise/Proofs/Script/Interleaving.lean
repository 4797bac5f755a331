import Mathlib.Data.List.Induction
import Stepwise.Store.Script

/-!
# Scripts that take turns

Several scripts work on one store. At every turn one of them makes its next call, which is atomic,
and goes on from the answer; which one is left open. `Interleaved` relates the scripts and the store
at the start to those left after some turns. Running the scripts one after the other instead is
`List.mapM`.
-/

namespace Stepwise

variable {ι α : Type}

/-- One call of one of several scripts: whose it is, and the store that it finds. -/
structure Turn (ι : Type) where
  script : ι
  call : Call
  before : Store

namespace Turn

def answer (turn : Turn ι) : Except StoreError turn.call.Answer :=
  (turn.before.perform turn.call).1

/-- The store that the call leaves. -/
def after (turn : Turn ι) : Store :=
  (turn.before.perform turn.call).2

end Turn

/-- What is left of scripts, and their store, after the scripts took turns. -/
inductive Interleaved [DecidableEq ι] (scripts : ι → Script α) (s : Store) :
    List (Turn ι) → (ι → Script α) → Store → Prop where
  | start : Interleaved scripts s [] scripts s
  | turn {turns : List (Turn ι)} {current : ι → Script α} {now : Store} {i : ι} {c : Call}
      {next : Except StoreError c.Answer → Script α} :
      Interleaved scripts s turns current now → current i = .call c next →
      Interleaved scripts s (turns ++ [⟨i, c, now⟩])
        (Function.update current i (next (now.perform c).1)) (now.perform c).2

/-- Scripts that take turns: the turns so far, what is left of the scripts, and their store. -/
structure Play (ι α : Type) where
  turns : List (Turn ι) := []
  current : ι → Script α
  now : Store

namespace Play

variable [DecidableEq ι]

/-- One more turn. That of a script that is done changes nothing. -/
def turn (play : Play ι α) (i : ι) : Play ι α :=
  match play.current i with
  | .done _ => play
  | .call c next =>
    { turns := play.turns ++ [⟨i, c, play.now⟩]
      current := Function.update play.current i (next (play.now.perform c).1)
      now := (play.now.perform c).2 }

/-- The turns that a schedule gives to scripts. -/
def ofSchedule (scripts : ι → Script α) (s : Store) (schedule : List ι) : Play ι α :=
  schedule.foldl turn { current := scripts, now := s }

/-- Taking turns by a schedule is one way of taking turns. -/
theorem interleaved_ofSchedule (scripts : ι → Script α) (s : Store) (schedule : List ι) :
    Interleaved scripts s (ofSchedule scripts s schedule).turns
      (ofSchedule scripts s schedule).current (ofSchedule scripts s schedule).now := by
  induction schedule using List.reverseRecOn with
  | nil => exact .start
  | append_singleton earlier i ih =>
    rw [ofSchedule, List.foldl_append, List.foldl_cons, List.foldl_nil, ← ofSchedule, turn]
    split
    · exact ih
    · next c next call => exact ih.turn call

end Play

namespace Script

/-- The result of a script that has no calls left to make. -/
def result? : Script α → Option α
  | .done result => some result
  | .call .. => none

theorem eq_done_of_result? {script : Script α} {result : α} (ended : script.result? = some result) :
    script = .done result := by
  cases script with
  | done _ => exact congrArg _ (Option.some.inj ended)
  | call c next => contradiction

/-- Running scripts one after the other ends with the run of the last. -/
theorem run_mapM_concat (scripts : ι → Script α) (order : List ι) (i : ι) (s : Store) :
    ((order ++ [i]).mapM scripts).run s =
      let (results, middle) := (order.mapM scripts).run s
      let (result, last) := (scripts i).run middle
      (results ++ [result], last) := by
  rw [List.mapM_append, List.mapM_cons, List.mapM_nil]
  simp only [run, runWith_bind]
  rfl

/-- The scripts outside the list make no difference to it. -/
theorem mapM_update [DecidableEq ι] (scripts : ι → Script α) {order : List ι} {i : ι}
    (outside : i ∉ order) (script : Script α) :
    order.mapM (Function.update scripts i script) = order.mapM scripts := by
  induction order with
  | nil => rfl
  | cons j rest ih =>
    rw [List.mem_cons, not_or] at outside
    obtain ⟨different, absent⟩ := outside
    rw [List.mapM_cons, List.mapM_cons, Function.update_of_ne (Ne.symm different), ih absent]

/-- Scripts that are done have no calls left to make. -/
theorem mapM_done {scripts : ι → Script α} {results : ι → α} {order : List ι}
    (finished : ∀ i ∈ order, scripts i = .done (results i)) :
    order.mapM scripts = .done (order.map results) := by
  induction order with
  | nil => rfl
  | cons i rest ih =>
    obtain ⟨first, others⟩ := List.forall_mem_cons.mp finished
    rw [List.mapM_cons, first, ih others]
    rfl

theorem exists_mapM_done {scripts : ι → Script α} {order : List ι}
    (finished : ∀ i ∈ order, ∃ result, scripts i = .done result) :
    ∃ results, order.mapM scripts = .done results := by
  induction order with
  | nil => exact ⟨[], rfl⟩
  | cons i rest ih =>
    obtain ⟨⟨result, first⟩, others⟩ := List.forall_mem_cons.mp finished
    obtain ⟨results, ended⟩ := ih others
    refine ⟨result :: results, ?_⟩
    rw [List.mapM_cons, first, ended]
    rfl

/-- When all scripts but the last are done, what is left is the run of the last. -/
theorem run_mapM_last [DecidableEq ι] {scripts : ι → Script α} {order : List ι} {i : ι}
    {results : List α} (ended : order.mapM scripts = .done results) (outside : i ∉ order)
    (script : Script α) (s : Store) :
    ((order ++ [i]).mapM (Function.update scripts i script)).run s =
      (results ++ [(script.run s).1], (script.run s).2) := by
  rw [run_mapM_concat, mapM_update scripts outside, ended, Function.update_self]
  rfl

end Script

end Stepwise
