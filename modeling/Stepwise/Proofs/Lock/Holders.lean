import Stepwise.Proofs.Ledger.Key
import Stepwise.Proofs.Lock.Session

/-!
# Who holds a lock

Clients are scripts that acquire, release and force locks of any names in one collection, in any
order, and otherwise do not write to it (`Call.OfLocks`). Nothing is asked of owners: two clients
may use the same one, and release what they do not hold. What happens to the locks while clients
take turns is a list of events, and says who holds which lock (`LockEvent.Holds`). `Guarded` is the
invariant: the documents of the collection are those of the locks that are held.
-/

namespace Stepwise

/-- What happens to a lock. A client can release it whether it holds it or not. -/
inductive LockEvent where
  | acquired (name owner : String)
  | released (name owner : String)
  | forced (name : String)
deriving DecidableEq, Repr

namespace LockEvent

def name : LockEvent → String
  | .acquired name _ | .released name _ | .forced name => name

/-- Whether the owner does not hold the lock after the event because of it. -/
def Ends (event : LockEvent) (name owner : String) : Prop :=
  match event with
  | .acquired other _ | .forced other => name = other
  | .released other releaser => name = other ∧ owner = releaser

instance (name owner : String) : (event : LockEvent) → Decidable (event.Ends name owner)
  | .acquired other _ | .forced other => inferInstanceAs (Decidable (name = other))
  | .released other releaser => inferInstanceAs (Decidable (name = other ∧ owner = releaser))

private theorem Ends.name_eq {event : LockEvent} {name owner : String}
    (ends : event.Ends name owner) : name = event.name := by
  cases event with
  | acquired other acquirer => exact ends
  | released other releaser => exact ends.1
  | forced other => exact ends

/-- Whether the owner is the last that acquired the lock, and neither released it since nor was
forced out of it. -/
def Holds (events : List LockEvent) (name owner : String) : Prop :=
  ∃ before later, events = before ++ .acquired name owner :: later ∧
    ∀ event ∈ later, ¬ event.Ends name owner

/-- Whether the guard that the owner got after the first events is outstanding: the owner has not
released the lock since. -/
def Outstanding (events : List LockEvent) (name owner : String) (first : List LockEvent) : Prop :=
  ∃ later, events = first ++ .acquired name owner :: later ∧ .released name owner ∉ later

/-- An event of a history with one more at its end is that one or one of the others. -/
theorem concat_cases {events before later : List LockEvent} {last event : LockEvent}
    (whole : events ++ [last] = before ++ event :: later) :
    (events = before ∧ last = event ∧ later = []) ∨
    ∃ earlier, events = before ++ event :: earlier ∧ later = earlier ++ [last] := by
  obtain rfl | ⟨earlier, final, rfl⟩ := List.eq_nil_or_concat later
  · obtain ⟨same, ends⟩ := List.append_inj' whole rfl
    exact .inl ⟨same, List.singleton_inj.mp ends, rfl⟩
  · rw [List.concat_eq_append, ← List.cons_append, ← List.append_assoc] at whole
    obtain ⟨same, ends⟩ := List.append_inj' whole rfl
    rw [List.concat_eq_append, List.singleton_inj.mp ends]
    exact .inr ⟨earlier, same, rfl⟩

theorem not_holds_nil (name owner : String) : ¬ Holds [] name owner := by
  rintro ⟨before, later, whole, -⟩
  exact List.append_ne_nil_of_right_ne_nil before (List.cons_ne_nil _ later) whole.symm

theorem holds_concat {events : List LockEvent} {event : LockEvent} {name owner : String} :
    Holds (events ++ [event]) name owner ↔
      event = .acquired name owner ∨ Holds events name owner ∧ ¬ event.Ends name owner := by
  constructor
  · rintro ⟨before, later, whole, since⟩
    obtain ⟨-, same, -⟩ | ⟨earlier, rfl, rfl⟩ := concat_cases whole
    · exact .inl same
    · rw [List.forall_mem_append, List.forall_mem_singleton] at since
      exact .inr ⟨⟨before, earlier, rfl, since.1⟩, since.2⟩
  · rintro (rfl | ⟨⟨before, later, rfl, since⟩, last⟩)
    · exact ⟨events, [], rfl, List.forall_mem_nil _⟩
    · refine ⟨before, later ++ [event], List.append_assoc .., ?_⟩
      rw [List.forall_mem_append, List.forall_mem_singleton]
      exact ⟨since, last⟩

/-- Whether no lock is acquired while it is held. -/
def Exclusive (events : List LockEvent) : Prop :=
  ∀ before name owner later, events = before ++ .acquired name owner :: later →
    ∀ other, ¬ Holds before name other

private theorem Exclusive.concat {events : List LockEvent} {event : LockEvent}
    (exclusive : Exclusive events)
    (free : ∀ name owner, event = .acquired name owner → ∀ other, ¬ Holds events name other) :
    Exclusive (events ++ [event]) := by
  intro before name owner later whole
  obtain ⟨rfl, same, -⟩ | ⟨earlier, same, -⟩ := concat_cases whole
  · exact free name owner same
  · exact exclusive before name owner earlier same

/-- A lock that is never forced, and never acquired while it is held, is not acquired while a guard
is outstanding. -/
theorem Exclusive.not_acquired {first later : List LockEvent} {name owner : String}
    (exclusive : Exclusive (first ++ .acquired name owner :: later))
    (unforced : .forced name ∉ later) (unreleased : .released name owner ∉ later) (other : String) :
    .acquired name other ∉ later := by
  induction later using List.reverseRecOn generalizing other with
  | nil => exact List.not_mem_nil
  | append_singleton later last ih =>
    rw [List.mem_append, not_or] at unforced unreleased ⊢
    have whole : first ++ .acquired name owner :: (later ++ [last]) =
        (first ++ .acquired name owner :: later) ++ [last] :=
      (List.append_assoc first (.acquired name owner :: later) [last]).symm
    have earlier := ih (fun before n o after same => exclusive before n o (after ++ [last])
      (by rw [whole, same, List.append_assoc, List.cons_append])) unforced.1 unreleased.1
    refine ⟨earlier other, fun also => ?_⟩
    rw [← List.mem_singleton.mp also] at whole exclusive
    refine exclusive (first ++ .acquired name owner :: later) name other [] whole owner
      ⟨first, later, rfl, fun event member ends => ?_⟩
    cases event with
    | acquired lock acquirer =>
      obtain rfl : name = lock := ends
      exact earlier acquirer member
    | released lock releaser =>
      obtain ⟨rfl, rfl⟩ : name = lock ∧ owner = releaser := ends
      exact unreleased.1 member
    | forced lock =>
      obtain rfl : name = lock := ends
      exact unforced.1 member

/-- Of a lock that is never forced, and never acquired while it is held, at most one guard is
outstanding. -/
theorem Exclusive.outstanding {events : List LockEvent} (exclusive : Exclusive events)
    {name a b : String} {first second : List LockEvent} (unforced : .forced name ∉ events)
    (one : Outstanding events name a first) (other : Outstanding events name b second) :
    first = second := by
  have apart {a b : String} {first between later : List LockEvent}
      (whole : events = first ++ .acquired name a :: (between ++ .acquired name b :: later))
      (unreleased : .released name a ∉ between ++ .acquired name b :: later) : False := by
    rw [whole] at exclusive unforced
    rw [List.mem_append, List.mem_cons, not_or, not_or] at unforced
    exact exclusive.not_acquired unforced.2.2 unreleased b
      (List.mem_append_right _ List.mem_cons_self)
  obtain ⟨later, whole, unreleased⟩ := one
  obtain ⟨later', whole', unreleased'⟩ := other
  obtain ⟨between, rfl, rest⟩ | ⟨between, rfl, rest⟩ :=
    List.append_eq_append_iff.mp (whole.symm.trans whole')
  · cases between with
    | nil => exact (List.append_nil _).symm
    | cons event between =>
      obtain ⟨rfl, rfl⟩ := List.cons.inj rest
      exact (apart whole unreleased).elim
  · cases between with
    | nil => exact List.append_nil _
    | cons event between =>
      obtain ⟨rfl, rfl⟩ := List.cons.inj rest
      exact (apart whole' unreleased').elim

end LockEvent

/-- Whether a call is one that acquiring, releasing or forcing a lock in the collection makes, or
does not write to the collection. -/
inductive Call.OfLocks (collection : String) : Call → Prop
  | acquire (name owner : String) (since : Instant) :
      OfLocks collection (.insert collection (RunLock.document ⟨collection, name⟩ owner since))
  | release (name owner : String) :
      OfLocks collection (.deleteFirst collection (RunLock.filterOwned ⟨collection, name⟩ owner))
  | force (name : String) :
      OfLocks collection (.deleteFirst collection (RunLock.filter ⟨collection, name⟩))
  | aside {c : Call} : (c.isWrite = true → c.collection ≠ collection) → OfLocks collection c

/-- What a turn does to a lock in the collection. -/
def Turn.lockEvent? {ι : Type} (collection : String) (turn : Turn ι) : Option LockEvent :=
  if turn.call.collection = collection then
    match turn.call with
    | .insert _ [(_, .str name), (_, .str owner), _] =>
      if turn.answer.isOk then some (.acquired name owner) else none
    | .deleteFirst _ [(_, .str name), (_, .str owner)] => some (.released name owner)
    | .deleteFirst _ [(_, .str name)] => some (.forced name)
    | _ => none
  else none

namespace Turn

variable {ι : Type} {i : ι} {collection name owner : String} {since : Instant} {now : Store}

private theorem lockEvent?_acquire :
    lockEvent? collection
        ⟨i, .insert collection (RunLock.document ⟨collection, name⟩ owner since), now⟩ =
      if (now.perform (.insert collection (RunLock.document ⟨collection, name⟩ owner since))).1.isOk
      then some (.acquired name owner) else none := by
  unfold lockEvent?
  exact if_pos rfl

private theorem lockEvent?_release :
    lockEvent? collection
        ⟨i, .deleteFirst collection (RunLock.filterOwned ⟨collection, name⟩ owner), now⟩ =
      some (.released name owner) := by
  unfold lockEvent?
  exact if_pos rfl

private theorem lockEvent?_force :
    lockEvent? collection ⟨i, .deleteFirst collection (RunLock.filter ⟨collection, name⟩), now⟩ =
      some (.forced name) := by
  unfold lockEvent?
  exact if_pos rfl

private theorem lockEvent?_aside {c : Call}
    (spared : c.isWrite = true → c.collection ≠ collection) :
    lockEvent? collection ⟨i, c, now⟩ = none := by
  rw [lockEvent?]
  split
  · next same =>
    cases c with
    | insert | deleteFirst => exact absurd same (spared rfl)
    | _ => rfl
  · rfl

end Turn

namespace RunLock

variable {α : Type} (lock : RunLock)

/-- Acquiring a lock is one call if it succeeds, and otherwise a look at who holds it. -/
theorem acquire_eq (owner : String) (since : Instant) :
    (lock.acquire owner since).run = .call (.insert lock.collection (lock.document owner since)) fun
      | .ok () => .done (.ok ())
      | .error (.duplicateKey ..) => lock.held >>= fun reason => .done (.error reason)
      | .error cause => .done (.error (.store cause)) := by
  refine congrArg (Script.call _) (funext fun answer => ?_)
  cases answer with
  | error cause => cases cause <;> rfl
  | ok _ => rfl

private theorem release_eq (owner : String) :
    (lock.release owner).run = .call (.deleteFirst lock.collection (lock.filterOwned owner))
      fun answer => .done ((answer.mapError .store).map fun _ => ()) := by
  refine congrArg (Script.call _) (funext fun answer => ?_)
  cases answer <;> rfl

private theorem force_eq : lock.force.run = .call (.deleteFirst lock.collection lock.filter)
    fun answer => .done (answer.mapError .store) :=
  rfl

private theorem calls_held : lock.held.Calls (Call.OfLocks lock.collection) :=
  ⟨.aside nofun, fun _ => trivial⟩

private theorem calls_acquire (owner : String) (since : Instant) :
    (lock.acquire owner since).run.Calls (Call.OfLocks lock.collection) := by
  rw [acquire_eq]
  refine ⟨.acquire lock.name owner since, fun answer => ?_⟩
  dsimp only
  split
  · trivial
  · exact lock.calls_held.bind fun _ => trivial
  · trivial

private theorem calls_release (owner : String) :
    (lock.release owner).run.Calls (Call.OfLocks lock.collection) :=
  Attempt.calls_bind (Attempt.calls_request (.release lock.name owner)) fun _ => trivial

private theorem calls_force : lock.force.run.Calls (Call.OfLocks lock.collection) :=
  Attempt.calls_request (.force lock.name)

/-- The documents of the lock. -/
def present (s : Store) : List Document :=
  (s.collection lock.collection).documents.filter (·.id? = some (.str lock.name))

end RunLock

/-- A lock that is held. -/
structure Holding where
  name : String
  owner : String
  since : Instant

namespace Holding

variable {collection : String} {holdings : List Holding}

/-- The document of a lock that is held. -/
def document (collection : String) (holding : Holding) : Document :=
  RunLock.document ⟨collection, holding.name⟩ holding.owner holding.since

private theorem passes_filter (name : String) (holding : Holding) :
    (RunLock.filter ⟨collection, name⟩).passes (holding.document collection) =
      decide (holding.name = name) := by
  rw [Bool.eq_iff_iff, RunLock.filter, Filter.passes_onId, decide_eq_true_eq]
  show some (Value.str holding.name) = some (.str name) ↔ _
  rw [Option.some.injEq, Value.str.injEq]

private theorem passes_filterOwned (name owner : String) (holding : Holding) :
    (RunLock.filterOwned ⟨collection, name⟩ owner).passes (holding.document collection) =
      decide (holding.name = name ∧ holding.owner = owner) := by
  have owned : Filter.passes [("owner", .str owner)] (holding.document collection) =
      decide (holding.owner = owner) := by
    have place : Path.parse "owner" = ⟨"owner", []⟩ := by decide
    rw [Filter.passes, List.all_cons, List.all_nil, Bool.and_true]
    dsimp only
    rw [place, Bool.eq_iff_iff, decide_eq_true_eq]
    exact decide_eq_true_iff.trans Value.str_equiv
  rw [RunLock.filterOwned, Filter.passes, List.all_append, ← Filter.passes, ← Filter.passes,
    passes_filter, owned, Bool.decide_and]

/-- A lock is taken unless it is held. -/
theorem perform_insert {s : Store}
    (contents : s.collection collection = { documents := holdings.map (·.document collection) })
    (name owner : String) (since : Instant) :
    let taking : Call := .insert collection (RunLock.document ⟨collection, name⟩ owner since)
    (name ∈ holdings.map (·.name) ∧ ∃ key,
      s.perform taking = (.error (.duplicateKey collection key), s.counted)) ∨
    (name ∉ holdings.map (·.name) ∧
      s.perform taking = (.ok (), s.counted.put collection
        { documents :=
            (holdings ++ [Holding.mk name owner since]).map (·.document collection) })) := by
  intro taking
  have own : Fields.id? (RunLock.document ⟨collection, name⟩ owner since) = some (.str name) := rfl
  have taken : (s.collection collection).hasId (.str name) = true ↔
      name ∈ holdings.map (·.name) := by
    rw [contents, Collection.hasId, List.any_map, List.any_eq_true, List.mem_map]
    refine exists_congr fun holding => and_congr_right fun _ => ?_
    exact decide_eq_true_iff.trans Value.str_equiv
  have allowed : (s.collection collection).violated?
      (RunLock.document ⟨collection, name⟩ owner since) = none := by
    rw [contents]
    rfl
  rw [Store.perform, Store.insert_of_id? own]
  obtain ⟨refusal, key, refused⟩ | ⟨free, -, added⟩ := s.counted.add_cases collection
    (.str name) (RunLock.document ⟨collection, name⟩ owner since)
  · exact .inl ⟨taken.mp (refusal.resolve_right (not_not_intro allowed)), key, refused⟩
  · have before : s.counted.collection collection =
        { documents := holdings.map (·.document collection) } := contents
    refine .inr ⟨?_, ?_⟩
    · rw [← taken, Bool.not_eq_true]
      exact free
    · rw [added, before, List.map_append]
      rfl

/-- An owner that took a lock gives it back, and the others are as they were. -/
theorem perform_release {s : Store} {name owner : String} {since : Instant}
    (contents : s.collection collection =
      { documents := (holdings ++ [Holding.mk name owner since]).map (·.document collection) })
    (free : name ∉ holdings.map (·.name)) :
    (s.perform (.deleteFirst collection (RunLock.filterOwned ⟨collection, name⟩ owner))).2 =
      s.counted.put collection { documents := holdings.map (·.document collection) } := by
  have own : (RunLock.filterOwned ⟨collection, name⟩ owner).passes
      (Holding.document collection ⟨name, owner, since⟩) = true := by
    rw [passes_filterOwned]
    exact decide_eq_true ⟨rfl, rfl⟩
  have others : ∀ document ∈ holdings.map (·.document collection),
      ¬ (RunLock.filterOwned ⟨collection, name⟩ owner).passes document = true := by
    refine List.forall_mem_map.mpr fun holding member passes => free ?_
    rw [passes_filterOwned, decide_eq_true_eq] at passes
    rw [← passes.1]
    exact List.mem_map_of_mem member
  rw [List.map_append, List.map_singleton] at contents
  rw [Store.perform, Store.deleteFirst_eq, contents, List.any_append, List.any_cons, own,
    Bool.true_or, Bool.or_true, if_pos rfl, List.eraseP_append_right _ others,
    List.eraseP_cons_of_pos own, List.append_nil]

/-- Who is asked for the holder of a lock tells the owner and the instant. -/
theorem run_held {s : Store} {name : String} {holding : Holding}
    (contents : s.collection collection = { documents := holdings.map (·.document collection) })
    (holder : holdings.find? (·.name = name) = some holding) :
    (RunLock.held ⟨collection, name⟩).run s =
      (.lockHeld name holding.owner holding.since.storedText, s) := by
  have found : ((s.collection collection).documents.filter
      (RunLock.filter ⟨collection, name⟩).passes).head? = some (holding.document collection) := by
    have same : (RunLock.filter ⟨collection, name⟩).passes ∘ (·.document collection) =
        fun holding : Holding => decide (holding.name = name) := funext (passes_filter name)
    rw [contents, List.head?_filter, List.find?_map, same, holder]
    rfl
  show (MigrationError.lockHeld name (RunLock.shownField (List.head? _) "owner")
    (RunLock.shownField (List.head? _) "acquired_at"), s) = _
  rw [found]
  rfl

/-- Of holdings of different locks, only one can be of the name. -/
theorem eraseP_eq_filter (nodup : (holdings.map (·.name)).Nodup) {p : Holding → Bool}
    {name : String} (only : ∀ holding, p holding → holding.name = name) :
    holdings.eraseP p = holdings.filter (!p ·) := by
  induction holdings with
  | nil => rfl
  | cons holding rest ih =>
    rw [List.map_cons, List.nodup_cons] at nodup
    obtain ⟨fresh, others⟩ := nodup
    rw [List.eraseP_cons, List.filter_cons]
    cases here : p holding with
    | false => simp only [Bool.not_false, cond_false, ↓reduceIte, ih others]
    | true =>
      have stay : rest.filter (!p ·) = rest := by
        refine List.filter_eq_self.mpr fun other member => ?_
        rw [Bool.not_eq_true', Bool.eq_false_iff]
        intro also
        rw [only holding here, ← only other also] at fresh
        exact fresh (List.mem_map_of_mem member)
      simp only [Bool.not_true, cond_true, Bool.false_eq_true, ↓reduceIte, stay]

/-- Taking away holdings of one lock leaves those of another. -/
theorem filter_filter {p : Holding → Prop} [DecidablePred p] {name other : String}
    (only : ∀ holding, p holding → holding.name = name) (apart : name ≠ other) :
    (holdings.filter (¬ p ·)).filter (·.name = other) = holdings.filter (·.name = other) := by
  rw [List.filter_filter]
  refine List.filter_congr fun holding _ => ?_
  rw [Bool.and_eq_left_iff_imp, decide_eq_true_eq, decide_eq_true_eq]
  rintro rfl taken
  exact apart (only holding taken).symm

end Holding

/-- Whether the documents of a collection are those of the locks that are held after the events. -/
structure Guarded (collection : String) (events : List LockEvent) (holdings : List Holding)
    (s : Store) : Prop where
  contents : s.collection collection = { documents := holdings.map (·.document collection) }
  nodup : (holdings.map (·.name)).Nodup
  holds : ∀ name owner, LockEvent.Holds events name owner ↔
    ∃ since, ⟨name, owner, since⟩ ∈ holdings
  exclusive : LockEvent.Exclusive events

namespace Guarded

variable {collection : String} {events : List LockEvent} {holdings : List Holding} {s : Store}

/-- Before the first event no lock is held. -/
theorem start (untouched : s.collection collection = {}) : Guarded collection [] [] s where
  contents := untouched
  nodup := List.nodup_nil
  holds := fun name owner => iff_of_false (LockEvent.not_holds_nil name owner) nofun
  exclusive := by
    intro before name owner later whole
    exact absurd whole.symm (List.append_ne_nil_of_right_ne_nil before (List.cons_ne_nil _ later))

/-- What leaves the documents as they are leaves the locks as they are. -/
theorem congr {t : Store} (guarded : Guarded collection events holdings s)
    (same : t.collection collection = s.collection collection) :
    Guarded collection events holdings t :=
  { guarded with contents := same.trans guarded.contents }

/-- The documents of a lock are those of the holdings of its name. -/
theorem present_eq (guarded : Guarded collection events holdings s) (name : String) :
    RunLock.present ⟨collection, name⟩ s =
      (holdings.filter (·.name = name)).map (·.document collection) := by
  have own (holding : Holding) :
      decide (Fields.id? (holding.document collection) = some (.str name)) =
        decide (holding.name = name) := by
    refine decide_eq_decide.mpr ?_
    show some (Value.str holding.name) = some (.str name) ↔ _
    rw [Option.some.injEq, Value.str.injEq]
  rw [RunLock.present, guarded.contents, List.filter_map]
  refine congrArg _ (List.filter_congr fun holding _ => ?_)
  exact own holding

private theorem present_eq_nil (guarded : Guarded collection events holdings s) (name : String) :
    RunLock.present ⟨collection, name⟩ s = [] ↔ name ∉ holdings.map (·.name) := by
  rw [guarded.present_eq, List.map_eq_nil_iff, List.filter_eq_nil_iff, List.mem_map]
  simp only [decide_eq_true_eq, not_exists, not_and]

/-- A lock is held by one owner, whose document is the only one of the lock, or by none. -/
theorem present_cases (guarded : Guarded collection events holdings s) (name : String) :
    (RunLock.present ⟨collection, name⟩ s = [] ∧ ∀ owner, ¬ LockEvent.Holds events name owner) ∨
    ∃ owner since, RunLock.present ⟨collection, name⟩ s =
        [RunLock.document ⟨collection, name⟩ owner since] ∧
      ∀ other, LockEvent.Holds events name other ↔ other = owner := by
  by_cases held : name ∈ holdings.map (·.name)
  · obtain ⟨holding, member, rfl⟩ := List.mem_map.mp held
    obtain ⟨first, last, rfl⟩ := List.append_of_mem member
    have nodup := guarded.nodup
    rw [List.map_append, List.map_cons, List.nodup_middle, List.nodup_cons, ← List.map_append]
      at nodup
    have others : ∀ other ∈ first ++ last, other.name ≠ holding.name := by
      intro other inside same
      exact nodup.1 (same ▸ List.mem_map_of_mem inside)
    rw [List.forall_mem_append] at others
    have none (part : List Holding) (apart : ∀ other ∈ part, other.name ≠ holding.name) :
        part.filter (·.name = holding.name) = [] := by
      simpa only [List.filter_eq_nil_iff, decide_eq_true_eq] using apart
    refine .inr ⟨holding.owner, holding.since, ?_, fun owner => ?_⟩
    · rw [guarded.present_eq, List.filter_append, List.filter_cons, none first others.1,
        none last others.2, decide_eq_true rfl]
      rfl
    · rw [guarded.holds]
      constructor
      · rintro ⟨since, inside⟩
        obtain before | same | after :
            _ ∈ first ∨ ⟨holding.name, owner, since⟩ = holding ∨ _ ∈ last := by
          simpa only [List.mem_append, List.mem_cons] using inside
        · exact (others.1 _ before rfl).elim
        · exact congrArg Holding.owner same
        · exact (others.2 _ after rfl).elim
      · rintro rfl
        exact ⟨holding.since, member⟩
  · refine .inl ⟨(guarded.present_eq_nil name).mpr held, fun owner holds => held ?_⟩
    obtain ⟨since, inside⟩ := (guarded.holds name owner).mp holds
    exact List.mem_map_of_mem inside

/-- No two owners hold a lock. -/
theorem holds_unique (guarded : Guarded collection events holdings s) {name a b : String}
    (first : LockEvent.Holds events name a) (second : LockEvent.Holds events name b) : a = b := by
  obtain ⟨-, none⟩ | ⟨owner, since, -, holder⟩ := guarded.present_cases name
  · exact absurd first (none a)
  · rw [(holder a).mp first, (holder b).mp second]

/-- A lock is acquired unless a document of it is there; a refusal changes nothing. -/
theorem acquire (guarded : Guarded collection events holdings s) (name owner : String)
    (since : Instant) :
    let lock : RunLock := ⟨collection, name⟩
    (name ∈ holdings.map (·.name) ∧ ∃ key,
      s.perform (.insert collection (lock.document owner since)) =
        (.error (.duplicateKey collection key), s.counted)) ∨
    (name ∉ holdings.map (·.name) ∧ ∃ t,
      s.perform (.insert collection (lock.document owner since)) = (.ok (), t) ∧
      Guarded collection (events ++ [.acquired name owner]) (holdings ++ [⟨name, owner, since⟩])
        t) := by
  intro lock
  obtain refused | ⟨absent, added⟩ := Holding.perform_insert guarded.contents name owner since
  · exact .inl refused
  · refine .inr ⟨absent, _, added, ?_, ?_, fun other acquirer => ?_, ?_⟩
    case _ =>
      rw [Store.collection_put, if_pos rfl]
    case _ =>
      rw [List.map_append, List.map_singleton, ← List.concat_eq_append]
      exact guarded.nodup.concat absent
    case _ =>
      simp only [LockEvent.holds_concat, LockEvent.acquired.injEq, guarded.holds, List.mem_append,
        List.mem_singleton, Holding.mk.injEq, exists_or]
      constructor
      · rintro (⟨rfl, rfl⟩ | ⟨before, -⟩)
        · exact .inr ⟨since, rfl, rfl, rfl⟩
        · exact .inl before
      · rintro (⟨since', before⟩ | ⟨-, rfl, rfl, -⟩)
        · refine .inr ⟨⟨since', before⟩, fun same => absent ?_⟩
          obtain rfl : other = name := same
          exact List.mem_map_of_mem before
        · exact .inl ⟨rfl, rfl⟩
    case _ =>
      refine guarded.exclusive.concat fun lock acquirer same other holds => absent ?_
      cases same
      obtain ⟨since', inside⟩ := (guarded.holds name other).mp holds
      exact List.mem_map_of_mem inside

/-- Deleting by a filter that passes the documents of the owners whose time an event ends makes that
event happen. -/
theorem delete (guarded : Guarded collection events holdings s) (event : LockEvent)
    (deletes : ∀ name owner, event ≠ .acquired name owner) {filter : Filter}
    (passes : ∀ holding : Holding, filter.passes (holding.document collection) =
      decide (event.Ends holding.name holding.owner)) :
    ∃ t, s.perform (.deleteFirst collection filter) =
        (.ok (holdings.any fun holding => event.Ends holding.name holding.owner), t) ∧
      Guarded collection (events ++ [event])
        (holdings.filter fun holding => ¬ event.Ends holding.name holding.owner) t ∧
      ((∀ holding ∈ holdings, ¬ event.Ends holding.name holding.owner) →
        t.collections = s.collections) := by
  let ends : Holding → Bool := fun holding => event.Ends holding.name holding.owner
  have found : (s.collection collection).documents.any filter.passes = holdings.any ends := by
    rw [guarded.contents, List.any_map]
    exact congrArg _ (funext passes)
  have left : (s.collection collection).documents.eraseP filter.passes =
      (holdings.filter (!ends ·)).map (·.document collection) := by
    rw [guarded.contents, List.eraseP_map]
    have same : filter.passes ∘ (·.document collection) = ends := funext passes
    rw [same, Holding.eraseP_eq_filter guarded.nodup fun holding ended =>
      (of_decide_eq_true ended : event.Ends holding.name holding.owner).name_eq]
  have kept : holdings.filter (!ends ·) =
      holdings.filter fun holding => ¬ event.Ends holding.name holding.owner :=
    List.filter_congr fun holding _ => (decide_not ..).symm
  have after {t : Store} (contents : t.collection collection =
      { documents := (holdings.filter (!ends ·)).map (·.document collection) }) :
      Guarded collection (events ++ [event])
        (holdings.filter fun holding => ¬ event.Ends holding.name holding.owner) t := by
    refine ⟨kept ▸ contents, guarded.nodup.sublist (List.filter_sublist.map _),
      fun name owner => ?_, guarded.exclusive.concat fun name owner same => ?_⟩
    · rw [LockEvent.holds_concat, or_iff_right (deletes name owner), guarded.holds]
      simp only [List.mem_filter, decide_eq_true_eq, exists_and_right]
    · exact absurd same (deletes name owner)
  rw [Store.perform, Store.deleteFirst_eq, found, left]
  split
  · next some =>
    refine ⟨_, congrArg (Except.ok ·, _) some.symm, after ?_, fun none => ?_⟩
    · rw [Store.collection_put, if_pos rfl, guarded.contents]
    · obtain ⟨holding, member, ended⟩ := List.any_eq_true.mp some
      exact absurd (of_decide_eq_true ended) (none holding member)
  · next none =>
    have all : holdings.filter (!ends ·) = holdings := by
      rw [Bool.not_eq_true, List.any_eq_false] at none
      exact List.filter_eq_self.mpr fun holding member => by simpa using none holding member
    refine ⟨_, congrArg (Except.ok ·, _) (Bool.eq_false_iff.mpr none).symm, after ?_, fun _ => rfl⟩
    rw [all]
    exact guarded.contents

private theorem release (guarded : Guarded collection events holdings s) (name owner : String) :
    ∃ t, s.perform (.deleteFirst collection (RunLock.filterOwned ⟨collection, name⟩ owner)) =
        (.ok (holdings.any fun holding => holding.name = name ∧ holding.owner = owner), t) ∧
      Guarded collection (events ++ [.released name owner])
        (holdings.filter fun holding => ¬ (holding.name = name ∧ holding.owner = owner)) t ∧
      ((∀ holding ∈ holdings, ¬ (holding.name = name ∧ holding.owner = owner)) →
        t.collections = s.collections) :=
  guarded.delete (.released name owner) nofun (Holding.passes_filterOwned name owner)

private theorem force (guarded : Guarded collection events holdings s) (name : String) :
    ∃ t, s.perform (.deleteFirst collection (RunLock.filter ⟨collection, name⟩)) =
        (.ok (holdings.any fun holding => holding.name = name), t) ∧
      Guarded collection (events ++ [.forced name])
        (holdings.filter fun holding => ¬ holding.name = name) t ∧
      ((∀ holding ∈ holdings, ¬ holding.name = name) → t.collections = s.collections) :=
  guarded.delete (.forced name) nofun (Holding.passes_filter name)

end Guarded

/-- What is left of a script after its next call, and the store that the call leaves. -/
def Script.advance {α : Type} : Script α → Store → Script α × Store
  | .done result, s => (.done result, s)
  | .call c next, s => (next (s.perform c).1, (s.perform c).2)

private theorem Script.advance_bind {α β : Type} (c : Call)
    (next : Except StoreError c.Answer → Script α) (rest : α → Script β) (s : Store) :
    (.call c next >>= rest).advance s = (next (s.perform c).1 >>= rest, (s.perform c).2) :=
  rfl

namespace Guarded

variable {collection : String} {events : List LockEvent} {holdings : List Holding} {s : Store}
  {α : Type}

/-- A client that comes to acquire a lock gets it if the lock has no document. Otherwise it is left
to look who holds it, and nothing changes. -/
theorem advance_acquire (guarded : Guarded collection events holdings s) (name owner : String)
    (since : Instant) (rest : Except MigrationError Unit → Script α) :
    let lock : RunLock := ⟨collection, name⟩
    let (left, after) := ((lock.acquire owner since).run >>= rest).advance s
    (lock.present s = [] → left = rest (.ok ()) ∧
      lock.present after = [lock.document owner since]) ∧
    (lock.present s ≠ [] → left = (lock.held >>= fun reason => rest (.error reason)) ∧
      after.collections = s.collections) := by
  intro lock
  rw [RunLock.acquire_eq, Script.advance_bind, ne_eq, guarded.present_eq_nil, not_not]
  obtain ⟨held, key, refused⟩ | ⟨free, t, taken, after⟩ := guarded.acquire name owner since
  · rw [refused]
    refine ⟨fun free => absurd held free, fun _ => ⟨?_, rfl⟩⟩
    exact bind_assoc ..
  · rw [taken]
    refine ⟨fun _ => ⟨rfl, ?_⟩, fun held => absurd held free⟩
    have none : holdings.filter (·.name = name) = [] := by
      rw [← List.map_eq_nil_iff, ← guarded.present_eq, guarded.present_eq_nil]
      exact free
    rw [after.present_eq, List.filter_append, none, List.filter_cons, decide_eq_true rfl]
    rfl

/-- A client that comes to release a lock goes on. The document is gone if the owner held the lock,
and nothing changes otherwise. -/
theorem advance_release (guarded : Guarded collection events holdings s) (name owner : String)
    (rest : Except MigrationError Unit → Script α) :
    let lock : RunLock := ⟨collection, name⟩
    let (left, after) := ((lock.release owner).run >>= rest).advance s
    left = rest (.ok ()) ∧
      (LockEvent.Holds events name owner → lock.present after = []) ∧
      (¬ LockEvent.Holds events name owner → after.collections = s.collections) := by
  intro lock
  obtain ⟨t, released, after, same⟩ := guarded.release name owner
  rw [RunLock.release_eq, Script.advance_bind, released]
  refine ⟨rfl, fun holds => ?_, fun free => same fun holding member => ?_⟩
  · obtain ⟨none, -⟩ | ⟨other, since, -, holder⟩ := after.present_cases name
    · exact none
    · have still := (holder other).mpr rfl
      rw [LockEvent.holds_concat] at still
      obtain ⟨before, apart⟩ := still.resolve_left nofun
      exact absurd ⟨rfl, guarded.holds_unique before holds⟩ apart
  · rintro ⟨rfl, rfl⟩
    exact free ((guarded.holds _ _).mpr ⟨holding.since, member⟩)

/-- A client that comes to force a lock goes on, and the document is gone. -/
theorem advance_force (guarded : Guarded collection events holdings s) (name : String)
    (rest : Except MigrationError Bool → Script α) :
    let lock : RunLock := ⟨collection, name⟩
    let (left, after) := (lock.force.run >>= rest).advance s
    left = rest (.ok (lock.present s ≠ [])) ∧ lock.present after = [] := by
  intro lock
  obtain ⟨t, forced, after, -⟩ := guarded.force name
  have found : (holdings.any fun holding => holding.name = name) =
      decide (lock.present s ≠ []) := by
    rw [Bool.eq_iff_iff, decide_eq_true_eq, ne_eq, guarded.present_eq_nil, not_not, List.mem_map,
      List.any_eq_true]
    simp only [decide_eq_true_eq]
  have gone : name ∉ (holdings.filter fun holding => ¬ holding.name = name).map (·.name) := by
    simp
  rw [RunLock.force_eq, Script.advance_bind, forced, found]
  exact ⟨rfl, (after.present_eq_nil name).mpr gone⟩

end Guarded

namespace Guarded

variable {collection : String} {events : List LockEvent} {holdings : List Holding} {s : Store}

/-- A turn keeps the locks guarded, and leaves alone those to which nothing happens. -/
theorem turn {ι : Type} (guarded : Guarded collection events holdings s) (i : ι) {c : Call}
    (kind : Call.OfLocks collection c) :
    ∃ left, Guarded collection (events ++ (Turn.lockEvent? collection ⟨i, c, s⟩).toList) left
        (s.perform c).2 ∧
      ∀ name, (∀ event, Turn.lockEvent? collection ⟨i, c, s⟩ = some event → event.name ≠ name) →
        left.filter (·.name = name) = holdings.filter (·.name = name) := by
  cases kind with
  | acquire name owner since =>
    rw [Turn.lockEvent?_acquire]
    obtain ⟨-, key, refused⟩ | ⟨-, t, taken, after⟩ := guarded.acquire name owner since
    · rw [refused]
      exact ⟨holdings, (List.append_nil events).symm ▸ guarded.congr rfl, fun _ _ => rfl⟩
    · rw [taken]
      refine ⟨_, after, fun other apart => ?_⟩
      have different : name ≠ other := apart _ rfl
      rw [List.filter_append, List.filter_cons_of_neg (by simpa using different),
        List.filter_nil, List.append_nil]
  | release name owner =>
    rw [Turn.lockEvent?_release]
    obtain ⟨t, released, after, -⟩ := guarded.release name owner
    rw [released]
    exact ⟨_, after, fun other apart => Holding.filter_filter (fun _ => And.left) (apart _ rfl)⟩
  | force name =>
    rw [Turn.lockEvent?_force]
    obtain ⟨t, forced, after, -⟩ := guarded.force name
    rw [forced]
    exact ⟨_, after, fun other apart => Holding.filter_filter (fun _ => id) (apart _ rfl)⟩
  | aside spared =>
    rw [Turn.lockEvent?_aside spared]
    refine ⟨holdings, (List.append_nil events).symm ▸ guarded.congr ?_, fun _ _ => rfl⟩
    exact s.collection_perform_of_spared spared

end Guarded

/-- While clients take turns, their locks are guarded, and a turn leaves alone the locks to which
nothing happens. -/
theorem Interleaved.guarded {ι α : Type} [DecidableEq ι] {clients current : ι → Script α}
    {collection : String} {s now : Store} {turns : List (Turn ι)}
    (untouched : s.collection collection = {})
    (uses : ∀ i, (clients i).Calls (Call.OfLocks collection))
    (ran : Interleaved clients s turns current now) :
    (∀ i, (current i).Calls (Call.OfLocks collection)) ∧
    (∃ holdings, Guarded collection (turns.filterMap (·.lockEvent? collection)) holdings now) ∧
    ∀ turn ∈ turns, ∀ name,
      (∀ event, turn.lockEvent? collection = some event → event.name ≠ name) →
        RunLock.present ⟨collection, name⟩ turn.after =
          RunLock.present ⟨collection, name⟩ turn.before := by
  induction ran with
  | start => exact ⟨uses, ⟨[], .start untouched⟩, List.forall_mem_nil _⟩
  | @turn turns current now i c next _ call ih =>
    obtain ⟨kinds, ⟨holdings, guarded⟩, frame⟩ := ih
    have kind := kinds i
    rw [call] at kind
    obtain ⟨left, after, alone⟩ := guarded.turn i kind.1
    refine ⟨fun j => ?_, ⟨left, ?_⟩, ?_⟩
    · by_cases own : j = i
      · subst own
        rw [Function.update_self]
        exact kind.2 _
      · rw [Function.update_of_ne own]
        exact kinds j
    · rw [List.filterMap_append, List.filterMap_cons, List.filterMap_nil]
      cases happens : Turn.lockEvent? collection ⟨i, c, now⟩ <;> rw [happens] at after <;>
        exact after
    · rw [List.forall_mem_append, List.forall_mem_singleton]
      refine ⟨frame, fun name apart => ?_⟩
      rw [Turn.after, after.present_eq, guarded.present_eq, alone name apart]

/-- Locks are safe whatever clients do with them, in whatever order. A turn that is about one lock
leaves the others alone. At any time a lock has one document and its owner holds the lock, or it has
none and no one holds it; unless it was forced before, at most one guard of it is outstanding. A
client that comes to acquire the lock gets it if there is no document, and otherwise changes
nothing. One that comes to release it deletes the document if its owner holds the lock, and
otherwise changes nothing. One that comes to force it deletes the document. -/
theorem RunLock.protocol {ι α : Type} [DecidableEq ι] {clients current : ι → Script α}
    {collection : String} {s now : Store} {turns : List (Turn ι)}
    (untouched : s.collection collection = {})
    (uses : ∀ i, (clients i).Calls (Call.OfLocks collection))
    (ran : Interleaved clients s turns current now) :
    let events := turns.filterMap (·.lockEvent? collection)
    (∀ turn ∈ turns, ∀ name,
      (∀ event, turn.lockEvent? collection = some event → event.name ≠ name) →
        present ⟨collection, name⟩ turn.after = present ⟨collection, name⟩ turn.before) ∧
    ∀ name, let lock : RunLock := ⟨collection, name⟩
      (lock.present now = [] ∧ (∀ owner, ¬ LockEvent.Holds events name owner) ∨
        ∃ owner since, lock.present now = [lock.document owner since] ∧
          ∀ other, LockEvent.Holds events name other ↔ other = owner) ∧
      (.forced name ∉ events → ∀ a b first second, LockEvent.Outstanding events name a first →
        LockEvent.Outstanding events name b second → first = second) ∧
      (∀ owner since (rest : Except MigrationError Unit → Script α),
        let (left, after) := ((lock.acquire owner since).run >>= rest).advance now
        (lock.present now = [] → left = rest (.ok ()) ∧
          lock.present after = [lock.document owner since]) ∧
        (lock.present now ≠ [] → left = (lock.held >>= fun reason => rest (.error reason)) ∧
          after.collections = now.collections)) ∧
      (∀ owner (rest : Except MigrationError Unit → Script α),
        let (left, after) := ((lock.release owner).run >>= rest).advance now
        left = rest (.ok ()) ∧ (LockEvent.Holds events name owner → lock.present after = []) ∧
        (¬ LockEvent.Holds events name owner → after.collections = now.collections)) ∧
      ∀ rest : Except MigrationError Bool → Script α,
        let (left, after) := (lock.force.run >>= rest).advance now
        left = rest (.ok (lock.present now ≠ [])) ∧ lock.present after = [] := by
  intro events
  obtain ⟨-, ⟨holdings, guarded⟩, frame⟩ := ran.guarded untouched uses
  exact ⟨frame, fun name => ⟨guarded.present_cases name,
    fun unforced a b first second => guarded.exclusive.outstanding unforced,
    guarded.advance_acquire name, guarded.advance_release name, guarded.advance_force name⟩⟩

/-- A client that is stopped while it holds a lock and releases it late, one that forces the lock
and acquires it, and one with another lock. -/
def RunLock.late : Fin 3 → Script (Except MigrationError Unit)
  | 0 => do
    let _ ← (acquire ⟨"locks", "migrations"⟩ "killed-run" ⟨⟨2025, 1, 1⟩, 8, 0, 0, 0⟩).run
    (release ⟨"locks", "migrations"⟩ "killed-run").run
  | 1 => do
    let _ ← (force ⟨"locks", "migrations"⟩).run
    (acquire ⟨"locks", "migrations"⟩ "next-run" ⟨⟨2025, 1, 1⟩, 9, 0, 0, 0⟩).run
  | 2 => (acquire ⟨"locks", "backups"⟩ "nightly" ⟨⟨2025, 1, 1⟩, 8, 30, 0, 0⟩).run

theorem RunLock.protocol_late :
    let play := Play.ofSchedule late {} [0, 1, 2, 1, 0]
    play.turns.filterMap (·.lockEvent? "locks") =
      [.acquired "migrations" "killed-run", .forced "migrations", .acquired "backups" "nightly",
        .acquired "migrations" "next-run", .released "migrations" "killed-run"] ∧
    ∃ since, present ⟨"locks", "migrations"⟩ play.now =
      [document ⟨"locks", "migrations"⟩ "next-run" since] := by
  intro play
  have events : play.turns.filterMap (·.lockEvent? "locks") =
      [.acquired "migrations" "killed-run", .forced "migrations", .acquired "backups" "nightly",
        .acquired "migrations" "next-run", .released "migrations" "killed-run"] := by
    decide +kernel
  have uses (i : Fin 3) : (late i).Calls (Call.OfLocks "locks") := by
    let lock : RunLock := ⟨"locks", "migrations"⟩
    match i with
    | 0 => exact (lock.calls_acquire "killed-run" _).bind fun _ => lock.calls_release "killed-run"
    | 1 => exact lock.calls_force.bind fun _ => lock.calls_acquire "next-run" _
    | 2 => exact calls_acquire ⟨"locks", "backups"⟩ "nightly" _
  have last : LockEvent.Holds (play.turns.filterMap (·.lockEvent? "locks")) "migrations"
      "next-run" := by
    rw [events]
    exact ⟨[_, _, _], [_], rfl, by decide⟩
  obtain ⟨-, locks⟩ := protocol rfl uses (Play.interleaved_ofSchedule late {} [0, 1, 2, 1, 0])
  obtain ⟨⟨-, none⟩ | ⟨owner, since, present, holder⟩, -⟩ := locks "migrations"
  · exact absurd last (none _)
  · obtain rfl := (holder _).mp last
    exact ⟨events, since, present⟩

end Stepwise
