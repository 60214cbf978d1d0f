import SmeshDurable.Protocol.Runs

/-!
# The relational checks

The event log, the attempts and the idempotency records of every reachable state pass the
relational queries that run at startup and before every claim.
-/

namespace SmeshDurable

section

variable [ContentDigest] {cfg : Config} {s : Store} {now : Int} {d : Dispatch} {row : TaskRow}

/-! ## Event logs -/

omit [ContentDigest] in
theorem eventsChained_eventSeq {previous : Option EventRow} {index : Nat} {events : List EventRow}
    (h : eventsChained previous index events = true) :
    events.map EventRow.eventSeq = List.range' (index + 1) events.length := by
  induction events generalizing previous index with
  | nil => rfl
  | cons event rest ih =>
    simp only [eventsChained, eventChained, Bool.and_eq_true, beq_iff_eq] at h
    obtain ⟨⟨⟨hseq, -⟩, -⟩, hrest⟩ := h
    rw [List.map_cons, hseq, ih hrest, List.length_cons, List.range'_succ]

omit [ContentDigest] in
/-- Neighbouring events of a chain: the second starts where the first ended. -/
theorem eventsChained_fromState {previous : Option EventRow} {index i : Nat}
    {events : List EventRow} {a b : EventRow} (h : eventsChained previous index events = true)
    (ha : events[i]? = some a) (hb : events[i + 1]? = some b) : b.fromState = some a.toState := by
  induction events generalizing previous index i with
  | nil => cases ha
  | cons event rest ih =>
    simp only [eventsChained, Bool.and_eq_true] at h
    cases i with
    | succ i => exact ih h.2 (by simpa using ha) (by simpa using hb)
    | zero =>
      obtain rfl : event = a := by simpa using ha
      cases rest with
      | nil => simp at hb
      | cons second rest =>
        obtain rfl : second = b := by simpa using hb
        have hchained := h.2
        simp only [eventsChained, eventChained, Bool.and_eq_true, beq_iff_eq] at hchained
        exact hchained.1.2.1

namespace RowValid

omit [ContentDigest] in
/-- The last event carries the task. -/
theorem taskMatchesLastEvent (h : RowValid row) : taskMatchesLastEvent row = true := by
  obtain ⟨event, hlast, hrevision, htask, -⟩ := h.last
  simp [SmeshDurable.taskMatchesLastEvent, hlast, hrevision, htask]

end RowValid

/-! ## Attempts -/

namespace AttemptsValid

variable {state : OutboxState} {attemptCount : Nat} {leaseToken : Option String}
  {attempts : List AttemptRow}

omit [ContentDigest] in
/-- A leased row has one open attempt, any other none. -/
theorem filter_isOpen (h : AttemptsValid state attemptCount leaseToken attempts now) :
    (state = .leased → ∃ attempt, attempts.filter AttemptRow.isOpen = [attempt]) ∧
      (state ≠ .leased → attempts.filter AttemptRow.isOpen = []) := by
  refine ⟨fun hleased => ?_, fun hne => ?_⟩
  · obtain ⟨earlier, attempt, rfl, hearlier, hopen, -⟩ := h.current hleased
    have hnone : earlier.filter AttemptRow.isOpen = [] :=
      List.filter_eq_nil_iff.mpr fun x hx => by simp [hearlier x hx]
    exact ⟨attempt, by simp [List.filter_append, hnone, hopen]⟩
  · exact List.filter_eq_nil_iff.mpr fun x hx => by simp [h.settled hne x hx]

omit [ContentDigest] in
theorem leased_iff (h : AttemptsValid state attemptCount leaseToken attempts now) :
    state = .leased ↔ ∃ attempt, attempts.filter AttemptRow.isOpen = [attempt] := by
  refine ⟨h.filter_isOpen.1, fun ⟨attempt, hfilter⟩ => ?_⟩
  by_contra hne
  rw [h.filter_isOpen.2 hne] at hfilter
  cases hfilter

end AttemptsValid

theorem DispatchValid.attemptsRelational (h : DispatchValid d now) :
    attemptsRelational d = true := by
  have hattempts := h.attempts
  simp only [SmeshDurable.attemptsRelational, Bool.and_eq_true, beq_iff_eq]
  refine ⟨⟨?_, hattempts.count⟩, ?_⟩
  · rw [List.all_eq_true]
    rintro ⟨attempt, index⟩ hmem
    obtain ⟨hlt, hget⟩ := List.mem_zipIdx' hmem
    have hattempt : attempt ∈ d.attempts := hget ▸ List.getElem_mem hlt
    have hnumber : attempt.attemptNo = index + 1 := by
      have hnumbered := congrArg (·[index]?) hattempts.numbered
      simp only [List.getElem?_map, List.getElem?_eq_getElem hlt, Option.map_some,
        List.getElem?_range' hlt] at hnumbered
      rw [hget, Option.some.inj hnumbered]
      omega
    have hrow := hattempts.rows attempt hattempt
    have hcount := hattempts.count
    simp only [attemptRelational, Bool.and_eq_true, decide_eq_true_eq, beq_iff_eq, hrow.outcome,
      hrow.error, hnumber, Bool.or_eq_true, and_true]
    refine ⟨⟨by omega, ?_⟩, ?_⟩
    · cases hfinished : attempt.finishedAt with
      | none => rfl
      | some finishedAt => simpa using hrow.finished finishedAt hfinished
    · cases hfinished : attempt.finishedAt with
      | some finishedAt => exact .inl rfl
      | none =>
        obtain ⟨hleased, hlast, htoken⟩ :=
          hattempts.of_isOpen hattempt (by simp [AttemptRow.isOpen, hfinished])
        exact .inr ⟨⟨hleased, by omega⟩, htoken⟩
  · rw [Bool.eq_iff_iff]
    simp only [beq_iff_eq, List.countP_eq_length_filter, List.length_eq_one_iff]
    exact hattempts.leased_iff

/-! ## Outbox rows -/

namespace Inv

/-- The task row of a dispatch, as the queries find it. -/
theorem taskRow?_eq (h : Inv s now) (hd : d ∈ s.dispatches) :
    ∃ row ∈ s.tasks, s.taskRow? d.taskId = some row ∧ Coherent row d ∧
      eventsOf s d.tenantScope d.taskId = row.events := by
  obtain ⟨row, hrow, hid, hcoherent⟩ := h.coherent d hd
  have hget : s.taskRow? d.taskId = some row := h.taskIds.get?_eq_some hrow hid
  exact ⟨row, hrow, hget, hcoherent, by simp [eventsOf, hget, hcoherent.tenant]⟩

theorem outboxRelational (h : Inv s now) (hd : d ∈ s.dispatches) : outboxRelational s d = true := by
  obtain ⟨row, -, hget, hcoherent, hevents⟩ := h.taskRow?_eq hd
  have hvalid := h.dispatches d hd
  obtain ⟨cause, hcause, hrevision⟩ := hcoherent.causative
  simp only [SmeshDurable.outboxRelational, hget, hevents, Bool.and_eq_true, decide_eq_true_eq,
    List.any_eq_true, beq_iff_eq]
  refine ⟨⟨⟨⟨hcoherent.causative_le, cause, hcause, hrevision⟩, hvalid.created⟩, ?_⟩, ?_⟩
  all_goals by_cases hleased : d.state = .leased
  · simp [hleased, hvalid.leased hleased]
  · simp [hleased, hvalid.unleased hleased]
  · simp [hleased]
  · simp [hvalid.unleased hleased]

/-- The relational queries succeed. -/
theorem atomicRelationsValid (h : Inv s now) : atomicRelationsValid s = true := by
  simp only [SmeshDurable.atomicRelationsValid, Bool.and_eq_true, List.all_eq_true]
  refine ⟨fun row hrow => ?_, fun d hd => ?_⟩
  · have hvalid := h.rows row hrow
    exact ⟨hvalid.taskMatchesLastEvent, hvalid.chained⟩
  · exact ⟨h.outboxRelational hd, (h.dispatches d hd).attemptsRelational⟩

end Inv

/-! ## Every reachable state -/

/-- The log of a task: numbered from one without gaps, ending in the task, each event taking
an allowed transition from where its predecessor ended. -/
def EventLogSound (row : TaskRow) : Prop :=
  row.events.map EventRow.eventSeq = List.range' 1 row.events.length ∧
    (∃ last, row.events.getLast? = some last ∧ last.taskRevision = row.revision ∧
      last.eventTask = row.task) ∧
    ∀ i a b, row.events[i]? = some a → row.events[i + 1]? = some b →
      b.fromState = some a.toState ∧ a.toState.transitionAllowed b.toState = true

/-- The attempts of an outbox row: leased exactly with one open attempt, the counted one,
under the row's token, and never more attempts than allowed. -/
def AttemptsSound (d : Dispatch) : Prop :=
  (d.state = .leased ↔ ∃ attempt, d.attempts.filter AttemptRow.isOpen = [attempt]) ∧
    (∀ attempt ∈ d.attempts, attempt.isOpen = true →
      attempt.attemptNo = d.attemptCount ∧ d.leaseToken = some attempt.leaseToken) ∧
    d.attemptCount = d.attempts.length ∧ d.attemptCount ≤ d.maxAttempts

omit [ContentDigest] in
theorem RowValid.eventLogSound (h : RowValid row) : EventLogSound row := by
  obtain ⟨last, hlast, hrevision, htask, -⟩ := h.last
  refine ⟨eventsChained_eventSeq h.chained, ⟨last, hlast, hrevision, htask⟩, ?_⟩
  intro i a b ha hb
  have hfrom := eventsChained_fromState h.chained ha hb
  exact ⟨hfrom, (h.events b (List.mem_of_getElem? hb)).2.2.1 _ hfrom⟩

theorem DispatchValid.attemptsSound (h : DispatchValid d now) : AttemptsSound d :=
  ⟨h.attempts.leased_iff, fun _ hmem hopen => (h.attempts.of_isOpen hmem hopen).2,
    h.attempts.count, h.attemptCount_le⟩

/-- In every reachable state the logs, the attempts and the records are sound, and the two
relational queries of `validateAtomicRecords` succeed. Its checks of single rows, `recordValid`
and `outboxValid`, are not among them and can fail. -/
theorem reachable_relations_sound (h : Reachable cfg s now) :
    (∀ row ∈ s.tasks, EventLogSound row) ∧
      (∀ d ∈ s.dispatches, AttemptsSound d ∧
        (d.record.state = .completed ↔ d.record.finalResult.isSome = true)) ∧
      atomicRelationsValid s = true := by
  have hinv := ReachableBy.inv h
  refine ⟨fun row hrow => (hinv.rows row hrow).eventLogSound, fun d hd => ?_,
    hinv.atomicRelationsValid⟩
  have hvalid := hinv.dispatches d hd
  refine ⟨hvalid.attemptsSound, ?_⟩
  rw [Option.isSome_iff_ne_none, ne_eq, hvalid.final]
  cases d.record.state <;> simp

end

attribute [local instance] checksumDigest

/-- The state after a claim, with a leased dispatch. -/
theorem sampleClaimed_relations_sound :
    (sampleStore (sampleClaimed false)).dispatches.map Dispatch.state = [.leased] ∧
    ∃ now, Reachable sampleConfig (sampleStore (sampleClaimed false)) now ∧
      (∀ row ∈ (sampleStore (sampleClaimed false)).tasks, EventLogSound row) ∧
      (∀ d ∈ (sampleStore (sampleClaimed false)).dispatches, AttemptsSound d ∧
        (d.record.state = .completed ↔ d.record.finalResult.isSome = true)) ∧
      atomicRelationsValid (sampleStore (sampleClaimed false)) = true := by
  obtain ⟨start, hreachable⟩ := reachable_foldl sampleConfig (sampleClaimed false) (by decide)
  exact ⟨by decide +kernel, _, hreachable, reachable_relations_sound hreachable⟩

/-- After a delivery under another context the relational queries succeed, and the outbox row
fails its own check: its payload no longer follows from the task. -/
theorem elsewhere_delivery_breaks_outbox_row :
    let s := sampleStore (sampleClaimed false ++ [elsewhereDelivery 2])
    Reachable sampleConfig s 2 ∧ atomicRelationsValid s = true ∧
      s.dispatches.map (outboxValid s) = [false] := by
  refine ⟨sampleStore_reachable _ 2 (by decide) rfl, ?_⟩
  decide +kernel

end SmeshDurable
