import SmeshDurable.Store.Operations

/-!
# The event log of a task

A task row is valid when its events are numbered from one without gaps, each starts in
the state its predecessor reached and takes an allowed transition, and the last one is
the task itself. Appending an event for an allowed transition keeps a row valid, which
is all that the operations do to a task.
-/

namespace SmeshDurable

/-- The event an append writes. -/
def TaskRow.nextEvent (row : TaskRow) (revision : Nat) (kind : EventKind) (task : Task)
    (now : Int) : EventRow :=
  { eventSeq := row.nextEventSeq, taskRevision := revision, eventKind := kind,
    fromState := some row.task.status.state, toState := task.status.state, eventTask := task,
    createdAt := now }

section Append

variable (row : TaskRow) (revision : Nat) (kind : EventKind) (task : Task) (now : Int)

@[simp] theorem TaskRow.append_task : (row.append revision kind task now).task = task := rfl

@[simp] theorem TaskRow.append_revision :
    (row.append revision kind task now).revision = revision := rfl

@[simp] theorem TaskRow.append_events :
    (row.append revision kind task now).events =
      row.events ++ [row.nextEvent revision kind task now] := rfl

end Append

/-! ## Chains -/

theorem eventsChained_append (previous : Option EventRow) (index : Nat) (events : List EventRow)
    (event : EventRow) :
    eventsChained previous index (events ++ [event]) =
      (eventsChained previous index events &&
        eventChained (events.getLast?.or previous) (index + events.length) event) := by
  induction events generalizing previous index with
  | nil => simp [eventsChained]
  | cons head rest ih =>
    have hlast : (head :: rest).getLast?.or previous = rest.getLast?.or (some head) := by
      cases rest with
      | nil => rfl
      | cons x xs =>
        rw [List.getLast?_cons_cons]
        obtain ⟨y, hy⟩ := List.getLast?_isSome.mpr (List.cons_ne_nil x xs) |>
          Option.isSome_iff_exists.mp
        simp [hy]
    rw [List.cons_append, eventsChained, eventsChained, ih, hlast, Bool.and_assoc]
    simp [Nat.add_assoc, Nat.add_comm 1]

theorem foldr_max_eventSeq {previous : Option EventRow} {index : Nat} {events : List EventRow}
    (h : eventsChained previous index events = true) (hne : events ≠ []) :
    (events.map EventRow.eventSeq).foldr max 0 = index + events.length := by
  induction events generalizing previous index with
  | nil => exact absurd rfl hne
  | cons head rest ih =>
    simp only [eventsChained, eventChained, Bool.and_eq_true, beq_iff_eq] at h
    obtain ⟨⟨⟨hseq, -⟩, -⟩, hrest⟩ := h
    cases rest with
    | nil => simp [hseq]
    | cons x xs =>
      rw [List.map_cons, List.foldr_cons, ih hrest (by simp), hseq]
      simp only [List.length_cons]
      omega

/-- The next number of a chained log is one past its length. -/
theorem TaskRow.nextEventSeq_eq {row : TaskRow} (h : eventsChained none 0 row.events = true) :
    row.nextEventSeq = row.events.length + 1 := by
  unfold TaskRow.nextEventSeq
  by_cases hne : row.events = []
  · simp [hne]
  · rw [foldr_max_eventSeq h hne, Nat.zero_add]

/-- A chained log counts the revisions of its task one by one. -/
theorem eventsChained_taskRevision {prior : EventRow} {index : Nat} {events : List EventRow}
    (h : eventsChained (some prior) index events = true) :
    events.map EventRow.taskRevision = List.range' (prior.taskRevision + 1) events.length := by
  induction events generalizing prior index with
  | nil => rfl
  | cons event rest ih =>
    simp only [eventsChained, eventChained, Bool.and_eq_true, beq_iff_eq] at h
    obtain ⟨⟨-, -, hrevision⟩, hrest⟩ := h
    rw [List.map_cons, ih hrest, hrevision, List.length_cons, List.range'_succ]

/-! ## Valid rows -/

/-- A task row whose log is a chain of allowed transitions that ends in the task. -/
structure RowValid (row : TaskRow) : Prop where
  chained : eventsChained none 0 row.events = true
  last : ∃ event, row.events.getLast? = some event ∧ event.taskRevision = row.revision ∧
    event.eventTask = row.task ∧ event.toState = row.task.status.state
  events : ∀ event ∈ row.events, event.eventTask.id = row.task.id ∧
    event.toState = event.eventTask.status.state ∧
    (∀ source ∈ event.fromState, source.transitionAllowed event.toState = true) ∧
    event.eventTask.jsonBytes ≤ maxTaskJsonBytes
  specified : row.task.status.state ≠ .unspecified
  tenant : validBoundedIdentity row.tenantScope = true

namespace RowValid

variable {row : TaskRow}

theorem lastEvent_mem (h : RowValid row) :
    ∃ event ∈ row.events, event.taskRevision = row.revision ∧ event.eventTask = row.task := by
  obtain ⟨event, hlast, hrevision, htask, -⟩ := h.last
  exact ⟨event, List.mem_of_getLast? hlast, hrevision, htask⟩

theorem taskRevisions (h : RowValid row) :
    ∃ start, row.events.map EventRow.taskRevision = List.range' start row.events.length := by
  have hchained := h.chained
  cases hevents : row.events with
  | nil => exact ⟨0, rfl⟩
  | cons event rest =>
    rw [hevents, eventsChained, Bool.and_eq_true] at hchained
    refine ⟨event.taskRevision, ?_⟩
    rw [List.map_cons, eventsChained_taskRevision hchained.2, List.length_cons, List.range'_succ]

/-- A revision has one event. -/
theorem event_unique (h : RowValid row) {a b : EventRow} (ha : a ∈ row.events)
    (hb : b ∈ row.events) (hrevision : a.taskRevision = b.taskRevision) : a = b := by
  obtain ⟨start, hrevisions⟩ := h.taskRevisions
  refine List.inj_on_of_nodup_map (f := EventRow.taskRevision) ?_ ha hb hrevision
  rw [hrevisions]
  exact List.nodup_range'

/-- No event is past the task's revision. -/
theorem taskRevision_le (h : RowValid row) {event : EventRow} (hevent : event ∈ row.events) :
    event.taskRevision ≤ row.revision := by
  obtain ⟨start, hrevisions⟩ := h.taskRevisions
  obtain ⟨last, hlast, hrevision, -⟩ := h.last
  have hmem : event.taskRevision ∈ row.events.map EventRow.taskRevision :=
    List.mem_map_of_mem hevent
  have hend : (row.events.map EventRow.taskRevision).getLast? = some last.taskRevision := by
    rw [List.getLast?_map, hlast, Option.map_some]
  rw [hrevisions, List.mem_range'_1] at hmem
  rw [hrevisions, List.getLast?_range'] at hend
  split at hend
  · cases hend
  · have := Option.some.inj hend
    omega

theorem task_size (h : RowValid row) : row.task.jsonBytes ≤ maxTaskJsonBytes := by
  obtain ⟨event, hmem, -, htask⟩ := h.lastEvent_mem
  rw [← htask]
  exact (h.events event hmem).2.2.2

/-- An allowed transition appended to the log. -/
theorem append (h : RowValid row) {kind : EventKind} {task : Task} {now : Int}
    (hid : task.id = row.task.id)
    (hallowed : row.task.status.state.transitionAllowed task.status.state = true)
    (hsize : task.jsonBytes ≤ maxTaskJsonBytes) (hspec : task.status.state ≠ .unspecified) :
    RowValid (row.append (row.revision + 1) kind task now) := by
  obtain ⟨last, hlast, hrevision, htask, hstate⟩ := h.last
  refine ⟨?_, ?_, ?_, hspec, h.tenant⟩
  · rw [TaskRow.append_events, eventsChained_append, hlast, h.chained]
    simp [eventChained, TaskRow.nextEvent, TaskRow.nextEventSeq_eq h.chained, hrevision, hstate]
  · refine ⟨row.nextEvent (row.revision + 1) kind task now, ?_, rfl, rfl, rfl⟩
    simp
  · intro event hmem
    rw [TaskRow.append_events, List.mem_append, List.mem_singleton] at hmem
    rcases hmem with hmem | rfl
    · rw [TaskRow.append_task, hid]
      exact h.events event hmem
    · refine ⟨rfl, rfl, ?_, hsize⟩
      intro source hsource
      obtain rfl : row.task.status.state = source := by
        simpa [TaskRow.nextEvent] using hsource
      exact hallowed

/-- The first event of a new task. -/
theorem admitted {cfg : Config} {auth : Option Authorization} {task : Task} {now : Int}
    (hsize : task.jsonBytes ≤ maxTaskJsonBytes) (hstate : task.status.state = .submitted)
    (htenant : validBoundedIdentity (tenantOf cfg auth) = true) :
    RowValid (admittedTaskRow cfg auth task now) := by
  refine ⟨rfl, ⟨_, rfl, rfl, rfl, rfl⟩, ?_, ?_, htenant⟩
  · intro event hmem
    obtain rfl := List.mem_singleton.mp hmem
    exact ⟨rfl, rfl, fun _ hsource => by simp at hsource, hsize⟩
  · rw [show (admittedTaskRow cfg auth task now).task = task from rfl, hstate]
    decide

end RowValid

theorem tenantOf_valid (cfg : Config) (auth : Option Authorization) :
    validBoundedIdentity (tenantOf cfg auth) = true := by
  cases auth with
  | none => exact cfg.defaultScope_valid
  | some a => exact a.scope.tenantScope_valid

end SmeshDurable
