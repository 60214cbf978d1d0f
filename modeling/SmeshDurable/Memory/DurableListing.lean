import SmeshDurable.Library.Rfc3339Order
import SmeshDurable.Memory.Pagination

/-!
# Listings of the durable store

The first page of a listing in the SQLite store: a query over the columns of the `tasks` table,
whose timestamps are texts, and the projection of each task it returns. It is compared with the
first page of the bounded store over the same tasks, which compares instants.
-/

namespace SmeshDurable.Listing

open Transaction Memory

/-! ## The query -/

/-- A row of `tasks`, as a listing reads it. -/
structure TaskRecord where
  tenantScope : String
  ownerAccountId : String
  taskId : String
  contextId : String
  state : String
  statusTimestamp : Option String
  taskJson : List UInt8
deriving DecidableEq

/-- Whose tasks are listed: those of a tenant, or of one owner in it. -/
structure Reader where
  tenant : String
  owner : String
  ownOnly : Bool

def Reader.sees (reader : Reader) (row : TaskRecord) : Bool :=
  row.tenantScope = reader.tenant && (!reader.ownOnly || row.ownerAccountId = reader.owner)

/-- The JSON text of a state. -/
def stateKey (state : TaskState) : String := "\"" ++ state.wireName ++ "\""

/-- The conditions of the query; a comparison with a missing timestamp does not hold. -/
def queried (request : ListTasksRequest) (row : TaskRecord) : Bool :=
  request.contextId.all (row.contextId = ·) && request.status.all (row.state = stateKey ·) &&
    request.statusTimestampAfter.all fun after =>
      row.statusTimestamp.any fun timestamp => after.renderOffset ≤ timestamp

/-- `ORDER BY status_timestamp DESC, task_id ASC`, where missing timestamps are the least. -/
def orderedBefore (left right : TaskRecord) : Bool :=
  match left.statusTimestamp, right.statusTimestamp with
  | some l, some r => r < l || (r = l && left.taskId ≤ right.taskId)
  | some _, none => true
  | none, some _ => false
  | none, none => left.taskId ≤ right.taskId

def queryRows (reader : Reader) (request : ListTasksRequest) (rows : List TaskRecord) :
    List TaskRecord :=
  (rows.filter fun row => reader.sees row && queried request row).insertionSort
    fun a b => orderedBefore a b = true

/-! ## The first page -/

def projectSnapshotTask (task : Task) (request : ListTasksRequest) : Task := projected request task

section Transaction

variable [TaskCodec]

def decodeTask (encoded : List UInt8) : Except A2AError Task := do
  require (encoded.length ≤ maxTaskJsonBytes)
    (.internal "persistent task record exceeds storage limit")
  expect (TaskCodec.decode encoded) (.internal "persistent task record is corrupt")

def encodeTask (task : Task) : Except A2AError (List UInt8) := do
  let encoded ← expect (TaskCodec.encode task) (.internal "failed to encode persistent task")
  require (encoded.length ≤ maxTaskJsonBytes)
    (.invalidParams "task exceeds persistent storage limit")
  .ok encoded

def persistedTaskMatches (row : TaskRecord) : Bool :=
  row.taskJson.length ≤ maxTaskJsonBytes && (TaskCodec.decode row.taskJson).any fun task =>
    task.id = row.taskId && task.contextId = row.contextId &&
      stateKey task.status.state = row.state &&
      task.status.timestamp.map Instant.renderOffset = row.statusTimestamp

def snapshotCapacityReached : A2AError := .internal "task snapshot capacity reached"

/-- The projected tasks of the rows, and the bytes of their texts. -/
def freezeRows (request : ListTasksRequest) :
    List TaskRecord → Nat → Except A2AError (List Task × Nat)
  | [], bytes => .ok ([], bytes)
  | row :: rows, bytes => do
      require (persistedTaskMatches row = true) (.internal "persistent task record is corrupt")
      let task ← decodeTask row.taskJson
      let frozen ← encodeTask (projectSnapshotTask task request)
      require ((bytes + frozen.length : Int) ≤ i64Max) snapshotCapacityReached
      let rest ← freezeRows request rows (bytes + frozen.length)
      .ok (projectSnapshotTask task request :: rest.1, rest.2)

/-- The snapshots there are, and the sum of their bytes. -/
structure SnapshotTotals where
  active : Nat
  bytes : Nat

/-- `frozen_list_transaction` for a request without a token. A listing of more than one page gets
a snapshot, and the token of its second page. -/
def frozenListTransaction (reader : Reader) (request : ListTasksRequest) (rows : List TaskRecord)
    (totals : SnapshotTotals) (now : Int) (token : String) : Except A2AError ListTasksResponse := do
  let valid ← validateListRequest request
  let frozen ← freezeRows request (queryRows reader request rows) 0
  let page : ListTasksResponse :=
    { tasks := frozen.1.take valid.1.toNat, nextPageToken := "", pageSize := valid.1,
      totalSize := i32OfLength frozen.1.length }
  if (frozen.1.length : Int) ≤ valid.1 then .ok page
  else do
    require (totals.active < maxActiveSnapshots ∧ totals.bytes + frozen.2 ≤ maxSnapshotBytes)
      snapshotCapacityReached
    require (now + snapshotTtlMillis ≤ i64Max) (.internal "task snapshot clock exhausted")
    .ok { page with nextPageToken := token }

/-! ## Two stores with the same tasks -/

/-- A task and the row that holds it. -/
structure StoredTask where
  row : TaskRecord
  task : Task
  taskId : row.taskId = task.id
  contextId : row.contextId = task.contextId
  state : row.state = stateKey task.status.state
  statusTimestamp : row.statusTimestamp = task.status.timestamp.map Instant.renderOffset
  decoded : TaskCodec.decode row.taskJson = some task

def visibleTasks (reader : Reader) (stored : List StoredTask) : List Task :=
  (stored.filter fun entry => reader.sees entry.row).map StoredTask.task

/-- The tasks of the bounded store are those that the reader of the durable one sees. -/
structure Stores where
  reader : Reader
  stored : List StoredTask
  memory : StoreState
  same : (visibleTasks reader stored).Perm memory.tasks
  unique : Keyed.Unique Task.id memory.tasks

/-- The timestamps of the tasks and of the filter. -/
def Stores.UsesTimes (stores : Stores) (request : ListTasksRequest) (times : Set Instant) : Prop :=
  (∀ task ∈ stores.memory.tasks, ∀ time ∈ task.status.timestamp, time ∈ times) ∧
    ∀ after ∈ request.statusTimestampAfter, after ∈ times

/-- The bounded store has no live snapshot for the request, of tasks it had earlier, and the
identifier it draws is new. -/
def Unfrozen (s : StoreState) (request : ListTasksRequest) (ambient : Ambient) : Prop :=
  (∀ pageSize scope, validateListRequest request = .ok (pageSize, scope) →
    reusableSnapshot (swept s ambient) scope (instant s ambient) = none) ∧
  ∀ entry ∈ s.snapshots, entry.1 ≠ ambient.snapshotId

end Transaction

/-- Over tasks and filters with these timestamps, the first pages of both stores are the same. -/
def ListingsAgree (times : Set Instant) : Prop :=
  ∀ [TaskCodec],
    (∀ task bytes, TaskCodec.encode task = some bytes → TaskCodec.decode bytes = some task) →
    ∀ (stores : Stores) (request : ListTasksRequest) (totals : SnapshotTotals) (now : Int)
      (token : String) (l : Layout) (ambient : Ambient) (durable memory : ListTasksResponse),
      stores.UsesTimes request times → request.pageToken = none →
      Unfrozen stores.memory request ambient →
      frozenListTransaction stores.reader request (stores.stored.map StoredTask.row) totals now
        token = .ok durable →
      (list l stores.memory request ambient).1 = .ok memory →
      durable.tasks = memory.tasks ∧ durable.totalSize = memory.totalSize ∧
        durable.pageSize = memory.pageSize

/-! ## Texts and instants -/

/-- Texts of these instants are ordered as they are. -/
def TimesAgree (times : Set Instant) : Prop :=
  ∀ time ∈ times, ∀ time' ∈ times, Instant.YearsAgree time.year time'.year

section Times

variable {times : Set Instant} {l r : Instant}

theorem TimesAgree.lt_iff (h : TimesAgree times) (hl : l ∈ times) (hr : r ∈ times) :
    l.renderOffset < r.renderOffset ↔ l.nanos < r.nanos :=
  Instant.renderOffset_lt_iff.mpr (h l hl r hr)

theorem TimesAgree.le_iff (h : TimesAgree times) (hl : l ∈ times) (hr : r ∈ times) :
    l.renderOffset ≤ r.renderOffset ↔ l.nanos ≤ r.nanos := by
  rw [← not_lt, ← not_lt, h.lt_iff hr hl]

theorem TimesAgree.eq_iff (h : TimesAgree times) (hl : l ∈ times) (hr : r ∈ times) :
    l.renderOffset = r.renderOffset ↔ l.nanos = r.nanos := by
  rw [le_antisymm_iff, le_antisymm_iff, h.le_iff hl hr, h.le_iff hr hl]

end Times

theorem wireName_injective : Function.Injective TaskState.wireName := by
  intro a b h
  cases a <;> cases b <;> first | rfl | (exact absurd h (by decide))

theorem stateKey_injective : Function.Injective stateKey := by
  intro a b h
  exact wireName_injective ((String.append_right_inj _).mp ((String.append_left_inj _).mp h))

section Agreement

variable [TaskCodec] {times : Set Instant} {request : ListTasksRequest}

/-- A query selects the tasks that the bounded store selects. -/
theorem queried_eq (h : TimesAgree times) {entry : StoredTask}
    (hentry : ∀ time ∈ entry.task.status.timestamp, time ∈ times)
    (hafter : ∀ after ∈ request.statusTimestampAfter, after ∈ times) :
    queried request entry.row = selected request entry.task := by
  have hfilter : (request.statusTimestampAfter.all fun after =>
      entry.row.statusTimestamp.any fun timestamp => after.renderOffset ≤ timestamp) =
      request.statusTimestampAfter.all fun after =>
        entry.task.status.timestamp.any fun timestamp => after.nanos ≤ timestamp.nanos := by
    rw [entry.statusTimestamp]
    cases hrequest : request.statusTimestampAfter with
    | none => rfl
    | some after =>
      cases htime : entry.task.status.timestamp with
      | none => rfl
      | some time =>
        simp only [Option.all_some, Option.map_some, Option.any_some,
          h.le_iff (hafter after hrequest) (hentry time htime)]
  rw [queried, selected, hfilter, entry.contextId, entry.state]
  simp only [stateKey_injective.eq_iff]

/-- A query orders tasks as the bounded store does. -/
theorem orderedBefore_eq (h : TimesAgree times) {left right : StoredTask}
    (hleft : ∀ time ∈ left.task.status.timestamp, time ∈ times)
    (hright : ∀ time ∈ right.task.status.timestamp, time ∈ times) :
    orderedBefore left.row right.row = listedBefore left.task right.task := by
  rw [orderedBefore, listedBefore, left.statusTimestamp, right.statusTimestamp, left.taskId,
    right.taskId]
  cases hl : left.task.status.timestamp with
  | none => cases hr : right.task.status.timestamp <;> rfl
  | some l =>
    cases hr : right.task.status.timestamp with
    | none => rfl
    | some r =>
      simp only [Option.map_some, h.lt_iff (hright r hr) (hleft l hl),
        h.eq_iff (hright r hr) (hleft l hl)]

/-- The check of a row passes for the rows that the store writes. -/
theorem persistedTaskMatches_row {entry : StoredTask}
    (h : entry.row.taskJson.length ≤ maxTaskJsonBytes) : persistedTaskMatches entry.row = true := by
  simp only [persistedTaskMatches, h, entry.decoded, entry.taskId, entry.contextId, entry.state,
    entry.statusTimestamp, decide_true, Bool.and_true, Option.any_some]

/-- A loop over rows returns the projections of the tasks they hold. -/
theorem freezeRows_eq {stored : List StoredTask} {bytes : Nat} {frozen : List Task × Nat}
    (h : freezeRows request (stored.map StoredTask.row) bytes = .ok frozen) :
    frozen.1 = stored.map fun entry => projected request entry.task := by
  induction stored generalizing bytes frozen with
  | nil =>
    rw [List.map_nil, freezeRows, Except.ok.injEq] at h
    rw [← h]
    rfl
  | cons entry stored ih =>
    simp only [List.map_cons, freezeRows, decodeTask, bind_eq_ok, require_eq_ok, expect_eq_ok,
      entry.decoded, Option.some.injEq, Except.ok.injEq] at h
    obtain ⟨-, -, task, ⟨-, -, rfl⟩, encoded, -, -, -, rest, hrest, rfl⟩ := h
    rw [List.map_cons, ← ih hrest]
    rfl

/-- The rows of a query hold the tasks that the bounded store lists. -/
theorem queryRows_eq (h : TimesAgree times) (stores : Stores)
    (huses : stores.UsesTimes request times) :
    ∃ listed : List StoredTask,
      queryRows stores.reader request (stores.stored.map StoredTask.row) =
        listed.map StoredTask.row ∧
      (listed.map fun entry => projected request entry.task) =
        freezeProjection stores.memory.tasks request := by
  let matching := stores.stored.filter fun entry =>
    stores.reader.sees entry.row && queried request entry.row
  let before : StoredTask → StoredTask → Prop := fun a b => orderedBefore a.row b.row = true
  refine ⟨matching.insertionSort before, ?_, ?_⟩
  · rw [queryRows, List.filter_map,
      List.map_insertionSort before (fun a b => orderedBefore a b = true) StoredTask.row]
    · rfl
    · exact fun a _ b _ => Iff.rfl
  · have hseen : ∀ entry ∈ stores.stored, stores.reader.sees entry.row = true →
        ∀ time ∈ entry.task.status.timestamp, time ∈ times := by
      intro entry hentry hsees
      apply huses.1
      apply stores.same.mem_iff.mp
      exact List.mem_map.mpr ⟨entry, List.mem_filter.mpr ⟨hentry, hsees⟩, rfl⟩
    have htasks : matching.map StoredTask.task =
        (visibleTasks stores.reader stores.stored).filter (selected request) := by
      rw [visibleTasks, List.filter_map, List.filter_filter]
      congr 1
      apply List.filter_congr
      intro entry hentry
      cases hsees : stores.reader.sees entry.row with
      | false => simp
      | true => simp [queried_eq h (hseen entry hentry hsees) huses.2]
    have hsorted : (matching.insertionSort before).map StoredTask.task =
        (matching.map StoredTask.task).insertionSort Before := by
      apply List.map_insertionSort
      intro a ha b hb
      obtain ⟨ha, hmatch⟩ := List.mem_filter.mp ha
      obtain ⟨hb, hmatch'⟩ := List.mem_filter.mp hb
      rw [Bool.and_eq_true] at hmatch hmatch'
      change orderedBefore a.row b.row = true ↔ listedBefore a.task b.task = true
      rw [orderedBefore_eq h (hseen a ha hmatch.1) (hseen b hb hmatch'.1)]
    have hmap : (matching.insertionSort before).map (fun entry => projected request entry.task) =
        ((matching.insertionSort before).map StoredTask.task).map (projected request) := by
      rw [List.map_map]
      rfl
    rw [hmap, hsorted, htasks]
    exact freezeProjection_perm stores.unique stores.same

omit [TaskCodec] in
/-- A first page of a list of tasks. -/
def IsFirstPage (page : ListTasksResponse) (frozen : List Task) (pageSize : Int) : Prop :=
  page.tasks = frozen.take pageSize.toNat ∧ page.totalSize = i32OfLength frozen.length ∧
    page.pageSize = pageSize

theorem frozenListTransaction_page {reader : Reader} {rows : List TaskRecord}
    {totals : SnapshotTotals} {now : Int} {token : String} {page : ListTasksResponse}
    (h : frozenListTransaction reader request rows totals now token = .ok page) :
    ∃ pageSize scope frozen, validateListRequest request = .ok (pageSize, scope) ∧
      freezeRows request (queryRows reader request rows) 0 = .ok frozen ∧
      IsFirstPage page frozen.1 pageSize := by
  simp only [frozenListTransaction, bind_eq_ok] at h
  obtain ⟨⟨pageSize, scope⟩, hvalid, frozen, hfrozen, h⟩ := h
  refine ⟨pageSize, scope, frozen, hvalid, hfrozen, ?_⟩
  split at h
  · obtain rfl := Except.ok.inj h
    exact ⟨rfl, rfl, rfl⟩
  · simp only [bind_eq_ok, Except.ok.injEq] at h
    obtain ⟨-, -, -, -, rfl⟩ := h
    exact ⟨rfl, rfl, rfl⟩

section Bounded

variable {l : Layout} {s : StoreState} {ambient : Ambient} {pageSize : Int} {scope : CursorScope}
  (hunique : Keyed.Unique Task.id s.tasks) (hfirst : request.pageToken = none)
  (hunfrozen : Unfrozen s request ambient)
  (hvalid : validateListRequest request = .ok (pageSize, scope))

include hunique hfirst hunfrozen hvalid

/-- The bounded store answers from its tasks, unless it has a list of earlier ones. -/
theorem list_unfrozen : (list l s request ambient).1 =
    if (freezeProjection s.tasks request).length ≤ pageSize.toNat then
      .ok { tasks := freezeProjection s.tasks request, nextPageToken := "", pageSize,
            totalSize := i32OfLength (freezeProjection s.tasks request).length }
    else (newSnapshot l (swept s ambient) scope pageSize (freezeProjection s.tasks request) ambient
      (instant s ambient)).bind (memoryPage · 0) := by
  have hnonneg : 0 ≤ pageSize := by
    have hsize := (pageSize_of_valid hvalid).1
    omega
  have hvisit : freezeProjection (ambient.order.visit s.tasks) request =
      freezeProjection s.tasks request :=
    freezeProjection_perm hunique (ambient.order.visit_perm s.tasks)
  have htasks : (swept s ambient).tasks = s.tasks := rfl
  simp only [list, hvalid, hfirst]
  change (firstPage l (swept s ambient) request pageSize scope ambient (instant s ambient)).1 = _
  simp only [firstPage, hunfrozen.1 pageSize scope hvalid, htasks, hvisit, toUsize, if_pos hnonneg]
  split
  · rfl
  · cases newSnapshot l (swept s ambient) scope pageSize (freezeProjection s.tasks request) ambient
      (instant s ambient) with
    | error failure => rfl
    | ok snapshot =>
      have hids : ∀ entry ∈ (swept s ambient).snapshots, entry.1 ≠ ambient.snapshotId := by
        intro entry hentry
        rw [snapshots_swept] at hentry
        exact hunfrozen.2 entry (List.mem_of_mem_filter hentry)
      dsimp only
      rw [find?_push hids]
      rfl

theorem list_page
    (hcodec : ∀ task bytes, TaskCodec.encode task = some bytes → TaskCodec.decode bytes = some task)
    {page : ListTasksResponse} (h : (list l s request ambient).1 = .ok page) :
    IsFirstPage page (freezeProjection s.tasks request) pageSize := by
  have hsize := (pageSize_of_valid hvalid).1
  rw [list_unfrozen hunique hfirst hunfrozen hvalid] at h
  split at h
  next hfits =>
    obtain rfl := Except.ok.inj h
    exact ⟨(List.take_of_length_le hfits).symm, rfl, rfl⟩
  next hlong =>
    obtain ⟨snapshot, hnew, hpage⟩ := bind_eq_ok.mp h
    have hholds := holds_of_newSnapshot hsize (not_le.mp hlong) hnew
    have hcut := hholds.memoryPage_eq (k := 0) hcodec (by omega)
    rw [Nat.zero_mul, hpage, Except.ok.injEq] at hcut
    rw [hcut]
    refine ⟨?_, rfl, Int.toNat_of_nonneg (by omega)⟩
    rw [pageOf, Nat.zero_mul, List.drop_zero]

end Bounded

end Agreement

theorem listingsAgree_of_timesAgree {times : Set Instant} (h : TimesAgree times) :
    ListingsAgree times := by
  intro _ hcodec stores request totals now token l ambient durable memory huses hfirst hunfrozen
    hdurable hmemory
  obtain ⟨pageSize, scope, frozen, hvalid, hfrozen, htasks, htotal, hsize⟩ :=
    frozenListTransaction_page hdurable
  obtain ⟨listed, hrows, hlisted⟩ := queryRows_eq h stores huses
  rw [hrows] at hfrozen
  rw [freezeRows_eq hfrozen, hlisted] at htasks htotal
  obtain ⟨htasks', htotal', hsize'⟩ :=
    list_page stores.unique hfirst hunfrozen hvalid hcodec hmemory
  exact ⟨htasks.trans htasks'.symm, htotal.trans htotal'.symm, hsize.trans hsize'.symm⟩

/-! ## One task and a filter -/

section OneTask

/-- A task with a timestamp, which every projection leaves as it is. -/
def timedTask (time : Instant) : Task :=
  { id := "task", contextId := "context",
    status := { state := .working, message := none, timestamp := some time },
    artifacts := none, history := none, metadata := none }

/-- A serializer for that task. -/
@[reducible] def timedCodec (time : Instant) : TaskCodec where
  encode task := if task = timedTask time then some [0] else none
  decode bytes := if bytes = [0] then some (timedTask time) else none

def timedRow (time : Instant) : TaskRecord :=
  { tenantScope := "tenant", ownerAccountId := "owner", taskId := "task", contextId := "context",
    state := stateKey .working, statusTimestamp := some time.renderOffset, taskJson := [0] }

def timedEntry (time : Instant) : @StoredTask (timedCodec time) :=
  letI := timedCodec time
  ⟨timedRow time, timedTask time, rfl, rfl, rfl, rfl, rfl⟩

def timedState (time : Instant) : StoreState :=
  { tasks := [timedTask time], snapshots := [], snapshotBytes := 0, observedNow := 0 }

def timedStores (time : Instant) : @Stores (timedCodec time) :=
  letI := timedCodec time
  { reader := ⟨"tenant", "owner", false⟩
    stored := [timedEntry time]
    memory := timedState time
    same := .refl _
    unique := List.nodup_singleton _ }

def afterRequest (after : Instant) : ListTasksRequest :=
  { contextId := none, status := none, pageSize := none, pageToken := none, historyLength := none,
    statusTimestampAfter := some after, includeArtifacts := none, tenant := none }

variable (time after : Instant)

/-- The durable store lists the task if its text is not smaller than that of the filter. -/
theorem timed_durable :
    letI := timedCodec time
    ∃ page, frozenListTransaction (timedStores time).reader (afterRequest after)
        ((timedStores time).stored.map StoredTask.row) ⟨0, 0⟩ 0 "" = .ok page ∧
      page.totalSize = if after.renderOffset ≤ time.renderOffset then 1 else 0 := by
  let _ := timedCodec time
  have hqueried : queried (afterRequest after) (timedRow time) =
      decide (after.renderOffset ≤ time.renderOffset) := by
    simp [queried, afterRequest, timedRow]
  have hrows : queryRows (timedStores time).reader (afterRequest after)
      ((timedStores time).stored.map StoredTask.row) =
        if after.renderOffset ≤ time.renderOffset then [timedRow time] else [] := by
    have hseen : (timedStores time).reader.sees (timedRow time) = true := rfl
    change List.insertionSort _ (List.filter _ [timedRow time]) = _
    rw [List.filter_singleton, hseen, hqueried, Bool.true_and]
    by_cases h : after.renderOffset ≤ time.renderOffset <;> simp [h]
  have hvalid : validateListRequest (afterRequest after) =
      .ok (50, .fromRequest (afterRequest after) 50) := rfl
  have hfreeze : freezeRows (afterRequest after) [timedRow time] 0 = .ok ([timedTask time], 1) := by
    have hrow : (timedEntry time).row = timedRow time := rfl
    have hmatches : persistedTaskMatches (timedEntry time).row = true := by
      apply persistedTaskMatches_row
      rw [hrow]
      exact Nat.le_of_ble_eq_true rfl
    rw [hrow] at hmatches
    have hdecode : decodeTask (timedRow time).taskJson = .ok (timedTask time) := rfl
    have hencode : encodeTask (timedTask time) = .ok [0] := by
      simp only [encodeTask, bind_eq_ok, expect_eq_ok, require_eq_ok]
      exact ⟨[0], if_pos rfl, (), by decide, rfl⟩
    simp only [freezeRows, bind_eq_ok, require_eq_ok]
    exact ⟨(), hmatches, _, hdecode, _, hencode, (), by decide, _, rfl, rfl⟩
  rw [frozenListTransaction, hvalid, hrows]
  by_cases h : after.renderOffset ≤ time.renderOffset
  · rw [if_pos h, if_pos h]
    simp only [hfreeze]
    exact ⟨_, rfl, rfl⟩
  · rw [if_neg h, if_neg h]
    exact ⟨_, rfl, rfl⟩

theorem timed_unfrozen : Unfrozen (timedState time) (afterRequest after) sampleAmbient := by
  refine ⟨fun _ _ _ => rfl, ?_⟩
  intro entry hentry
  cases hentry

/-- The bounded store lists the task if it is not older than the filter. -/
theorem timed_memory :
    letI := timedCodec time
    ∃ page, (list sampleStore.layout (timedState time) (afterRequest after)
        sampleAmbient).1 = .ok page ∧
      page.totalSize = if after.nanos ≤ time.nanos then 1 else 0 := by
  let _ := timedCodec time
  have hfrozen : freezeProjection [timedTask time] (afterRequest after) =
      if after.nanos ≤ time.nanos then [timedTask time] else [] := by
    have hselected : selected (afterRequest after) (timedTask time) =
        decide (after.nanos ≤ time.nanos) := by
      simp [selected, afterRequest, timedTask]
    rw [freezeProjection, List.filter_singleton, hselected]
    by_cases h : after.nanos ≤ time.nanos
    · rw [decide_eq_true h, if_pos h]
      rfl
    · rw [decide_eq_false h, if_neg h]
      rfl
  have htasks : (timedState time).tasks = [timedTask time] := rfl
  have hunique : Keyed.Unique Task.id (timedState time).tasks := (timedStores time).unique
  rw [list_unfrozen hunique rfl (timed_unfrozen time after) rfl, htasks, hfrozen]
  by_cases h : after.nanos ≤ time.nanos
  · rw [if_pos h, if_pos h]
    exact ⟨_, rfl, rfl⟩
  · rw [if_neg h, if_neg h]
    exact ⟨_, rfl, rfl⟩

theorem timed_roundTrip (task : Task) (bytes : List UInt8)
    (h : (timedCodec time).encode task = some bytes) : (timedCodec time).decode bytes = some task := by
  simp only [TaskCodec.encode] at h
  split at h
  next htask =>
    obtain rfl := Option.some.inj h
    rw [htask]
    rfl
  · cases h

end OneTask

/-- A task with one instant and a filter with another show whether their texts are ordered as they
are. -/
theorem timesAgree_of_listingsAgree {times : Set Instant} (h : ListingsAgree times) :
    TimesAgree times := by
  intro time htime after hafter
  obtain ⟨durable, hdurable, htotal⟩ := timed_durable time after
  obtain ⟨memory, hmemory, htotal'⟩ := timed_memory time after
  have huses : @Stores.UsesTimes (timedCodec time) (timedStores time) (afterRequest after) times := by
    refine ⟨?_, ?_⟩
    · intro task htask time' htime'
      obtain rfl := List.mem_singleton.mp htask
      obtain rfl := Option.some.inj htime'
      exact htime
    · intro after' hafter'
      obtain rfl := Option.some.inj hafter'
      exact hafter
  have hsame := (@h (timedCodec time) (timed_roundTrip time) (timedStores time) (afterRequest after)
    ⟨0, 0⟩ 0 "" sampleStore.layout sampleAmbient durable memory huses rfl (timed_unfrozen time after)
    hdurable hmemory).2.1
  rw [htotal, htotal'] at hsame
  have hle : after.renderOffset ≤ time.renderOffset ↔ after.nanos ≤ time.nanos := by
    by_cases htext : after.renderOffset ≤ time.renderOffset <;>
      by_cases hnanos : after.nanos ≤ time.nanos <;> simp [htext, hnanos] at hsame ⊢
  apply Instant.renderOffset_lt_iff.mp
  rw [← not_le, ← not_le, hle]

/-- Both stores give the same first pages, for all tasks and requests with timestamps of a set,
exactly if the years of any two of these timestamps are the same or are ordered as they are written;
so they do where all years have four digits. -/
theorem listings_agree_iff_years_agree (times : Set Instant) :
    (ListingsAgree times ↔
      ∀ time ∈ times, ∀ time' ∈ times, Instant.YearsAgree time.year time'.year) ∧
    ListingsAgree { time | 0 ≤ time.year ∧ time.year ≤ 9999 } := by
  refine ⟨⟨timesAgree_of_listingsAgree, listingsAgree_of_timesAgree⟩, ?_⟩
  apply listingsAgree_of_timesAgree
  intro time htime time' htime'
  exact Instant.yearsAgree_of_four_digits htime htime'

/-- A task of the year 10000 is not later than 2024 for the durable store. -/
theorem five_digit_year_not_listed :
    letI time : Instant := .ofMillis 253402300800000
    letI after : Instant := .ofMillis 1704067200000
    letI := timedCodec time
    ∃ durable memory,
      frozenListTransaction (timedStores time).reader (afterRequest after)
        ((timedStores time).stored.map StoredTask.row) ⟨0, 0⟩ 0 "" = .ok durable ∧
      (list sampleStore.layout (timedState time) (afterRequest after) sampleAmbient).1 =
        .ok memory ∧
      durable.totalSize = 0 ∧ memory.totalSize = 1 := by
  obtain ⟨durable, hdurable, htotal⟩ :=
    timed_durable (.ofMillis 253402300800000) (.ofMillis 1704067200000)
  obtain ⟨memory, hmemory, htotal'⟩ :=
    timed_memory (.ofMillis 253402300800000) (.ofMillis 1704067200000)
  refine ⟨durable, memory, hdurable, hmemory, ?_, ?_⟩
  · rw [htotal, if_neg (by decide)]
  · rw [htotal', if_pos (by decide)]

end SmeshDurable.Listing
