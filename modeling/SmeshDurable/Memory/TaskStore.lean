import SmeshDurable.Store.Schema

/-!
# The bounded task store

The process-local task ledger: tasks by identifier, and the frozen lists that the pages of a
task listing are cut from. A listing that does not fit one page is frozen for five minutes, and
random tokens name the positions of its later pages. A call may fail with an error, or panic
where the source would. The clock, the random values, the order in which the map of tasks is
visited and the sizes of allocations come from outside.
-/

namespace SmeshDurable.Memory

def maxPageTokenBytes : Nat := 4096
def snapshotTtlMillis : Nat := 5 * 60 * 1000
def maxSnapshotBytes : Nat := 64 * 1024 * 1024
def maxActiveSnapshots : Nat := 128
def usizeMax : Nat := 2 ^ 64 - 1
def i32Max : Int := 2 ^ 31 - 1

/-! ## Requests and snapshots -/

structure ListTasksRequest where
  contextId : Option String
  status : Option TaskState
  pageSize : Option Int
  pageToken : Option String
  historyLength : Option Int
  statusTimestampAfter : Option Instant
  includeArtifacts : Option Bool
  tenant : Option String
deriving DecidableEq

structure ListTasksResponse where
  tasks : List Task
  nextPageToken : String
  pageSize : Int
  totalSize : Int
deriving DecidableEq

structure CursorScope where
  contextId : Option String
  status : Option TaskState
  pageSize : Int
  historyLength : Option Int
  statusTimestampAfter : Option Instant
  includeArtifacts : Bool
  tenant : Option String
deriving DecidableEq

def CursorScope.fromRequest (request : ListTasksRequest) (pageSize : Int) : CursorScope :=
  { contextId := request.contextId, status := request.status, pageSize,
    historyLength := request.historyLength,
    statusTimestampAfter := request.statusTimestampAfter,
    includeArtifacts := request.includeArtifacts.getD false, tenant := request.tenant }

structure MemorySnapshot where
  tasks : List (List UInt8)
  pageSize : Int
  scope : CursorScope
  expiresAt : Nat
  bytes : Nat
  tokens : List (Nat × String)
deriving DecidableEq

/-- The store; each snapshot is kept with its random identifier. -/
structure StoreState where
  tasks : List Task
  snapshots : List (Nat × MemorySnapshot)
  snapshotBytes : Nat
  observedNow : Nat

/-- Sizes that the compiler and the allocator determine: those of a registry slot, of a vector
header and of a token slot, and the capacity of an allocation for so many elements. -/
structure Layout where
  slotBytes : Nat
  vecBytes : Nat
  tokenSlotBytes : Nat
  overheadBytes : Nat
  capacity : Nat → Nat
  registry_fits : capacity maxActiveSnapshots * slotBytes + overheadBytes ≤ maxSnapshotBytes

/-- The cost of the registry itself. -/
def Layout.registryBytes (l : Layout) : Nat :=
  l.capacity maxActiveSnapshots * l.slotBytes + l.overheadBytes

def StoreState.new (l : Layout) : StoreState :=
  { tasks := [], snapshots := [], snapshotBytes := l.registryBytes, observedNow := 0 }

/-- The serializer of tasks. -/
class TaskCodec where
  encode : Task → Option (List UInt8)
  decode : List UInt8 → Option Task

/-- The order in which a map is visited. -/
structure TaskOrder where
  visit : List Task → List Task
  visit_perm : ∀ tasks, (visit tasks).Perm tasks

/-- How a call ends without a value. -/
inductive Failure where
  | error (e : A2AError)
  | panic
deriving DecidableEq

def invalidPageToken : Failure := .error (.invalidParams "invalid pageToken")

def capacityReached : Failure := .error (.internal "task snapshot capacity reached")

/-- A value that the source unwraps. -/
def unwrap {α : Type} : Option α → Except Failure α
  | some a => .ok a
  | none => .error .panic

/-- A size as a machine word. -/
def toUsize (n : Int) : Option Nat := if 0 ≤ n then some n.toNat else none

/-- A length as a 32-bit integer, or the largest one. -/
def i32OfLength (n : Nat) : Int := min n i32Max

/-! ## Listing -/

def validateListRequest (request : ListTasksRequest) : Except A2AError (Int × CursorScope) :=
  if ∃ length ∈ request.historyLength, ¬ (0 ≤ length ∧ length ≤ 100) then
    .error (.invalidParams "historyLength must be between 0 and 100")
  else
    let pageSize := request.pageSize.getD 50
    if 1 ≤ pageSize ∧ pageSize ≤ 100 then .ok (pageSize, .fromRequest request pageSize)
    else .error (.invalidParams "pageSize must be between 1 and 100")

def selected (request : ListTasksRequest) (task : Task) : Bool :=
  request.contextId.all (task.contextId = ·) && request.status.all (task.status.state = ·) &&
    request.statusTimestampAfter.all fun after =>
      task.status.timestamp.any fun timestamp => after.nanos ≤ timestamp.nanos

/-- Later timestamps first and tasks without one last, then by identifier. -/
def listedBefore (left right : Task) : Bool :=
  match left.status.timestamp, right.status.timestamp with
  | some l, some r => r.nanos < l.nanos || (r.nanos = l.nanos && left.id ≤ right.id)
  | some _, none => true
  | none, some _ => false
  | none, none => left.id ≤ right.id

def projected (request : ListTasksRequest) (task : Task) : Task :=
  { task with
    artifacts := if request.includeArtifacts.getD false then task.artifacts else none
    history :=
      match request.historyLength.bind toUsize with
      | some 0 => none
      | some limit => task.history.map fun history => history.drop (history.length - limit)
      | none => task.history }

def freezeProjection (tasks : List Task) (request : ListTasksRequest) : List Task :=
  ((tasks.filter (selected request)).insertionSort fun a b => listedBefore a b = true).map
    (projected request)

def decodeFrozen [TaskCodec] (encoded : List UInt8) : Except Failure Task :=
  match TaskCodec.decode encoded with
  | some task => .ok task
  | none => .error (.error (.internal "frozen task snapshot is corrupt"))

def MemorySnapshot.nextToken (snapshot : MemorySnapshot) (stop : Nat) : String :=
  ((snapshot.tokens.find? fun token => token.1 = stop).map Prod.snd).getD ""

def memoryPage [TaskCodec] (snapshot : MemorySnapshot) (position : Nat) :
    Except Failure ListTasksResponse := do
  let pageSize ← unwrap (toUsize snapshot.pageSize)
  let stop := min (position + pageSize) snapshot.tasks.length
  -- the slice panics unless it starts before it ends
  Transaction.require (position ≤ stop) .panic
  let tasks ← ((snapshot.tasks.take stop).drop position).mapM decodeFrozen
  .ok { tasks, nextPageToken := snapshot.nextToken stop, pageSize := snapshot.pageSize,
        totalSize := i32OfLength snapshot.tasks.length }

/-- Drops the expired snapshots and takes their bytes off the counter, which stops at zero. -/
def retainLive (now : Nat) :
    List (Nat × MemorySnapshot) → Nat → List (Nat × MemorySnapshot) × Nat
  | [], bytes => ([], bytes)
  | (id, snapshot) :: rest, bytes =>
    if snapshot.expiresAt ≤ now then retainLive now rest (bytes - snapshot.bytes)
    else
      let (kept, bytes) := retainLive now rest bytes
      ((id, snapshot) :: kept, bytes)

def gcMemorySnapshots (s : StoreState) (now : Nat) : StoreState :=
  { s with snapshots := (retainLive now s.snapshots s.snapshotBytes).1,
           snapshotBytes := (retainLive now s.snapshots s.snapshotBytes).2 }

def reusableSnapshot (s : StoreState) (scope : CursorScope) (now : Nat) : Option MemorySnapshot :=
  (s.snapshots.map Prod.snd).find? fun snapshot => now < snapshot.expiresAt ∧ snapshot.scope = scope

/-- The first snapshot that has the token, with the position it stands for. -/
def findToken (s : StoreState) (token : String) : Option (MemorySnapshot × Nat) :=
  s.snapshots.findSome? fun (_, snapshot) =>
    snapshot.tokens.findSome? fun (position, candidate) =>
      if candidate = token then some (snapshot, position) else none

def textBytes (l : Layout) : Option String → Nat
  | some text => l.capacity text.utf8ByteSize + l.overheadBytes
  | none => 0

/-- What a snapshot is charged; any overflow on the way is one of the sum. -/
def conservativeSnapshotBytes (l : Layout) (tasks : List (List UInt8)) (scope : CursorScope)
    (tokens : List (Nat × String)) : Except Failure Nat := do
  let bytes := l.slotBytes + l.overheadBytes + l.overheadBytes +
    l.capacity tasks.length * l.vecBytes +
    (tasks.map fun encoded => l.capacity encoded.length + l.overheadBytes).sum +
    textBytes l scope.contextId + textBytes l scope.tenant +
    l.capacity tokens.length * l.tokenSlotBytes +
    (tokens.map fun token => l.capacity token.2.utf8ByteSize + l.overheadBytes).sum
  Transaction.require (bytes ≤ usizeMax) capacityReached
  .ok bytes

/-- `start`, `start + step`, and so on below `stop`. -/
def stepBy (start stop step : Nat) : List Nat :=
  List.range' start ((stop - start + step - 1) / step) step

/-- What a listing reads from outside: the clock, the order of the map, and the random tokens and
identifier it draws. A token is 32 bytes in unpadded base64. -/
structure Ambient where
  clock : Nat
  order : TaskOrder
  token : Nat → String
  snapshotId : Nat
  token_size : ∀ i, (token i).utf8ByteSize = 43

def drawTokens (ambient : Ambient) (positions : List Nat) : List (Nat × String) :=
  positions.zipIdx.map fun (position, i) => (position, ambient.token i)

def freezeTask [TaskCodec] (task : Task) : Except Failure (List UInt8) :=
  match TaskCodec.encode task with
  | some encoded => .ok encoded
  | none => .error (.error (.internal "failed to freeze task snapshot"))

section Store

variable [TaskCodec] (l : Layout)

/-- The snapshot for a listing of more than one page, if there is room for it. -/
def newSnapshot (s : StoreState) (scope : CursorScope) (pageSize : Int) (tasks : List Task)
    (ambient : Ambient) (now : Nat) : Except Failure MemorySnapshot := do
  let step ← unwrap (toUsize pageSize)
  let frozen ← tasks.mapM freezeTask
  let tokens := drawTokens ambient (stepBy step tasks.length step)
  let bytes ← conservativeSnapshotBytes l frozen scope tokens
  Transaction.require (s.snapshots.length < maxActiveSnapshots ∧
    s.snapshotBytes + bytes ≤ maxSnapshotBytes) capacityReached
  Transaction.require (now + snapshotTtlMillis < 2 ^ 64)
    (.error (.internal "task snapshot clock exhausted"))
  .ok { tasks := frozen, pageSize, scope, expiresAt := now + snapshotTtlMillis, bytes, tokens }

/-- A later page. -/
def tokenPage (s : StoreState) (scope : CursorScope) (now : Nat) (token : String) :
    Except Failure ListTasksResponse := do
  Transaction.require (token.utf8ByteSize ≤ maxPageTokenBytes) invalidPageToken
  let (snapshot, position) ← Transaction.expect ((findToken s token).filter fun found =>
    now < found.1.expiresAt ∧ found.1.scope = scope) invalidPageToken
  let step ← unwrap (toUsize snapshot.pageSize)
  Transaction.require (¬ (position = 0 ∨ snapshot.tasks.length < position ∨ position % step ≠ 0))
    invalidPageToken
  memoryPage snapshot position

/-- The first page: of a live snapshot of the same scope, of a listing that fits one page, or of a
new snapshot. -/
def firstPage (s : StoreState) (request : ListTasksRequest) (pageSize : Int) (scope : CursorScope)
    (ambient : Ambient) (now : Nat) : Except Failure ListTasksResponse × StoreState :=
  match reusableSnapshot s scope now with
  | some snapshot => (memoryPage snapshot 0, s)
  | none =>
    let tasks := freezeProjection (ambient.order.visit s.tasks) request
    match toUsize pageSize with
    | none => (.error .panic, s)
    | some step =>
      if tasks.length ≤ step then
        (.ok { tasks, nextPageToken := "", pageSize, totalSize := i32OfLength tasks.length }, s)
      else
        match newSnapshot l s scope pageSize tasks ambient now with
        | .error failure => (.error failure, s)
        | .ok snapshot =>
          let s' := { s with
            snapshots := s.snapshots ++ [(ambient.snapshotId, snapshot)]
            snapshotBytes := s.snapshotBytes + snapshot.bytes }
          ((unwrap ((s'.snapshots.find? (·.1 = ambient.snapshotId)).map Prod.snd)).bind
            (memoryPage · 0), s')

def list (s : StoreState) (request : ListTasksRequest) (ambient : Ambient) :
    Except Failure ListTasksResponse × StoreState :=
  match validateListRequest request with
  | .error e => (.error (.error e), s)
  | .ok (pageSize, scope) =>
    let now := max ambient.clock s.observedNow
    let s := gcMemorySnapshots { s with observedNow := now } now
    match request.pageToken with
    | some token => (tokenPage s scope now token, s)
    | none => firstPage l s request pageSize scope ambient now

end Store

/-! ## Tasks -/

/-- The number of tasks is bounded by the configured maximum, which is at least one. -/
def create (maxTasks : Nat) (s : StoreState) (task : Task) : Except A2AError Nat × StoreState :=
  if s.tasks.any (·.id = task.id) then (.error (.invalidRequest "task already exists"), s)
  else if max maxTasks 1 ≤ s.tasks.length then
    (.error (.internal "task store capacity reached"), s)
  else (.ok 1, { s with tasks := s.tasks ++ [task] })

def update (s : StoreState) (task : Task) : Except A2AError Nat × StoreState :=
  match Keyed.get? Task.id s.tasks task.id with
  | none => (.error (.taskNotFound task.id), s)
  | some stored =>
    if stored = task then (.ok 1, s)
    else if stored.status.state.isTerminal then
      (.error (.unsupportedOperation "terminal task state cannot be changed"), s)
    else if ¬ stored.status.state.transitionAllowed task.status.state then
      (.error (.unsupportedOperation "invalid task state transition"), s)
    else (.ok 1, { s with tasks := Keyed.put Task.id s.tasks task })

/-! ## Runs -/

inductive StoreCall where
  | create (task : Task)
  | update (task : Task)
  | get (taskId : String)
  | list (request : ListTasksRequest) (ambient : Ambient)

structure BoundedTaskStore where
  maxTasks : Nat
  layout : Layout

def StoreCall.perform [TaskCodec] (store : BoundedTaskStore) (s : StoreState) :
    StoreCall → StoreState
  | .create task => (Memory.create store.maxTasks s task).2
  | .update task => (Memory.update s task).2
  | .get _ => s
  | .list request ambient => (Memory.list store.layout s request ambient).2

/-- The state after a list of calls. -/
def BoundedTaskStore.after [TaskCodec] (store : BoundedTaskStore) (calls : List StoreCall) :
    StoreState :=
  calls.foldl (StoreCall.perform store) (.new store.layout)

end SmeshDurable.Memory
