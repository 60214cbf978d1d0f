import SmeshDurable.Store.Cancellation

/-!
# Restart recovery

`recoverOrphanedTasks` runs once when a database is opened, after the validators. The
prior process is gone, so its leases are void: receiver leases expire, the leases of
accepted dispatches expire with them, exhausted attempts nobody accepted are
dead-lettered, the other leased dispatches become pending again, and tasks that no
dispatch can finish any more are failed. Each of the three loops of the source repeats
a query until it is empty; a row that was handled no longer satisfies the query, so a
loop is one pass over the rows in the order of the query.
-/

namespace SmeshDurable

open Transaction

inductive SqliteStoreError where
  | invalidSchema | initialization | capacity
deriving DecidableEq, Repr

/-- Choices of the environment during one recovery: the wall clock of the failed tasks'
timestamps and the generated message identifiers. -/
structure RecoveryChoices where
  timestamp : Instant
  messageId : String → String

/-- A failure of a durable operation inside recovery. -/
def asInitialization {α : Type} (result : Except A2AError α) : Except SqliteStoreError α :=
  match result with
  | .ok a => .ok a
  | .error _ => .error .initialization

/-- Void the lease of a processing receiver. -/
def InboxRow.voidLease (now : Int) (inbox : InboxRow) : InboxRow :=
  match inbox.state with
  | .processing owner token _ =>
    { inbox with state := .processing owner token 0, updatedAt := now }
  | .completed .. => inbox

/-- Void the leases of the prior process. -/
def Dispatch.voidLeases (now : Int) (d : Dispatch) : Dispatch :=
  let inbox := d.inbox.map (InboxRow.voidLease now)
  if d.state = .leased ∧ d.receiverAccepted = true then
    { d with inbox, leaseUntil := some 0, updatedAt := now }
  else { d with inbox }

def abandonedFinalError : String :=
  "final outbox attempt was abandoned by the prior process"

/-- Dead-letter one exhausted attempt that no receiver accepted. -/
def recoverExpiredFinal (choices : RecoveryChoices) (now : Int) (s : Store) (outboxId : Nat) :
    Except SqliteStoreError Store :=
  match Keyed.get? Dispatch.outboxId s.dispatches outboxId with
  | none => .ok s
  | some d =>
    if d.state = .leased ∧ d.maxAttempts ≤ d.attemptCount ∧ d.receiverAccepted = false then do
      let row ← expect (s.taskRow? d.taskId) .initialization
      let closed := d.closeAttempts .dead (some abandonedFinalError) now
      let failed ← asInitialization (deadLetterTask d.taskId d.dispatchId abandonedFinalError
        (choices.messageId d.taskId) now (s.putDispatch closed))
      let state := if row.task.status.state.isTerminal then OutboxState.superseded else .dead
      .ok { failed with
        dispatches := failed.dispatches.map fun x =>
          if x.outboxId = outboxId then x.settle state (some abandonedFinalError) now else x }
    else .ok s

def deliveredOrphanError : String :=
  "delivered outbox intent lacked a terminal transition at restart; " ++
    "downstream effect outcome is unknown"

/-- Dead-letter one delivered dispatch whose task never moved on. -/
def recoverDelivered (choices : RecoveryChoices) (now : Int) (s : Store) (outboxId : Nat) :
    Except SqliteStoreError Store :=
  match Keyed.get? Dispatch.outboxId s.dispatches outboxId with
  | none => .ok s
  | some d =>
    match s.taskRow? d.taskId with
    | none => .ok s
    | some row =>
      if d.state = .delivered ∧ d.causativeRevision = row.revision ∧
          row.task.status.state.isTerminal = false then do
        let failed ← asInitialization (deadLetterTask d.taskId d.dispatchId
          deliveredOrphanError (choices.messageId d.taskId) now s)
        .ok { failed with
          dispatches := failed.dispatches.map fun x =>
            if x.taskId = d.taskId ∧ x.state = .delivered then
              { x with state := .superseded, lastError := some deliveredOrphanError,
                       updatedAt := now }
            else x }
      else .ok s

/-- Return a leased dispatch that no receiver accepted to the queue. -/
def Dispatch.abandon (now : Int) (d : Dispatch) : Dispatch :=
  if d.state = .leased ∧ d.receiverAccepted = false then
    let closed := d.closeAttempts .abandoned none now
    { closed.settle .pending d.lastError now with availableAt := min d.availableAt now }
  else d

/-- Some dispatch can still finish the task. -/
def Store.hasLiveDispatch (s : Store) (taskId : String) : Bool :=
  s.dispatches.any fun d => d.taskId == taskId && d.state.cancelable

/-- Fail one task that no dispatch can finish. -/
def recoverOrphan (choices : RecoveryChoices) (now : Int) (s : Store) (taskId : String) :
    Except SqliteStoreError Store :=
  match s.taskRow? taskId with
  | none => .ok s
  | some row =>
    if row.task.status.state.isTerminal = false ∧ s.hasLiveDispatch taskId = false then do
      require (row.task.status.state.transitionAllowed .failed) .invalidSchema
      let text := "Task failed during restart recovery because its prior execution was orphaned"
      let failed := failedTask row.task (choices.messageId taskId) text now
      let task := { failed with status := { failed.status with
        timestamp := some choices.timestamp } }
      require (task.jsonBytes ≤ maxTaskJsonBytes) .capacity
      let s' := s.putTask (row.append (row.revision + 1) .restartOrphanFailed task now)
      require ((s'.tasks.map fun row => row.task.jsonBytes).sum ≤ maxStoreJsonBytes) .capacity
      require ((row.revision : Int) + 1 ≤ i64Max) .capacity
      .ok s'
    else .ok s

/-- Repeat a recovery step along a list of keys. -/
def recoverAll {Key : Type} (step : Store → Key → Except SqliteStoreError Store) :
    List Key → Store → Except SqliteStoreError Store
  | [], s => .ok s
  | key :: keys, s => do
      let s' ← step s key
      recoverAll step keys s'

/-- Recover the store after a restart. -/
def recoverOrphanedTasks (choices : RecoveryChoices) (now : Int) (s : Store) :
    Except SqliteStoreError Store := do
  let voided := { s with dispatches := s.dispatches.map (Dispatch.voidLeases now) }
  let outboxIds := s.dispatches.map Dispatch.outboxId
  let finals ← recoverAll (recoverExpiredFinal choices now) outboxIds voided
  let delivered ← recoverAll (recoverDelivered choices now) outboxIds finals
  let abandoned := { delivered with
    dispatches := delivered.dispatches.map (Dispatch.abandon now) }
  let recovered ← recoverAll (recoverOrphan choices now)
    (s.tasks.map fun row => row.task.id) abandoned
  require (ensureAtomicCapacity recovered = .ok ()) .capacity
  .ok recovered

end SmeshDurable
