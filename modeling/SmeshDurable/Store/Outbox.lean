import SmeshDurable.Store.Admission

/-!
# Claiming and finishing outbox attempts

`claimOutbox` hands out one due dispatch under a fenced lease, or reconciles the
expired lease of a dispatch whose attempts are spent or whose receiver already
accepted it. `finishOutboxAttempt` ends an attempt under its lease: it schedules a
retry, dead-letters the dispatch, or, when the receiver accepted the work, leaves the
attempt reclaimable. Random bytes and generated identifiers are arguments.
-/

namespace SmeshDurable

open Transaction

/-- A leased dispatch as handed to a worker. -/
structure OutboxLease where
  tenantScope : String
  outboxId : Nat
  dispatchId : String
  taskId : String
  attemptNo : Nat
  maxAttempts : Nat
  leaseOwner : String
  leaseToken : String
  leaseUntil : Int
  request : MeshRequest
  ratificationRequired : Bool
deriving DecidableEq

inductive AttemptDisposition where
  | retry (availableAt : Int) (error : String)
  | permanent (error : String)
deriving DecidableEq

def AttemptDisposition.error : AttemptDisposition → String
  | .retry _ error => error
  | .permanent error => error

/-- The attempt was the last one: its failure is permanent, or no attempt is left. -/
def AttemptDisposition.final (exhausted : Bool) : AttemptDisposition → Bool
  | .retry .. => exhausted
  | .permanent _ => true

def AttemptDisposition.nextAttemptAt : AttemptDisposition → Option Int
  | .retry availableAt _ => some availableAt
  | .permanent _ => none

inductive TransitionOutcome where
  | applied | stale | deadLettered
deriving DecidableEq, Repr

/-- Little-endian bytes of a signed 64 bit integer. -/
def i64Bytes (value : Int) : List UInt8 :=
  (List.range 8).map fun i => UInt8.ofNat ((value % 2 ^ 64).toNat / 256 ^ i % 256)

/-- `now + duration`, unless it overflows the column. -/
def leaseEnd (now duration : Int) (error : String) : Except A2AError Int := do
  require (now + duration ≤ i64Max) (.invalidParams error)
  .ok (now + duration)

@[simp] theorem leaseEnd_eq_ok {now duration leaseUntil : Int} {error : String} :
    leaseEnd now duration error = .ok leaseUntil ↔
      now + duration ≤ i64Max ∧ now + duration = leaseUntil := by
  simp [leaseEnd]

/-! ## Row updates -/

namespace AttemptRow

/-- Close the attempt if it is open; a statement that sets no error leaves the column. -/
def close (outcome : AttemptOutcome) (error : Option String) (now : Int)
    (attempt : AttemptRow) : AttemptRow :=
  if attempt.isOpen then
    { attempt with finishedAt := some now, outcome := some outcome,
                   error := error <|> attempt.error }
  else attempt

/-- Close the attempt of a number if it is open under a token. -/
def finish (attemptNo : Nat) (token : String) (outcome : AttemptOutcome) (error : String)
    (next : Option Int) (now : Int) (attempt : AttemptRow) : AttemptRow :=
  if attempt.attemptNo = attemptNo ∧ attempt.leaseToken = token ∧ attempt.isOpen = true then
    { attempt with finishedAt := some now, outcome := some outcome, error := some error,
                   nextAttemptAt := next }
  else attempt

/-- Give the open attempt of a number a new fencing token. -/
def refence (attemptNo : Nat) (token : String) (now : Int) (attempt : AttemptRow) : AttemptRow :=
  if attempt.attemptNo = attemptNo ∧ attempt.isOpen = true then
    { attempt with leaseToken := token, startedAt := now, finishedAt := none, outcome := none,
                   error := none, nextAttemptAt := none }
  else attempt

end AttemptRow

namespace Dispatch

/-- A new attempt under a new lease; an attempt left open has expired. -/
def lease (d : Dispatch) (owner token : String) (leaseUntil now : Int) : Dispatch :=
  { d with
    state := .leased, attemptCount := d.attemptCount + 1, leaseOwner := some owner,
    leaseToken := some token, leaseUntil := some leaseUntil, updatedAt := now,
    attempts := d.attempts.map (AttemptRow.close .leaseExpired none now) ++
      [{ attemptNo := d.attemptCount + 1, leaseToken := token, startedAt := now,
         finishedAt := none, outcome := none, error := none, nextAttemptAt := none }] }

/-- The same attempt under a new lease. -/
def release (d : Dispatch) (owner token : String) (leaseUntil now : Int) : Dispatch :=
  { d with
    leaseOwner := some owner, leaseToken := some token, leaseUntil := some leaseUntil,
    updatedAt := now, attempts := d.attempts.map (AttemptRow.refence d.attemptCount token now) }

/-- Leave the leased state. -/
def settle (d : Dispatch) (state : OutboxState) (lastError : Option String) (now : Int) :
    Dispatch :=
  { d with state := state, leaseOwner := none, leaseToken := none, leaseUntil := none,
           lastError := lastError, updatedAt := now }

def closeAttempts (d : Dispatch) (outcome : AttemptOutcome) (error : Option String)
    (now : Int) : Dispatch :=
  { d with attempts := d.attempts.map (AttemptRow.close outcome error now) }

/-- The lease under which the row is held, as the worker sees it. -/
def leaseView (d : Dispatch) (owner token : String) (leaseUntil : Int) : OutboxLease :=
  { tenantScope := d.tenantScope, outboxId := d.outboxId, dispatchId := d.dispatchId,
    taskId := d.taskId, attemptNo := d.attemptCount, maxAttempts := d.maxAttempts,
    leaseOwner := owner, leaseToken := token, leaseUntil := leaseUntil, request := d.payload,
    ratificationRequired := d.ratificationRequired }

end Dispatch

/-! ## Dead letters -/

/-- The longest initial segment of whole characters within a number of bytes. -/
def takeBytes : Nat → List Char → List Char
  | _, [] => []
  | budget, c :: cs =>
    if c.utf8Size ≤ budget then c :: takeBytes (budget - c.utf8Size) cs else []

/-- The diagnostic stored with an interrupted transcript. -/
def interruptionError (error : String) : String :=
  streamInterruptionPrefix ++
    String.ofList (takeBytes (maxAtomicTextBytes - streamInterruptionPrefix.utf8ByteSize)
      error.toList)

/-- A task failed by an agent message. -/
def failedTask (task : Task) (messageId text : String) (now : Int) : Task :=
  { task with
    status :=
      { state := .failed
        timestamp := timestampOfMillis now
        message := some
          { messageId, contextId := some task.contextId, taskId := some task.id, role := .agent,
            parts := [Part.ofText text], metadata := none, extensions := none,
            referenceTaskIds := none } } }

/-- Bind the final result of a record that is still in progress. -/
def RecordRow.complete (record : RecordRow) (result : SendMessageResponse) (now : Int) :
    RecordRow :=
  if record.state = .inProgress then
    { record with state := .completed, finalResult := some result, updatedAt := now }
  else record

/-- Interrupt a transcript that is still open. -/
def TranscriptRow.interrupt (transcript : TranscriptRow) (error : String) (now : Int) :
    TranscriptRow :=
  if transcript.state = .open then
    { transcript with state := .interrupted (interruptionError error), updatedAt := now }
  else transcript

/-- The record and transcript of a dead-lettered dispatch. -/
def Dispatch.deadLetter (d : Dispatch) (result : SendMessageResponse) (error : String)
    (now : Int) : Dispatch :=
  { d with record := d.record.complete result now,
           transcript := d.transcript.map (·.interrupt error now) }

/-- Fail the task of a dispatch, unless it is terminal, and publish the failure to the
dispatch's record and transcript. -/
def deadLetterTask (taskId dispatchId error messageId : String) (now : Int) (s : Store) :
    Except A2AError Store := do
  let row ← expect (s.taskRow? taskId) (.taskNotFound taskId)
  let task ← decodeTask row.task
  if task.status.state.isTerminal then .ok s
  else
    require (task.status.state.transitionAllowed .failed)
      (.unsupportedOperation "task state cannot transition to dead-letter failure")
    let failed := failedTask task messageId
      ("Dispatch dead-lettered after bounded retries: " ++ error) now
    encodeTask failed
    let revision ← nextRevision row.revision
    let updated := s.putTask (row.append revision .deadLettered failed now)
    let s' :=
      { updated with
        dispatches := updated.dispatches.map fun d =>
          if d.dispatchId = dispatchId ∧ d.tenantScope = row.tenantScope ∧ d.taskId = taskId then
            d.deadLetter (.task failed) error now
          else d }
    ensureStreamCapacity s'
    .ok s'

/-! ## Claim -/

section Claim

variable [ContentDigest]

/-- The fencing token of a claim. -/
def claimToken (dispatchId owner : String) (now : Int) (entropy : List UInt8) : String :=
  contentDigest (dispatchId.toUTF8.data.toList ++ owner.toUTF8.data.toList ++ i64Bytes now ++ entropy)

/-- The receiver accepted the payload of the row. -/
def Dispatch.receiverAccepted (d : Dispatch) : Bool :=
  d.inbox.any fun inbox => inbox.payloadDigest == d.payloadDigest

/-- Leased under a lease that has run out. -/
def Dispatch.leaseExpired (d : Dispatch) (now : Int) : Bool :=
  d.state == .leased && d.leaseUntil.any (· ≤ now)

/-- The order of the queue: by an instant, then by the row id. -/
def orderedBy (instant : Dispatch → Int) (d e : Dispatch) : Bool :=
  instant d < instant e || instant d == instant e && d.outboxId < e.outboxId

/-- Expired leases that need no new attempt: the attempts are spent, or the receiver
accepted. -/
def expiredFinal? (s : Store) (now : Int) : Option Dispatch :=
  Keyed.first? (orderedBy fun d => d.leaseUntil.getD 0) (s.dispatches.filter fun d =>
    d.leaseExpired now && (d.maxAttempts ≤ d.attemptCount || d.receiverAccepted))

/-- Work for a new attempt. -/
def Dispatch.claimable (d : Dispatch) (now : Int) : Bool :=
  ((d.state == .pending && d.availableAt ≤ now) || d.leaseExpired now) &&
    d.attemptCount < d.maxAttempts

def claimable? (s : Store) (now : Int) : Option Dispatch :=
  Keyed.first? (orderedBy Dispatch.availableAt) (s.dispatches.filter fun d => d.claimable now)

/-- The receiver holds a live lease. -/
def InboxRow.live (inbox : InboxRow) (now : Int) : Bool :=
  inbox.state.leaseUntil?.any (now < ·)

def expiredFinalError : String :=
  "final outbox attempt lease expired before receiver acceptance"

/-- Reconcile an expired lease: wait for a live receiver, lease the attempt again when the
receiver accepted, and dead-letter it otherwise. -/
def reconcileExpired (d : Dispatch) (owner : String) (now duration : Int)
    (entropy : List UInt8) (messageId : String) (s : Store) :
    Except A2AError (Option OutboxLease × Store) :=
  match d.inbox with
  | some inbox => do
      require (inbox.payloadDigest = d.payloadDigest)
        (.internal "receiver dispatch identity is bound to a conflicting payload")
      if inbox.live now then .ok (none, s)
      else
        let leaseUntil ← leaseEnd now duration "outbox lease time overflow"
        let token := claimToken d.dispatchId owner now entropy
        let s' := s.putDispatch (d.release owner token leaseUntil now)
        ensureAtomicCapacity s'
        .ok (some (d.leaseView owner token leaseUntil), s')
  | none => do
      let row ← expect (s.taskRow? d.taskId) (.internal "expired final task arbitration failed")
      let closed := d.closeAttempts .dead (some expiredFinalError) now
      let failed ← deadLetterTask d.taskId d.dispatchId expiredFinalError messageId now
        (s.putDispatch closed)
      let state := if row.task.status.state.isTerminal then OutboxState.superseded else .dead
      let s' :=
        { failed with
          dispatches := failed.dispatches.map fun x =>
            if x.outboxId = d.outboxId then x.settle state (some expiredFinalError) now else x }
      ensureAtomicCapacity s'
      .ok (none, s')

/-- Claim one due dispatch. -/
def claimOutbox (owner : String) (now duration : Int) (entropy : List UInt8)
    (messageId : String) (s : Store) : Except A2AError (Option OutboxLease × Store) := do
  require (owner.isEmpty = false ∧ owner.utf8ByteSize ≤ maxAtomicTextBytes ∧ 0 < duration)
    (.invalidParams "invalid outbox lease")
  require (validateAtomicRecords s = true) (.internal "durable outbox binding is corrupt")
  match expiredFinal? s now with
  | some d => reconcileExpired d owner now duration entropy messageId s
  | none =>
    match claimable? s now with
    | none => .ok (none, s)
    | some d =>
      let leaseUntil ← leaseEnd now duration "outbox lease time overflow"
      let token := claimToken d.dispatchId owner now entropy
      let leased := d.lease owner token leaseUntil now
      let s' := s.putDispatch leased
      ensureAtomicCapacity s'
      .ok (some (leased.leaseView owner token leaseUntil), s')

/-! ## Finish -/

/-- The row is leased under exactly the presented lease. -/
def Dispatch.heldBy (d : Dispatch) (lease : OutboxLease) : Bool :=
  d.outboxId == lease.outboxId && d.state == .leased && d.leaseToken == some lease.leaseToken &&
    d.tenantScope == lease.tenantScope && d.dispatchId == lease.dispatchId &&
    d.taskId == lease.taskId && d.attemptCount == lease.attemptNo &&
    d.leaseOwner == some lease.leaseOwner && d.leaseUntil == some lease.leaseUntil

/-- A cancellation was requested and the receiver has not answered it. -/
def Dispatch.cancellationRequested (d : Dispatch) : Bool :=
  d.intent.any fun intent => intent.state == .requested

def Dispatch.finishAttempt (d : Dispatch) (lease : OutboxLease) (outcome : AttemptOutcome)
    (error : String) (next : Option Int) (now : Int) : Dispatch :=
  let finish := AttemptRow.finish lease.attemptNo lease.leaseToken outcome error next now
  { d with attempts := d.attempts.map finish }

/-- The fencing token of a reconciliation. -/
def reconciliationToken (dispatchId : String) (now : Int) (entropy : List UInt8) : String :=
  contentDigest (dispatchId.toUTF8.data.toList ++ ("finish-reconciliation").toUTF8.data.toList ++
    i64Bytes now ++ entropy)

/-- End an attempt whose row is held by the presented lease. -/
def finishHeld (d : Dispatch) (lease : OutboxLease) (disposition : AttemptDisposition)
    (now : Int) (entropy : List UInt8) (messageId : String) (s : Store) :
    Except A2AError (TransitionOutcome × Store) := do
  let dead := disposition.final (decide (d.maxAttempts ≤ d.attemptCount))
  let next := disposition.nextAttemptAt
  let error := disposition.error
  match (if dead then d.inbox else none) with
  | some inbox =>
    require (inbox.payloadDigest = d.payloadDigest)
      (.internal "receiver dispatch identity is bound to a conflicting payload")
    let token := reconciliationToken lease.dispatchId now entropy
    let s' := s.putDispatch (d.release "receiver-reconciliation" token now now)
    ensureAtomicCapacity s'
    .ok (.applied, s')
  | none =>
    require (error.utf8ByteSize ≤ maxAtomicTextBytes)
      (.invalidParams "outbox error diagnostic exceeds limit")
    if dead then
      let closed := (d.finishAttempt lease .dead error next now).settle .dead (some error) now
      let s' ← deadLetterTask lease.taskId lease.dispatchId error messageId now
        (s.putDispatch closed)
      ensureAtomicCapacity s'
      .ok (.deadLettered, s')
    else
      let closed := (d.finishAttempt lease .retry error next now).settle .pending
        (some error) now
      let s' := s.putDispatch { closed with availableAt := next.getD closed.availableAt }
      ensureAtomicCapacity s'
      .ok (.applied, s')

/-- End an attempt under its lease. -/
def finishOutboxAttempt (lease : OutboxLease) (disposition : AttemptDisposition) (now : Int)
    (entropy : List UInt8) (messageId : String) (s : Store) :
    Except A2AError (TransitionOutcome × Store) :=
  match s.dispatches.find? fun d => d.heldBy lease with
  | none => .ok (.stale, s)
  | some d =>
    if d.maxAttempts ≠ lease.maxAttempts ∨ lease.leaseUntil ≤ now then .ok (.stale, s)
    else if d.cancellationRequested then .ok (.stale, s)
    else finishHeld d lease disposition now entropy messageId s

end Claim

end SmeshDurable
