import SmeshDurable.Store.Records

/-!
# Byte accounting

The sums of column lengths that bound the store, one per table, and the checks that
compare them with the limits.
-/

namespace SmeshDurable

open Transaction

/-- The text of a task state column: the wire name in quotes. -/
def stateKeyBytes (state : TaskState) : Nat := state.wireName.utf8ByteSize + 2

namespace TaskRow

def bytes (row : TaskRow) : Nat :=
  row.task.id.utf8ByteSize + row.task.contextId.utf8ByteSize +
    stateKeyBytes row.task.status.state +
    optionalBytes (row.task.status.timestamp.map Instant.renderOffset) + row.task.jsonBytes

def eventBytes (row : TaskRow) : Nat :=
  (row.events.map fun event =>
    row.tenantScope.utf8ByteSize + row.task.id.utf8ByteSize +
      event.eventKind.name.utf8ByteSize + event.fromState.elim 0 stateKeyBytes +
      stateKeyBytes event.toState + event.eventTask.jsonBytes).sum

end TaskRow

namespace RecordRow

def finalBytes (record : RecordRow) : Nat :=
  record.finalResult.elim 0 SendMessageResponse.jsonBytes

end RecordRow

namespace InboxRow

def leaseBytes (inbox : InboxRow) : Nat :=
  match inbox.state with
  | .processing owner token _ => owner.utf8ByteSize + token.utf8ByteSize
  | .completed termination _ digest _ =>
    digest.utf8ByteSize + optionalBytes termination.payload

def frameBytes (inbox : InboxRow) : Nat :=
  (inbox.frames.map fun row => row.event.jsonBytes + row.frameDigest.utf8ByteSize).sum

end InboxRow

namespace Dispatch

def recordBytes (d : Dispatch) : Nat :=
  d.tenantScope.utf8ByteSize + d.messageId.utf8ByteSize + d.record.requestDigest.utf8ByteSize +
    d.taskId.utf8ByteSize + d.record.state.name.utf8ByteSize +
    d.record.admissionResultJson.utf8ByteSize + d.record.finalBytes

def outboxBytes (d : Dispatch) : Nat :=
  d.dispatchId.utf8ByteSize + d.tenantScope.utf8ByteSize + d.taskId.utf8ByteSize +
    d.payload.jsonBytes + d.payloadDigest.utf8ByteSize + d.state.name.utf8ByteSize +
    optionalBytes d.leaseOwner + optionalBytes d.leaseToken + optionalBytes d.lastError

def attemptBytes (d : Dispatch) : Nat :=
  (d.attempts.map fun attempt =>
    attempt.leaseToken.utf8ByteSize + optionalBytes (attempt.outcome.map AttemptOutcome.name) +
      optionalBytes attempt.error).sum

def inboxBytes (d : Dispatch) : Nat :=
  d.inbox.elim 0 fun inbox =>
    d.tenantScope.utf8ByteSize + d.dispatchId.utf8ByteSize + inbox.payloadDigest.utf8ByteSize +
      inbox.payload.jsonBytes + inbox.payload.taskId.utf8ByteSize +
      inbox.payload.contextId.utf8ByteSize + inbox.leaseBytes + inbox.frameBytes +
      inbox.effectCommittedAt.elim 0 fun _ =>
        d.tenantScope.utf8ByteSize + d.dispatchId.utf8ByteSize + ("accepted").utf8ByteSize

def streamBytes (d : Dispatch) : Nat :=
  d.transcript.elim 0 fun transcript =>
    d.tenantScope.utf8ByteSize + d.messageId.utf8ByteSize + d.dispatchId.utf8ByteSize +
      d.taskId.utf8ByteSize + transcript.state.name.utf8ByteSize +
      transcript.transcriptDigest.utf8ByteSize + optionalBytes transcript.state.interruption +
      (transcript.frames.map fun row =>
        d.tenantScope.utf8ByteSize + d.messageId.utf8ByteSize +
          (publicStreamKind row.frame).utf8ByteSize + row.frameJson.utf8ByteSize +
          row.frameDigest.utf8ByteSize).sum

end Dispatch

namespace Store

def taskBytes (s : Store) : Nat := (s.tasks.map TaskRow.bytes).sum
def eventBytes (s : Store) : Nat := (s.tasks.map TaskRow.eventBytes).sum
def recordBytes (s : Store) : Nat := (s.dispatches.map Dispatch.recordBytes).sum
def outboxBytes (s : Store) : Nat := (s.dispatches.map Dispatch.outboxBytes).sum
def attemptBytes (s : Store) : Nat := (s.dispatches.map Dispatch.attemptBytes).sum
def inboxBytes (s : Store) : Nat := (s.dispatches.map Dispatch.inboxBytes).sum
def streamBytes (s : Store) : Nat := (s.dispatches.map Dispatch.streamBytes).sum
end Store

def ensureReceiverCapacity (s : Store) : Except A2AError Unit :=
  require (s.inboxBytes ≤ maxStoreJsonBytes) (.internal "receiver store byte capacity reached")

def ensureStreamCapacity (s : Store) : Except A2AError Unit :=
  require (s.streamBytes ≤ maxStoreJsonBytes) (.internal "stream transcript byte capacity reached")

/-- The tasks, events, records, outbox rows and attempts are each within the limit. -/
def Store.atomicFits (s : Store) : Bool :=
  s.taskBytes ≤ maxStoreJsonBytes && s.eventBytes ≤ maxStoreJsonBytes &&
    s.recordBytes ≤ maxStoreJsonBytes && s.outboxBytes ≤ maxStoreJsonBytes &&
    s.attemptBytes ≤ maxStoreJsonBytes

def ensureAtomicCapacity (s : Store) : Except A2AError Unit :=
  require (s.atomicFits = true) (.internal "durable store byte capacity reached")

/-- Encode a task for storage. -/
def encodeTask (task : Task) : Except A2AError Unit :=
  require (task.jsonBytes ≤ maxTaskJsonBytes)
    (.invalidParams "task exceeds persistent storage limit")

/-- Decode a stored task. -/
def decodeTask (task : Task) : Except A2AError Task := do
  require (task.jsonBytes ≤ maxTaskJsonBytes)
    (.internal "persistent task record exceeds storage limit")
  .ok task

@[simp] theorem ensureReceiverCapacity_eq_ok {s : Store} {u : Unit} :
    ensureReceiverCapacity s = .ok u ↔ s.inboxBytes ≤ maxStoreJsonBytes := by
  simp [ensureReceiverCapacity]

@[simp] theorem ensureStreamCapacity_eq_ok {s : Store} {u : Unit} :
    ensureStreamCapacity s = .ok u ↔ s.streamBytes ≤ maxStoreJsonBytes := by
  simp [ensureStreamCapacity]

@[simp] theorem ensureAtomicCapacity_eq_ok {s : Store} {u : Unit} :
    ensureAtomicCapacity s = .ok u ↔ s.atomicFits = true := by
  simp [ensureAtomicCapacity]

@[simp] theorem encodeTask_eq_ok {task : Task} {u : Unit} :
    encodeTask task = .ok u ↔ task.jsonBytes ≤ maxTaskJsonBytes := by
  simp [encodeTask]

@[simp] theorem decodeTask_eq_ok {task decoded : Task} :
    decodeTask task = .ok decoded ↔ task.jsonBytes ≤ maxTaskJsonBytes ∧ task = decoded := by
  simp [decodeTask]

/-! ## Authorization audit -/

def AuthorizationAuditInput.encodedBytes (audit : AuthorizationAuditInput) : Nat :=
  audit.decisionId.utf8ByteSize + audit.tenantScope.utf8ByteSize +
    audit.actorAccountId.utf8ByteSize + audit.policyId.utf8ByteSize +
    audit.policyDigest.utf8ByteSize + audit.operation.utf8ByteSize + audit.reason.utf8ByteSize +
    audit.resourceKind.utf8ByteSize + audit.resourceDigest.utf8ByteSize +
    optionalBytes audit.taskId

/-- The decision as recorded once the operation has decided. -/
def AuthorizationAuditInput.decided (audit : AuthorizationAuditInput) (effectAllow : Bool)
    (reason : String) (taskId : Option String) : AuthorizationAuditInput :=
  { audit with effectAllow, reason, taskId }

/-- Append a decision to the audit table. -/
def insertAuthorizationAudit (s : Store) (audit : AuthorizationAuditInput) :
    Except A2AError Store := do
  require (s.decisions.length < maxAuthorizationDecisions ∧
      (s.decisions.map AuthorizationAuditInput.encodedBytes).sum + audit.encodedBytes ≤
        maxStoreJsonBytes)
    (.internal "authorization audit capacity reached")
  require ((s.decisions.all fun decision => decision.decisionId != audit.decisionId) ∧
      (audit.taskId.all fun taskId =>
        s.tasks.any fun row => row.task.id == taskId && row.tenantScope == audit.tenantScope))
    (.internal "authorization audit append failed")
  .ok { s with decisions := s.decisions ++ [audit] }

theorem insertAuthorizationAudit_eq_ok {s s' : Store} {audit : AuthorizationAuditInput}
    (h : insertAuthorizationAudit s audit = .ok s') :
    s' = { s with decisions := s.decisions ++ [audit] } := by
  simp only [insertAuthorizationAudit, bind_eq_ok, require_eq_ok] at h
  obtain ⟨_, _, _, _, h⟩ := h
  exact (Except.ok.inj h).symm

end SmeshDurable
