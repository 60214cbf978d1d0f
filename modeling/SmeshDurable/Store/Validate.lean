import SmeshDurable.Store.Capacity

/-!
# Startup validators

The fail-closed checks that run before a database is served, and the first of them
again before every claim. Each is a decidable predicate of the tables; the checks are
those of the SQL and Rust passes, in their order, split by the row they look at.
-/

namespace SmeshDurable

variable [ContentDigest]

/-! ## Tasks, records and the outbox -/

/-- One event row decodes, belongs to its task and takes an allowed transition. -/
def eventValid (row : TaskRow) (event : EventRow) : Bool :=
  validBoundedIdentity row.tenantScope && row.task.id == event.eventTask.id &&
    0 < event.taskRevision && !event.eventKind.name.isEmpty &&
    event.eventKind.name.utf8ByteSize ≤ maxAtomicTextBytes &&
    event.eventTask.jsonBytes ≤ maxAtomicJsonBytes &&
    event.eventTask.status.state == event.toState &&
    event.fromState.all fun source => source.transitionAllowed event.eventTask.status.state

/-- The digest columns of a record agree with its version. -/
def recordDigestValid (d : Dispatch) : Bool :=
  match d.record.digestVersion with
  | 1 => d.record.actorAccountId.isNone && d.record.causativeRequest.isNone &&
      d.record.invocationStreaming.isNone
  | 2 =>
    match d.record.actorAccountId, d.record.causativeRequest, d.record.invocationStreaming with
    | some actor, some request, some streaming =>
      canonicalSendMessageDigestV2 d.tenantScope actor request streaming ==
          .ok d.record.requestDigest &&
        authorizedMessageIdentity d.tenantScope actor request.message.messageId == d.messageId
    | _, _, _ => false
  | _ => false

/-- An admission result names the task, or is a message of no other task. -/
def admissionMatches (response : SendMessageResponse) (taskId : String) : Bool :=
  match response with
  | .task task => task.id == taskId
  | .message message => message.taskId.all (· == taskId)

/-- The events stored for a task of a tenant. -/
def eventsOf (s : Store) (tenantScope taskId : String) : List EventRow :=
  match s.taskRow? taskId with
  | some row => if row.tenantScope = tenantScope then row.events else []
  | none => []

/-- A final result is the task of some stored event, or the message it carries. -/
def finalResultMatchesPersistedEvent (s : Store) (d : Dispatch) (result : SendMessageResponse) :
    Bool :=
  (eventsOf s d.tenantScope d.taskId).any fun event =>
    finalResultMatchesTask result event.eventTask

def recordValid (s : Store) (d : Dispatch) : Bool :=
  validBoundedIdentity d.tenantScope && !d.messageId.isEmpty && d.messageId.utf8ByteSize ≤ 4096 &&
    !d.record.requestDigest.isEmpty && d.record.requestDigest.utf8ByteSize ≤ 256 &&
    recordDigestValid d && d.dispatchIdentityVersion == d.record.digestVersion &&
    (d.record.state == .completed) == d.record.finalResult.isSome &&
    d.record.admissionResultJson.utf8ByteSize ≤ maxAtomicJsonBytes &&
    admissionMatches d.record.admissionResult d.taskId &&
    d.record.finalResult.all fun result =>
      result.jsonBytes ≤ maxAtomicJsonBytes && finalResultMatchesPersistedEvent s d result

/-- The message identity an outbox row must have, given its causative message. -/
def expectedMessageId (row : TaskRow) (d : Dispatch) (message : Message) : Option String :=
  if d.dispatchIdentityVersion = 2 then
    match d.record.actorAccountId with
    | some actor =>
      if d.causativeRevision ≠ 1 ∨ actor = row.ownerAccountId then
        some (authorizedMessageIdentity d.tenantScope actor message.messageId)
      else none
    | none => none
  else some message.messageId

def dispatchIdentityMatches (d : Dispatch) : Bool :=
  if d.dispatchIdentityVersion = 2 then d.dispatchId == dispatchIdentity d.tenantScope d.messageId
  else if d.dispatchIdentityVersion = 1 then
    d.dispatchId == dispatchIdentity legacyV4SentinelScope d.messageId ||
      d.dispatchId == dispatchIdentity trustedSingleTenantScope d.messageId
  else false

/-- The message that caused a dispatch: the last one of its causative event. -/
def causativeMessage? (s : Store) (d : Dispatch) : Option Message := do
  let event ← (eventsOf s d.tenantScope d.taskId).find? fun event =>
    event.taskRevision == d.causativeRevision
  let history ← event.eventTask.history
  history.getLast?

def outboxValid (s : Store) (d : Dispatch) : Bool :=
  match s.taskRow? d.taskId with
  | none => true
  | some row =>
    match causativeMessage? s d with
    | none => false
    | some message =>
      validBoundedIdentity d.tenantScope &&
        MeshRequest.fromA2a d.taskId row.task.contextId message (2 ^ 64 - 1) ==
          .ok d.payload &&
        expectedMessageId row d message == some d.messageId &&
        !d.messageId.isEmpty && d.messageId.utf8ByteSize ≤ maxAtomicTextBytes &&
        dispatchIdentityMatches d && !d.dispatchId.isEmpty &&
        d.payloadDigest == textDigest d.payload.encode &&
        d.payload.jsonBytes ≤ maxAtomicJsonBytes &&
        0 < d.maxAttempts && d.maxAttempts ≤ maxOutboxAttempts &&
        d.attemptCount ≤ d.maxAttempts &&
        optionalBytes d.lastError ≤ maxAtomicTextBytes &&
        d.leaseOwner.all fun owner =>
          !owner.isEmpty && owner.utf8ByteSize ≤ maxAtomicTextBytes

/-! ### Relational queries -/

/-- The last event carries the task's revision and document. -/
def taskMatchesLastEvent (row : TaskRow) : Bool :=
  match row.events.getLast? with
  | none => false
  | some event => event.taskRevision == row.revision && event.eventTask == row.task

/-- An event is numbered by its position, starts from the state its predecessor reached
and has the next revision; the first has no predecessor. -/
def eventChained (previous : Option EventRow) (index : Nat) (event : EventRow) : Bool :=
  event.eventSeq == index + 1 && 0 < event.taskRevision &&
  match previous with
  | none => event.fromState.isNone
  | some prior => event.fromState == some prior.toState &&
      event.taskRevision == prior.taskRevision + 1

/-- The event log as a chain. -/
def eventsChained : Option EventRow → Nat → List EventRow → Bool
  | _, _, [] => true
  | previous, index, event :: rest =>
    eventChained previous index event && eventsChained (some event) (index + 1) rest

/-- An outbox row refers to a stored revision of its task and has a lease exactly while it
is leased. -/
def outboxRelational (s : Store) (d : Dispatch) : Bool :=
  match s.taskRow? d.taskId with
  | none => true
  | some row =>
    d.causativeRevision ≤ row.revision &&
      (eventsOf s d.tenantScope d.taskId).any (·.taskRevision == d.causativeRevision) &&
      d.createdAt ≤ d.updatedAt &&
      ((d.state == .leased) ==
        (d.leaseOwner.isSome && d.leaseToken.isSome && d.leaseUntil.isSome)) &&
      (d.state == .leased ||
        (d.leaseOwner.isNone && d.leaseToken.isNone && d.leaseUntil.isNone))

/-- One attempt row: numbered by position, finished together with its outcome, and open
only under the row's current lease. -/
def attemptRelational (d : Dispatch) (attempt : AttemptRow) (index : Nat) : Bool :=
  attempt.attemptNo ≤ d.attemptCount && attempt.attemptNo == index + 1 &&
    attempt.finishedAt.all (attempt.startedAt ≤ ·) &&
    (attempt.finishedAt.isNone == attempt.outcome.isNone) &&
    (attempt.finishedAt.isSome ||
      (d.state == .leased && attempt.attemptNo == d.attemptCount &&
        d.leaseToken == some attempt.leaseToken)) &&
    optionalBytes attempt.error ≤ 4096

/-- The attempts of an outbox row: as many as counted, exactly one open while leased. -/
def attemptsRelational (d : Dispatch) : Bool :=
  d.attempts.zipIdx.all (fun (attempt, index) => attemptRelational d attempt index) &&
    d.attemptCount == d.attempts.length &&
    ((d.state == .leased) == (d.attempts.countP AttemptRow.isOpen == 1))

/-- The two relational queries of `validateAtomicRecords`. -/
def atomicRelationsValid (s : Store) : Bool :=
  s.tasks.all (fun row => taskMatchesLastEvent row && eventsChained none 0 row.events) &&
    s.dispatches.all (fun d => outboxRelational s d && attemptsRelational d)

def validateAtomicRecords (s : Store) : Bool :=
  s.eventBytes ≤ maxStoreJsonBytes && s.recordBytes ≤ maxStoreJsonBytes &&
    s.outboxBytes ≤ maxStoreJsonBytes && s.attemptBytes ≤ maxStoreJsonBytes &&
    s.tasks.all (fun row => row.events.all (eventValid row)) &&
    s.dispatches.all (recordValid s) && s.dispatches.all (outboxValid s) &&
    atomicRelationsValid s

/-! ## Receiver rows -/

def inboxRowValid (d : Dispatch) (inbox : InboxRow) : Bool :=
  validBoundedIdentity d.tenantScope && !d.dispatchId.isEmpty && d.dispatchId.utf8ByteSize ≤ 256 &&
    receiverRequestIsValid inbox.payload inbox.payload.jsonBytes &&
    inbox.payloadDigest == textDigest inbox.payload.encode && 0 < inbox.leaseEpoch &&
  match inbox.state with
  | .processing owner token _ =>
    !owner.isEmpty && owner.utf8ByteSize ≤ maxAtomicTextBytes && !token.isEmpty &&
      token.utf8ByteSize ≤ 256 && inbox.effectCommittedAt.isNone
  | .completed termination frameCount transcriptDigest _ =>
    match loadReceiverFrames inbox.frames frameCount transcriptDigest with
    | .ok events => decodeReceiverTermination termination &&
        validateReceiverOutcome events termination
    | .error _ => false

end SmeshDurable
