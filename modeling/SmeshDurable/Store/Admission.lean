import SmeshDurable.Store.Validate

/-!
# Admission

`admitSendMessage` creates a task with its first event, its idempotency record, its
outbox row and, for a streaming request, its transcript; `admitContinuation` appends a
message to a task that waits for input and enqueues the next dispatch. Both replay a
message identity that is already bound, and both run locally or under an authorization
whose decision is recorded in the same transaction.
-/

namespace SmeshDurable

open Transaction

/-- The scope a request was resolved to. -/
structure OwnedTaskScope where
  tenantScope : String
  ownerAccountId : String
  ownOnly : Bool
  tenantScope_valid : validBoundedIdentity tenantScope = true
  ownerAccountId_valid : validBoundedIdentity ownerAccountId = true

/-- An authorized caller: the resolved scope and the decision to be recorded. -/
structure Authorization where
  scope : OwnedTaskScope
  audit : AuthorizationAuditInput

/-- The decision allows the scope's own account. -/
def Authorization.matchesScope (auth : Authorization) : Bool :=
  auth.audit.tenantScope == auth.scope.tenantScope &&
    auth.audit.actorAccountId == auth.scope.ownerAccountId && auth.audit.effectAllow

/-- A command to admit or continue. -/
structure SendMessageAdmission where
  request : SendMessageRequest
  streaming : Bool
  task : Task
  originalResult : SendMessageResponse
  maxTextBytes : Nat
  now : Int
  maxAttempts : Nat

inductive AdmissionOutcome where
  | admitted (taskId : String) (revision : Nat) (dispatchId : String)
  | replay (response : SendMessageResponse)
deriving DecidableEq

section Identity

variable [ContentDigest] (cfg : Config) (auth : Option Authorization)

def tenantOf : String := auth.elim cfg.defaultScope (·.scope.tenantScope)

def accountOf : String := auth.elim cfg.defaultAccount (·.scope.ownerAccountId)

def identityVersion : Nat := if auth.isSome then 2 else 1

/-- The identity a message is stored under: its own, or the one bound to the actor. -/
def messageIdentity (messageId : String) : String :=
  auth.elim messageId fun a =>
    authorizedMessageIdentity (tenantOf cfg auth) a.audit.actorAccountId messageId

def requestDigest (request : SendMessageRequest) (streaming : Bool) : Except A2AError String :=
  match auth with
  | none => .ok (canonicalSendMessageDigest request streaming)
  | some a =>
    canonicalSendMessageDigestV2 (tenantOf cfg auth) a.audit.actorAccountId request streaming

end Identity

/-- The instant of a clock value, if a date can represent it. -/
def timestampOfMillis (now : Int) : Option Instant :=
  if -8334601228800000 ≤ now ∧ now ≤ 8210266876799999 then some (.ofMillis now) else none

/-- The record bound to a message identity. -/
def Store.dispatchOfMessage? (s : Store) (tenantScope messageId : String) : Option Dispatch :=
  s.dispatches.find? fun d => d.tenantScope = tenantScope ∧ d.messageId = messageId

/-- The next revision, unless the column is exhausted. -/
def nextRevision (revision : Nat) : Except A2AError Nat := do
  require ((revision : Int) + 1 ≤ i64Max) (.internal "persistent task revision exhausted")
  .ok (revision + 1)

@[simp] theorem nextRevision_eq_ok {revision next : Nat} :
    nextRevision revision = .ok next ↔ (revision : Int) + 1 ≤ i64Max ∧ revision + 1 = next := by
  simp [nextRevision]

theorem Store.dispatchOfMessage?_eq_some {s : Store} {tenantScope messageId : String}
    {d : Dispatch} (h : s.dispatchOfMessage? tenantScope messageId = some d) :
    d ∈ s.dispatches ∧ d.tenantScope = tenantScope ∧ d.messageId = messageId :=
  ⟨List.mem_of_find?_eq_some h, by simpa using List.find?_some h⟩

theorem Store.dispatchOfMessage?_eq_none {s : Store} {tenantScope messageId : String}
    (h : s.dispatchOfMessage? tenantScope messageId = none) :
    ∀ d ∈ s.dispatches, ¬ (d.tenantScope = tenantScope ∧ d.messageId = messageId) := by
  simpa [Store.dispatchOfMessage?, List.find?_eq_none] using h

/-- The sequence number after the largest one in the log. -/
def TaskRow.nextEventSeq (row : TaskRow) : Nat :=
  (row.events.map EventRow.eventSeq).foldr max 0 + 1

/-- An event appended to the log of a task. -/
def TaskRow.append (row : TaskRow) (revision : Nat) (kind : EventKind) (task : Task) (now : Int) :
    TaskRow :=
  { row with
    revision := revision
    task := task
    events := row.events ++
      [{ eventSeq := row.nextEventSeq, taskRevision := revision, eventKind := kind,
         fromState := some row.task.status.state, toState := task.status.state,
         eventTask := task, createdAt := now }] }

section Rows

variable [ContentDigest]

/-- A frame as it is inserted. -/
def FrameRow.ofFrame (o : HashOrder) (frameSeq : Nat) (frame : StreamResponse) (now : Int) :
    FrameRow :=
  let frameJson := (frame.toJson o).render
  { frameSeq, frame, frameJson, frameDigest := textDigest frameJson, createdAt := now }

/-- The transcript of a streaming admission: one frame, the task. -/
def openTranscript (o : HashOrder) (task : Task) (now : Int) : TranscriptRow :=
  { state := .open, frameCount := 1,
    transcriptDigest := textDigest (encodeFrames o [.task task]),
    createdAt := now, updatedAt := now, frames := [FrameRow.ofFrame o 1 (.task task) now] }

/-- The idempotency record of an admission. -/
def admissionRecord (o : HashOrder) (auth : Option Authorization) (digest : String)
    (command : SendMessageAdmission) (result : SendMessageResponse) : RecordRow :=
  { requestDigest := digest, state := .inProgress, admissionResult := result,
    admissionResultJson := (result.toJson o).render, finalResult := none,
    digestVersion := identityVersion auth,
    actorAccountId := auth.map (·.audit.actorAccountId),
    causativeRequest := auth.map fun _ => command.request,
    invocationStreaming := auth.map fun _ => command.streaming,
    createdAt := command.now, updatedAt := command.now }

/-- The outbox row of an admission. -/
def admittedDispatch (o : HashOrder) (cfg : Config) (auth : Option Authorization)
    (outboxId : Nat) (messageId digest : String) (revision : Nat) (payload : MeshRequest)
    (command : SendMessageAdmission) (task : Task) (result : SendMessageResponse) : Dispatch :=
  { outboxId, dispatchId := dispatchIdentity (tenantOf cfg auth) messageId,
    tenantScope := tenantOf cfg auth, taskId := task.id, messageId,
    causativeRevision := revision, payload, payloadDigest := textDigest payload.encode,
    state := .pending, attemptCount := 0, maxAttempts := command.maxAttempts,
    availableAt := command.now, leaseOwner := none, leaseToken := none, leaseUntil := none,
    lastError := none, createdAt := command.now, updatedAt := command.now,
    dispatchIdentityVersion := identityVersion auth, ratificationRequired := false,
    attempts := [], record := admissionRecord o auth digest command result, inbox := none,
    transcript := if command.streaming then some (openTranscript o task command.now) else none,
    intent := none }

/-- Record the decision of an authorized operation. -/
def recordDecision (auth : Option Authorization) (reason : String) (taskId : Option String)
    (s : Store) : Except A2AError Store :=
  match auth with
  | none => .ok s
  | some a => insertAuthorizationAudit s (a.audit.decided true reason taskId)

omit [ContentDigest] in
theorem recordDecision_eq_ok {auth : Option Authorization} {reason : String}
    {taskId : Option String} {s s' : Store} (h : recordDecision auth reason taskId s = .ok s') :
    ∃ decisions, s' = { s with decisions := s.decisions ++ decisions } := by
  cases auth with
  | none =>
    obtain rfl := Except.ok.inj h
    exact ⟨[], by simp⟩
  | some a => exact ⟨_, insertAuthorizationAudit_eq_ok h⟩

/-- The result a bound message identity replays: the final one once there is one. -/
def RecordRow.replayResult (record : RecordRow) : SendMessageResponse :=
  record.finalResult.getD record.admissionResult

def liftInput (result : Except InputError MeshRequest) : Except A2AError MeshRequest :=
  match result with
  | .ok request => .ok request
  | .error error => .error (.invalidParams error.text)

omit [ContentDigest] in
@[simp] theorem liftInput_eq_ok {result : Except InputError MeshRequest} {request : MeshRequest} :
    liftInput result = .ok request ↔ result = .ok request := by
  cases result <;> simp [liftInput]

/-! ## Replay -/

/-- The result bound to an authorized message identity, for a caller that may see the task;
the replay is recorded as a decision. -/
def replayAuthorized (auth : Authorization) (request : SendMessageRequest) (streaming : Bool)
    (s : Store) : Except A2AError (Option SendMessageResponse × Store) := do
  require (auth.matchesScope = true) (.invalidRequest "authorized replay scope mismatch")
  let tenant := auth.scope.tenantScope
  let actor := auth.audit.actorAccountId
  let storageId := authorizedMessageIdentity tenant actor request.message.messageId
  let digest ← canonicalSendMessageDigestV2 tenant actor request streaming
  match s.dispatches.find? fun d =>
      d.tenantScope = tenant ∧ d.messageId = storageId ∧
        (s.tasks.any fun row => row.tenantScope == tenant && row.task.id == d.taskId &&
          (!auth.scope.ownOnly || row.ownerAccountId == auth.scope.ownerAccountId)) with
  | none => .ok (none, s)
  | some bound =>
    require (bound.record.requestDigest = digest)
      (.invalidRequest "idempotency key is already bound to different request semantics")
    let s' ← insertAuthorizationAudit s (auth.audit.decided true "idempotent_replay" none)
    .ok (some bound.record.replayResult, s')

/-! ## New tasks -/

/-- The task and result of an admission are exactly those of its request. -/
def admissionMatchesRequest (command : SendMessageAdmission) : Bool :=
  command.task.history == some [command.request.message] &&
    command.request.message.taskId.all (· == command.task.id) &&
    command.request.message.contextId.all (· == command.task.contextId) &&
    command.task.status.state == .submitted && command.task.status.message.isNone &&
    command.task.artifacts.isNone &&
    finalResultMatchesTask command.originalResult command.task

/-- The coarse capacity check made before the rows of an admission are inserted. -/
def admissionFits (s : Store) (task : Task) (resultJson : String) (payload : MeshRequest) : Bool :=
  (s.tasks.map fun row => row.task.jsonBytes).sum + task.jsonBytes ≤ maxStoreJsonBytes &&
    (s.tasks.map fun row => (row.events.map fun e => e.eventTask.jsonBytes).sum).sum +
      task.jsonBytes ≤ maxStoreJsonBytes &&
    (s.dispatches.map fun d =>
      d.record.admissionResultJson.utf8ByteSize + d.record.finalBytes).sum +
      resultJson.utf8ByteSize ≤ maxStoreJsonBytes &&
    (s.dispatches.map fun d => d.payload.jsonBytes + optionalBytes d.lastError).sum +
      payload.jsonBytes ≤ maxStoreJsonBytes

/-- The rows of a new task. -/
def admittedTaskRow (cfg : Config) (auth : Option Authorization) (task : Task) (now : Int) :
    TaskRow :=
  { tenantScope := tenantOf cfg auth, ownerAccountId := accountOf cfg auth, revision := 1, task,
    events := [{ eventSeq := 1, taskRevision := 1, eventKind := .admitted, fromState := none,
                 toState := task.status.state, eventTask := task, createdAt := now }] }

/-- Reserve the message identity, create the task and enqueue its dispatch. -/
def admitMessage (o : HashOrder) (cfg : Config) (auth : Option Authorization) (digest : String)
    (request : MeshRequest) (command : SendMessageAdmission) (s : Store) :
    Except A2AError (AdmissionOutcome × Store) := do
  let task := command.task
  let result := command.originalResult
  let rawMessageId ← expect ((task.history.bind List.getLast?).map Message.messageId)
    (.invalidParams "messageId is required for durable admission")
  require (rawMessageId.isEmpty = false)
    (.invalidParams "messageId is required for durable admission")
  let messageId := messageIdentity cfg auth rawMessageId
  require (messageId.utf8ByteSize ≤ 4096)
    (.invalidParams "messageId exceeds durable storage limit")
  require (digest.isEmpty = false ∧ digest.utf8ByteSize ≤ 256 ∧ 0 < command.maxAttempts ∧
      command.maxAttempts ≤ maxOutboxAttempts ∧ request.taskId = task.id ∧
      request.contextId = task.contextId ∧ responseMatchesTask result task.id = true)
    (.invalidParams "invalid durable admission")
  let dispatchId := dispatchIdentity (tenantOf cfg auth) messageId
  encodeTask task
  let resultJson := (result.toJson o).render
  require (resultJson.utf8ByteSize ≤ maxAtomicJsonBytes ∧ request.jsonBytes ≤ maxAtomicJsonBytes)
    (.invalidParams "durable admission payload exceeds limit")
  match s.dispatchOfMessage? (tenantOf cfg auth) messageId with
  | some bound =>
    require (bound.record.requestDigest = digest ∧
        bound.record.admissionResultJson = resultJson)
      (.invalidRequest
        "idempotency key is already bound to different request or admission semantics")
    .ok (.replay bound.record.replayResult, s)
  | none =>
    require (s.tasks.length < cfg.maxTasks) (.internal "task store capacity reached")
    require (admissionFits s task resultJson request = true)
      (.internal "durable store byte capacity reached")
    require (s.taskRow? task.id = none) (.invalidRequest "task already exists")
    require (s.dispatches.all fun d => d.dispatchId != dispatchId)
      (.internal "atomic outbox enqueue failed")
    let d := admittedDispatch o cfg auth s.nextOutboxId messageId digest 1 request command task
      result
    let inserted :=
      { s with
        tasks := s.tasks ++ [admittedTaskRow cfg auth task command.now]
        dispatches := s.dispatches ++ [d]
        nextOutboxId := s.nextOutboxId + 1 }
    let s' ← recordDecision auth "admission_committed" (some task.id) inserted
    ensureAtomicCapacity s'
    ensureStreamCapacity s'
    .ok (.admitted task.id 1 dispatchId, s')

/-- Admit a send-message command, locally or under an authorization. -/
def admitSendMessage (o : HashOrder) (cfg : Config) (auth : Option Authorization)
    (command : SendMessageAdmission) (s : Store) :
    Except A2AError (AdmissionOutcome × Store) := do
  require (auth.all Authorization.matchesScope)
    (.invalidRequest "authorized admission scope mismatch")
  require (admissionMatchesRequest command = true)
    (.invalidParams "admission task and result must exactly match the canonical request")
  let digest ← requestDigest cfg auth command.request command.streaming
  let request ← liftInput (MeshRequest.fromA2a command.task.id command.task.contextId
    command.request.message command.maxTextBytes)
  admitMessage o cfg auth digest request command s

/-! ## Continuations -/

/-- The task with the continuing message, working again. -/
def continuedTask (task : Task) (message : Message) (now : Int) : Task :=
  { task with
    history := some (task.history.getD [] ++ [message])
    status := { state := .working, message := none, timestamp := timestampOfMillis now } }

/-- Append a continuation to an interrupted task and enqueue its dispatch. -/
def admitContinuation (o : HashOrder) (cfg : Config) (auth : Option Authorization)
    (command : SendMessageAdmission) (s : Store) :
    Except A2AError (AdmissionOutcome × Store) := do
  require (auth.all Authorization.matchesScope)
    (.invalidRequest "authorized continuation scope mismatch")
  let message := command.request.message
  require (message.messageId.isEmpty = false ∧ message.messageId.utf8ByteSize ≤ 4096 ∧
      0 < command.maxAttempts ∧ command.maxAttempts ≤ maxOutboxAttempts ∧
      finalResultMatchesTask command.originalResult command.task = true ∧
      (message.taskId.all (· == command.task.id)) = true ∧
      (message.contextId.all (· == command.task.contextId)) = true)
    (.invalidParams "invalid durable continuation")
  let messageId := messageIdentity cfg auth message.messageId
  let digest ← requestDigest cfg auth command.request command.streaming
  let dispatchId := dispatchIdentity (tenantOf cfg auth) messageId
  match s.dispatchOfMessage? (tenantOf cfg auth) messageId with
  | some bound =>
    require (bound.record.requestDigest = digest)
      (.invalidRequest
        "idempotency key is already bound to different request or continuation semantics")
    let s' ← recordDecision auth "continuation_replay" none s
    .ok (.replay bound.record.replayResult, s')
  | none =>
    let row ← expect (s.tasks.find? fun row =>
        row.tenantScope = tenantOf cfg auth ∧ row.task.id = command.task.id ∧
          (auth.all (fun a => !a.scope.ownOnly) ∨ row.ownerAccountId = accountOf cfg auth))
      (.taskNotFound command.task.id)
    require (row.task.status.state = .inputRequired ∨ row.task.status.state = .authRequired)
      (.unsupportedOperation "task no longer accepts continuation")
    let durable ← decodeTask row.task
    require (durable = command.task)
      (.invalidParams "continuation task identity mismatch")
    let task := continuedTask durable message command.now
    encodeTask task
    let payload ← liftInput (MeshRequest.fromA2a task.id task.contextId message
      command.maxTextBytes)
    let revision ← nextRevision row.revision
    require (s.dispatches.all fun d => d.dispatchId != dispatchId)
      (.internal "continuation outbox enqueue failed")
    let d := admittedDispatch o cfg auth s.nextOutboxId messageId digest revision payload command
      task (.task task)
    let updated := s.putTask (row.append revision .continued task command.now)
    let inserted :=
      { updated with
        dispatches := updated.dispatches ++ [d]
        nextOutboxId := updated.nextOutboxId + 1 }
    let s' ← recordDecision auth "continuation_committed" (some task.id) inserted
    ensureAtomicCapacity s'
    ensureStreamCapacity s'
    .ok (.admitted task.id revision dispatchId, s')

end Rows

end SmeshDurable
