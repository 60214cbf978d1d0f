import Mathlib.Data.List.MinMax
import SmeshDurable.Store.Stream

/-!
# Cancellation

`requestCancellation` asks a live receiver to cancel by recording an intent, leaves a
completed receiver to deliver its outcome, and otherwise cancels the task itself: it
publishes the canceled task, closes the transcript and supersedes the outbox row.
-/

namespace SmeshDurable

open Transaction

/-- Identifiers that may be handed to the runtime: 1 to 256 graphic ASCII characters. -/
def runtimeIdentity (value : String) : Bool :=
  !value.isEmpty && value.utf8ByteSize ≤ 256 &&
    value.toList.all fun c => 0x21 ≤ c.toNat && c.toNat ≤ 0x7e

inductive CancellationOutcome where
  | canceled (task : Task)
  | awaitReceiver (messageId : String) (attempt epoch : Nat)
deriving DecidableEq

/-- The caller of a cancellation: the resolved scope, and the decision to record for an
authorized one. -/
structure CancellationScope where
  tenantScope : String
  ownerAccountId : String
  ownOnly : Bool
  audit : Option AuthorizationAuditInput

/-- A local cancellation acts on the whole default tenant. -/
def localCancellation (cfg : Config) : CancellationScope :=
  { tenantScope := cfg.defaultScope, ownerAccountId := cfg.defaultAccount, ownOnly := false,
    audit := none }

def authorizedCancellation (auth : Authorization) : CancellationScope :=
  { tenantScope := auth.scope.tenantScope, ownerAccountId := auth.scope.ownerAccountId,
    ownOnly := auth.scope.ownOnly, audit := some auth.audit }

/-- States of outbox rows that a cancellation prefers. -/
def OutboxState.cancelable : OutboxState → Bool
  | .pending | .leased | .delivered => true
  | .dead | .superseded => false

/-- The dispatch a cancellation of a task acts on: the newest pending, leased or delivered
one, or the newest of all. -/
def cancellationTarget? (s : Store) (tenantScope taskId : String) : Option Dispatch :=
  (s.dispatches.filter fun d => d.tenantScope = tenantScope ∧ d.taskId = taskId).argmax
    fun d => toLex (d.state.cancelable, d.outboxId)

def recordCancellation (audit : Option AuthorizationAuditInput) (reason : String) (s : Store) :
    Except A2AError Store :=
  match audit with
  | none => .ok s
  | some audit => insertAuthorizationAudit s (audit.decided true reason none)

/-- Ask a live receiver to cancel; a completed receiver is only awaited. -/
def awaitReceiver (d : Dispatch) (inbox : InboxRow) (audit : Option AuthorizationAuditInput)
    (now : Int) (s : Store) : Except A2AError (CancellationOutcome × Store) := do
  require (runtimeIdentity d.tenantScope = true ∧ runtimeIdentity d.dispatchId = true ∧
      0 < inbox.senderAttemptNo ∧ 0 < inbox.leaseEpoch)
    (.internal "invalid durable runtime correlation")
  let requested :=
    if inbox.live now ∧ d.intent = none then
      s.putDispatch { d with intent := some { state := .requested, requestedAt := now } }
    else s
  let s' ← recordCancellation audit "cancellation_requested" requested
  .ok (.awaitReceiver d.messageId inbox.senderAttemptNo inbox.leaseEpoch, s')

section Direct

variable [ContentDigest]

/-- The task canceled by the agent. -/
def canceledTask (task : Task) (dispatchId : String) (now : Int) : Task :=
  { task with
    status :=
      { state := .canceled
        message := some
          { messageId := "cancel-" ++ (((textDigest dispatchId).take 32).toString),
            contextId := some task.contextId, taskId := some task.id, role := .agent,
            parts := [Part.ofText "SMESH task canceled"], metadata := none, extensions := none,
            referenceTaskIds := none }
        timestamp := timestampOfMillis now } }

/-- The update that tells a stream its task's final status. -/
def statusFrame (task : Task) : StreamResponse :=
  .statusUpdate { taskId := task.id, contextId := task.contextId, status := task.status,
                  metadata := none }

/-- Close the open transcript of a canceled dispatch. -/
def appendCanceledPublicTerminal (decoded : HashOrder) (d : Dispatch) (task : Task)
    (now : Int) : Except A2AError (Option TranscriptRow) :=
  match d.openTranscript? with
  | none => .ok d.transcript
  | some transcript => do
      let stored ← loadPublicStreamFrames decoded transcript d.record.finalResult
      let frame := statusFrame task
      require (validateTerminalPublicTranscript (stored ++ [frame]) task = true)
        .invalidAgentResponse
      let closed := transcript.append decoded decoded stored frame now
      .ok (some { closed with state := .terminal closed.frameCount })

/-- The outbox row of a canceled dispatch; a dead row stays dead. -/
def Dispatch.supersede (d : Dispatch) (result : SendMessageResponse)
    (transcript : Option TranscriptRow) (now : Int) : Dispatch :=
  let closed := d.closeAttempts .superseded none now
  let settled := if d.state = .dead then closed else closed.settle .superseded d.lastError now
  { settled with
    record := if d.record.finalResult = none then d.record.complete result now else d.record
    transcript := transcript }

/-- Cancel the task without the receiver. -/
def cancelDirectly (decoded : HashOrder) (row : TaskRow) (d : Dispatch)
    (audit : Option AuthorizationAuditInput) (now : Int) (s : Store) :
    Except A2AError (CancellationOutcome × Store) := do
  let task := canceledTask row.task d.dispatchId now
  encodeTask task
  let revision ← nextRevision row.revision
  let updated := s.putTask (row.append revision .durableCanceled task now)
  let transcript ← appendCanceledPublicTerminal decoded d task now
  let superseded := updated.putDispatch (d.supersede (.task task) transcript now)
  let s' ← recordCancellation audit "cancellation_committed" superseded
  ensureAtomicCapacity s'
  ensureStreamCapacity s'
  .ok (.canceled task, s')

/-- Cancel a task or ask its receiver to. -/
def requestCancellation (decoded : HashOrder) (scope : CancellationScope) (taskId : String)
    (now : Int) (s : Store) : Except A2AError (CancellationOutcome × Store) := do
  require (scope.audit.all fun audit =>
      audit.tenantScope == scope.tenantScope && audit.actorAccountId == scope.ownerAccountId &&
        audit.effectAllow)
    (.invalidRequest "authorized cancellation scope mismatch")
  let row ← expect (s.tasks.find? fun row =>
      row.tenantScope = scope.tenantScope ∧ row.task.id = taskId ∧
        (scope.ownOnly = false ∨ row.ownerAccountId = scope.ownerAccountId))
    (.taskNotFound taskId)
  let d ← expect (cancellationTarget? s scope.tenantScope taskId) (.taskNotFound taskId)
  let task ← decodeTask row.task
  require (task.status.state.isTerminal = false) (.taskNotCancelable taskId)
  let active := task.status.state = .submitted ∨ task.status.state = .working
  match d.inbox with
  | some inbox =>
    if active ∧ (inbox.state.isCompleted ∨ inbox.live now) then
      awaitReceiver d inbox scope.audit now s
    else cancelDirectly decoded row d scope.audit now s
  | none => cancelDirectly decoded row d scope.audit now s

end Direct

end SmeshDurable
