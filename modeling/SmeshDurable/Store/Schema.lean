import SmeshDurable.A2A.Encoding
import SmeshDurable.Library.Checksum
import SmeshDurable.Library.Keyed
import SmeshDurable.Library.Transaction
import Mathlib.Data.Prod.Lex

/-!
# Tables of the durable store

The rows of the SQLite store that the durable operations read and write. Child rows
are kept with the row their foreign key names: the event log with its task; the
idempotency record, the attempts, the receiver inbox, the stream transcript and the
cancellation intent with the outbox row of their dispatch. A JSON column holds the
value its text decodes to; text that is compared or digested is kept as text. The
shapes that a `CHECK` clause enforces (a processing inbox has a lease, a completed one
its outcome; a terminal transcript its closing sequence) are types.
-/

namespace SmeshDurable

/-- Keys of two texts are looked up by equality. -/
instance lawfulBEq_texts : LawfulBEq (String × String) := inferInstance

/-! ## Digests and limits -/

/-- The content digest: the text `sha256:` and 64 hexadecimal digits. Nothing is
assumed of it beyond its length. -/
class ContentDigest where
  contentDigest : List UInt8 → String
  contentDigest_size : ∀ bytes, (contentDigest bytes).utf8ByteSize = 71

export ContentDigest (contentDigest contentDigest_size)

/-- A checksum that evaluates, in the place of the digest. -/
@[reducible] def checksumDigest : ContentDigest where
  contentDigest bytes := "sha256:" ++ String.ofList (Checksum.digits bytes)
  contentDigest_size bytes := by
    rw [String.utf8ByteSize_append, Checksum.utf8ByteSize_digits]
    decide

/-- The digest of a text. -/
def textDigest [ContentDigest] (text : String) : String := contentDigest text.toUTF8.data.toList

@[simp] theorem textDigest_size [ContentDigest] (text : String) :
    (textDigest text).utf8ByteSize = 71 := contentDigest_size _

def maxTaskJsonBytes : Nat := 1024 * 1024
def maxStoreJsonBytes : Nat := 64 * 1024 * 1024
def maxAtomicJsonBytes : Nat := 1024 * 1024
def maxAtomicTextBytes : Nat := 4096
def maxOutboxAttempts : Nat := 1000
def maxStreamFrames : Nat := 1024
def maxAuthorizationDecisions : Nat := 65536
def streamInterruptionPrefix : String := "durable stream interrupted: "
def trustedSingleTenantScope : String := "smesh-dev-only-tenant"
def legacyV4SentinelScope : String := "smesh:trusted-single-tenant:v1"

/-- The largest value of a signed 64 bit column. -/
def i64Max : Int := 2 ^ 63 - 1

/-- A tenant or account identity: 1 to 64 ASCII bytes. -/
def validBoundedIdentity (value : String) : Bool :=
  !value.isEmpty && value.utf8ByteSize ≤ 64 && value.toList.all (·.toNat < 128)

/-- Byte length of an optional column, an absent one counting zero. -/
def optionalBytes (value : Option String) : Nat := value.elim 0 String.utf8ByteSize

/-! ## Errors -/

/-- The failures a durable operation reports; the text is the message of the error. -/
inductive A2AError where
  | internal (message : String)
  | invalidParams (message : String)
  | invalidRequest (message : String)
  | unsupportedOperation (message : String)
  | invalidAgentResponse
  | taskNotFound (taskId : String)
  | taskNotCancelable (taskId : String)
  | quotaExceeded (message : String)
  | quotaAuthorityUnavailable (message : String)
  | pushNotificationNotSupported
deriving DecidableEq, Repr

/-! ## Dispatch payloads and receiver outcomes -/

/-- The work a dispatch carries to the mesh. -/
structure MeshRequest where
  protocol : String
  taskId : String
  contextId : String
  text : String
deriving DecidableEq

def MeshRequest.toJson (request : MeshRequest) : Json :=
  .obj [("protocol", .str request.protocol), ("task_id", .str request.taskId),
    ("context_id", .str request.contextId), ("text", .str request.text)]

def MeshRequest.encode (request : MeshRequest) : String := request.toJson.render

def MeshRequest.jsonBytes (request : MeshRequest) : Nat := request.encode.utf8ByteSize

/-- An event of the internal mesh. Completion evidence is carried as its document. -/
inductive MeshEvent where
  | progress (text : String)
  | evidence (document : Json)
  | artifact (name mediaType content : String)
  | completed (summary : String)
deriving DecidableEq

namespace MeshEvent

def toJson : MeshEvent → Json
  | .progress body => .obj [("Progress", .str body)]
  | .evidence document => .obj [("Evidence", document)]
  | .artifact name mediaType content =>
    .obj [("Artifact", .obj [("name", .str name), ("media_type", .str mediaType),
      ("content", .str content)])]
  | .completed summary => .obj [("Completed", .obj [("summary", .str summary)])]

def encode (event : MeshEvent) : String := event.toJson.render

def jsonBytes (event : MeshEvent) : Nat := event.encode.utf8ByteSize

def isCompleted : MeshEvent → Bool
  | .completed _ => true
  | _ => false

end MeshEvent

/-- The text of a whole receiver transcript. -/
def encodeEvents (events : List MeshEvent) : String :=
  (Json.arr (events.map MeshEvent.toJson)).render

/-- How a receiver ended a dispatch. -/
inductive DurableReceiverTermination where
  | success
  | inputRequired (message : String)
  | authRequired (message : String)
deriving DecidableEq

namespace DurableReceiverTermination

/-- The document stored for an interruption; success stores none. -/
def payload : DurableReceiverTermination → Option String
  | .success => none
  | .inputRequired message =>
    some (Json.obj [("kind", .str "input_required"), ("message", .str message)]).render
  | .authRequired message =>
    some (Json.obj [("kind", .str "auth_required"), ("message", .str message)]).render

end DurableReceiverTermination

/-! ## Rows -/

inductive EventKind where
  | admitted | continued | deadLettered | durableCompleted | durableCanceled
  | restartOrphanFailed
deriving DecidableEq, Repr

def EventKind.name : EventKind → String
  | .admitted => "admitted"
  | .continued => "continued"
  | .deadLettered => "dead_lettered"
  | .durableCompleted => "durable_completed"
  | .durableCanceled => "durable_canceled"
  | .restartOrphanFailed => "restart_orphan_failed"

/-- A row of `task_events`. -/
structure EventRow where
  eventSeq : Nat
  taskRevision : Nat
  eventKind : EventKind
  fromState : Option TaskState
  toState : TaskState
  eventTask : Task
  createdAt : Int
deriving DecidableEq

/-- A row of `tasks` with its event log in sequence order. The columns `context_id`,
`state` and `status_timestamp` are those of the task. -/
structure TaskRow where
  tenantScope : String
  ownerAccountId : String
  revision : Nat
  task : Task
  events : List EventRow
deriving DecidableEq

inductive OutboxState where
  | pending | leased | delivered | dead | superseded
deriving DecidableEq, Repr

def OutboxState.name : OutboxState → String
  | .pending => "pending"
  | .leased => "leased"
  | .delivered => "delivered"
  | .dead => "dead"
  | .superseded => "superseded"

inductive AttemptOutcome where
  | leaseExpired | retry | dead | delivered | superseded | abandoned
deriving DecidableEq, Repr

def AttemptOutcome.name : AttemptOutcome → String
  | .leaseExpired => "lease_expired"
  | .retry => "retry"
  | .dead => "dead"
  | .delivered => "delivered"
  | .superseded => "superseded"
  | .abandoned => "abandoned"

/-- A row of `outbox_attempts`. -/
structure AttemptRow where
  attemptNo : Nat
  leaseToken : String
  startedAt : Int
  finishedAt : Option Int
  outcome : Option AttemptOutcome
  error : Option String
  nextAttemptAt : Option Int
deriving DecidableEq

/-- An attempt is open until it is finished. -/
def AttemptRow.isOpen (attempt : AttemptRow) : Bool := attempt.finishedAt.isNone

inductive RecordState where
  | inProgress | completed
deriving DecidableEq, Repr

def RecordState.name : RecordState → String
  | .inProgress => "in_progress"
  | .completed => "completed"

/-- A row of `idempotency_records`. The columns that bind an authorized request are
present exactly in version 2 rows. -/
structure RecordRow where
  requestDigest : String
  state : RecordState
  admissionResult : SendMessageResponse
  admissionResultJson : String
  finalResult : Option SendMessageResponse
  digestVersion : Nat
  actorAccountId : Option String
  causativeRequest : Option SendMessageRequest
  invocationStreaming : Option Bool
  createdAt : Int
  updatedAt : Int
deriving DecidableEq

/-- A row of `receiver_frames`. -/
structure ReceiverFrameRow where
  frameSeq : Nat
  event : MeshEvent
  frameDigest : String
  createdAt : Int
deriving DecidableEq

/-- The two shapes of a receiver row. -/
inductive InboxState where
  | processing (leaseOwner leaseToken : String) (leaseUntil : Int)
  | completed (termination : DurableReceiverTermination) (frameCount : Nat)
      (transcriptDigest : String) (completedAt : Int)
deriving DecidableEq

def InboxState.isCompleted : InboxState → Bool
  | .completed .. => true
  | .processing .. => false

/-- The instant a processing lease runs to. -/
def InboxState.leaseUntil? : InboxState → Option Int
  | .processing _ _ leaseUntil => some leaseUntil
  | .completed .. => none

/-- A row of `receiver_inbox` with its frames and its loopback effect. -/
structure InboxRow where
  payloadDigest : String
  payload : MeshRequest
  leaseEpoch : Nat
  senderAttemptNo : Nat
  senderLeaseToken : String
  state : InboxState
  acceptedAt : Int
  updatedAt : Int
  frames : List ReceiverFrameRow
  effectCommittedAt : Option Int
deriving DecidableEq

/-- A row of `stream_frames`; `frameJson` is the stored text of the frame. -/
structure FrameRow where
  frameSeq : Nat
  frame : StreamResponse
  frameJson : String
  frameDigest : String
  createdAt : Int
deriving DecidableEq

inductive TranscriptState where
  | open
  | terminal (terminalSeq : Nat)
  | interrupted (interruptionError : String)
deriving DecidableEq

def TranscriptState.name : TranscriptState → String
  | .open => "open"
  | .terminal _ => "terminal"
  | .interrupted _ => "interrupted"

def TranscriptState.interruption : TranscriptState → Option String
  | .interrupted error => some error
  | _ => none

/-- A row of `stream_transcripts` with its frames. -/
structure TranscriptRow where
  state : TranscriptState
  frameCount : Nat
  transcriptDigest : String
  createdAt : Int
  updatedAt : Int
  frames : List FrameRow
deriving DecidableEq

inductive IntentState where
  | requested
  | receiverCanceled (completedAt : Int)
deriving DecidableEq

def IntentState.name : IntentState → String
  | .requested => "requested"
  | .receiverCanceled _ => "receiver_canceled"

/-- A row of `cancellation_intents`. -/
structure IntentRow where
  state : IntentState
  requestedAt : Int
deriving DecidableEq

/-- A row of `outbox` with every row that belongs to its dispatch. -/
structure Dispatch where
  outboxId : Nat
  dispatchId : String
  tenantScope : String
  taskId : String
  messageId : String
  causativeRevision : Nat
  payload : MeshRequest
  payloadDigest : String
  state : OutboxState
  attemptCount : Nat
  maxAttempts : Nat
  availableAt : Int
  leaseOwner : Option String
  leaseToken : Option String
  leaseUntil : Option Int
  lastError : Option String
  createdAt : Int
  updatedAt : Int
  dispatchIdentityVersion : Nat
  ratificationRequired : Bool
  attempts : List AttemptRow
  record : RecordRow
  inbox : Option InboxRow
  transcript : Option TranscriptRow
  intent : Option IntentRow
deriving DecidableEq

/-- An authorization decision kept in the append-only audit table. -/
structure AuthorizationAuditInput where
  decisionId : String
  tenantScope : String
  actorAccountId : String
  policyId : String
  policyRevision : Nat
  policyDigest : String
  operation : String
  effectAllow : Bool
  reason : String
  resourceKind : String
  resourceDigest : String
  taskId : Option String
  decidedAt : Int
deriving DecidableEq

/-- The database. -/
structure Store where
  tasks : List TaskRow
  dispatches : List Dispatch
  decisions : List AuthorizationAuditInput
  nextOutboxId : Nat
deriving DecidableEq

/-- A database just created. -/
def Store.empty : Store := ⟨[], [], [], 1⟩

/-- The parts of the store's configuration that the durable operations use. The
default scope and account were checked when the store was opened. -/
structure Config where
  defaultScope : String
  defaultAccount : String
  maxTasks : Nat
  defaultScope_valid : validBoundedIdentity defaultScope = true
  defaultAccount_valid : validBoundedIdentity defaultAccount = true

/-! ## Lookups and updates -/

namespace Store

def taskRow? (s : Store) (taskId : String) : Option TaskRow :=
  Keyed.get? (fun r : TaskRow => r.task.id) s.tasks taskId

/-- Replace the row of a task. -/
def putTask (s : Store) (row : TaskRow) : Store :=
  { s with tasks := Keyed.put (fun r : TaskRow => r.task.id) s.tasks row }

/-- Replace the row of a dispatch. -/
def putDispatch (s : Store) (d : Dispatch) : Store :=
  { s with dispatches := Keyed.put Dispatch.outboxId s.dispatches d }

theorem taskRow?_eq_some {s : Store} {taskId : String} {row : TaskRow}
    (h : s.taskRow? taskId = some row) : row ∈ s.tasks ∧ row.task.id = taskId :=
  ⟨Keyed.mem_of_get? h, by simpa using List.find?_some h⟩

@[simp] theorem putTask_dispatches (s : Store) (row : TaskRow) :
    (s.putTask row).dispatches = s.dispatches := rfl

end Store

end SmeshDurable
