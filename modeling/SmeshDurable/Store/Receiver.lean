import SmeshDurable.Store.Outbox

/-!
# The receiver's inbox

`beginReceive` accepts a dispatch that the sender holds leased: it hands out an
execution lease, reports a live one, reclaims an expired one under the next epoch, or
replays a completed outcome. `completeReceive` stores an outcome under the current
lease; the presence of a cancellation request decides which kind of completion the
lease may store.
-/

namespace SmeshDurable

open Transaction

/-- What the sender presents to the receiver. -/
structure DurableDispatchEnvelope where
  tenantScope : String
  dispatchId : String
  payloadDigest : String
  request : MeshRequest
deriving DecidableEq

/-- An execution lease of the receiver. -/
structure ReceiverLease where
  tenantScope : String
  taskId : String
  dispatchId : String
  payloadDigest : String
  senderAttemptNo : Nat
  senderLeaseToken : String
  leaseOwner : String
  leaseToken : String
  leaseEpoch : Nat
  leaseUntil : Int
deriving DecidableEq

inductive ReceiverAdmission where
  | execute (lease : ReceiverLease)
  | busy
  | replay (events : List MeshEvent) (termination : DurableReceiverTermination)
deriving DecidableEq

section Receive

variable [ContentDigest]

/-- The fencing token of a reclaimed execution lease. -/
def reclaimToken (dispatchId owner : String) (epoch : Nat) (entropy : List UInt8) : String :=
  contentDigest (dispatchId.toUTF8.data.toList ++ owner.toUTF8.data.toList ++ i64Bytes epoch ++ entropy)

/-- The envelope and the requested lease are well formed. -/
def envelopeValid (envelope : DurableDispatchEnvelope) (owner : String) (duration : Int) : Bool :=
  validBoundedIdentity envelope.tenantScope && !envelope.dispatchId.isEmpty &&
    envelope.dispatchId.utf8ByteSize ≤ 256 &&
    envelope.payloadDigest == textDigest envelope.request.encode &&
    receiverRequestIsValid envelope.request envelope.request.jsonBytes &&
    !owner.isEmpty && owner.utf8ByteSize ≤ maxAtomicTextBytes && 0 < duration

/-- The row is leased and carries the envelope's dispatch. -/
def Dispatch.ownsEnvelope (d : Dispatch) (envelope : DurableDispatchEnvelope) : Bool :=
  d.tenantScope == envelope.tenantScope && d.dispatchId == envelope.dispatchId &&
    d.taskId == envelope.request.taskId && d.payloadDigest == envelope.payloadDigest &&
    d.state == .leased && d.leaseToken.isSome

/-- The lease that an inbox row with a processing state grants. -/
def receiverLeaseOf (d : Dispatch) (envelope : DurableDispatchEnvelope) (owner token : String)
    (epoch : Nat) (leaseUntil : Int) : ReceiverLease :=
  { tenantScope := envelope.tenantScope, taskId := envelope.request.taskId,
    dispatchId := envelope.dispatchId, payloadDigest := envelope.payloadDigest,
    senderAttemptNo := d.attemptCount, senderLeaseToken := d.leaseToken.getD "",
    leaseOwner := owner, leaseToken := token, leaseEpoch := epoch, leaseUntil }

/-- The stored outcome of a completed dispatch. -/
def replayOutcome (inbox : InboxRow) (termination : DurableReceiverTermination)
    (frameCount : Nat) (transcriptDigest : String) :
    Except A2AError (List MeshEvent × DurableReceiverTermination) := do
  let events ← loadReceiverFrames inbox.frames frameCount transcriptDigest
  require (decodeReceiverTermination termination = true)
    (.internal "receiver termination is corrupt")
  require (validateReceiverOutcome events termination = true) .invalidAgentResponse
  .ok (events, termination)

/-- Take over an expired execution lease under the next epoch. -/
def reclaim (d : Dispatch) (inbox : InboxRow) (envelope : DurableDispatchEnvelope)
    (owner : String) (now duration : Int) (entropy : List UInt8) (s : Store) :
    Except A2AError (ReceiverAdmission × Store) := do
  require ((inbox.leaseEpoch : Int) + 1 ≤ i64Max) (.internal "receiver lease epoch exhausted")
  let epoch := inbox.leaseEpoch + 1
  let leaseUntil ← leaseEnd now duration "receiver lease time overflow"
  let token := reclaimToken envelope.dispatchId owner epoch entropy
  let lease := receiverLeaseOf d envelope owner token epoch leaseUntil
  let inbox' :=
    { inbox with leaseEpoch := epoch, state := .processing owner token leaseUntil,
                 updatedAt := now, senderAttemptNo := lease.senderAttemptNo,
                 senderLeaseToken := lease.senderLeaseToken }
  .ok (.execute lease, s.putDispatch { d with inbox := some inbox' })

/-- Accept a dispatch for the first time. -/
def accept (d : Dispatch) (envelope : DurableDispatchEnvelope) (owner : String)
    (now duration : Int) (entropy : List UInt8) (s : Store) :
    Except A2AError (ReceiverAdmission × Store) := do
  let leaseUntil ← leaseEnd now duration "receiver lease time overflow"
  let token := claimToken envelope.dispatchId owner now entropy
  let lease := receiverLeaseOf d envelope owner token 1 leaseUntil
  let inbox : InboxRow :=
    { payloadDigest := envelope.payloadDigest, payload := envelope.request, leaseEpoch := 1,
      senderAttemptNo := lease.senderAttemptNo, senderLeaseToken := lease.senderLeaseToken,
      state := .processing owner token leaseUntil, acceptedAt := now, updatedAt := now,
      frames := [], effectCommittedAt := none }
  let s' := s.putDispatch { d with inbox := some inbox }
  ensureReceiverCapacity s'
  .ok (.execute lease, s')

/-- Accept, reclaim or replay a dispatch. -/
def beginReceive (envelope : DurableDispatchEnvelope) (owner : String) (now duration : Int)
    (entropy : List UInt8) (s : Store) : Except A2AError (ReceiverAdmission × Store) := do
  require (envelopeValid envelope owner duration = true)
    (.invalidParams "invalid durable receiver envelope")
  let d ← expect (s.dispatches.find? fun d => d.ownsEnvelope envelope)
    (.invalidParams "invalid durable receiver envelope")
  match d.inbox with
  | none => accept d envelope owner now duration entropy s
  | some inbox =>
    require (inbox.payloadDigest = envelope.payloadDigest)
      (.invalidRequest "dispatch identity is already bound to a different payload")
    match inbox.state with
    | .completed termination frameCount transcriptDigest _ =>
      let (events, ended) ← replayOutcome inbox termination frameCount transcriptDigest
      .ok (.replay events ended, s)
    | .processing _ _ leaseUntil =>
      if now < leaseUntil then .ok (.busy, s)
      else reclaim d inbox envelope owner now duration entropy s

/-! ## Completion -/

/-- Which completion entry point is used: the plain one, the loopback one that also commits
the loopback effect, or the one that answers a cancellation. -/
inductive CompletionKind where
  | plain | loopback | canceled
deriving DecidableEq, Repr

/-- The inbox row is processing under exactly the presented lease, and that lease has not
run out. -/
def InboxRow.heldBy (inbox : InboxRow) (lease : ReceiverLease) (now : Int) : Bool :=
  inbox.payloadDigest == lease.payloadDigest && inbox.leaseEpoch == lease.leaseEpoch &&
    inbox.state == .processing lease.leaseOwner lease.leaseToken lease.leaseUntil &&
    now < lease.leaseUntil

/-- The frames of a completed transcript. -/
def receiverFrames (events : List MeshEvent) (now : Int) : List ReceiverFrameRow :=
  events.zipIdx.map fun (event, index) =>
    { frameSeq := index + 1, event, frameDigest := textDigest event.encode, createdAt := now }

/-- The inbox row once its outcome is stored. -/
def InboxRow.complete (inbox : InboxRow) (events : List MeshEvent)
    (termination : DurableReceiverTermination) (kind : CompletionKind) (now : Int) : InboxRow :=
  { inbox with
    state := .completed termination events.length (textDigest (encodeEvents events)) now
    updatedAt := now
    frames := receiverFrames events now
    effectCommittedAt := if kind = .loopback then some now else inbox.effectCommittedAt }

/-- Store the outcome of a dispatch under its execution lease. Only a canceled completion
may end a dispatch whose cancellation is requested, and it may end no other. -/
def completeReceiveInner (kind : CompletionKind) (lease : ReceiverLease) (events : List MeshEvent)
    (termination : DurableReceiverTermination) (now : Int) (s : Store) :
    Except A2AError (Unit × Store) := do
  require (validateReceiverOutcome events termination = true) .invalidAgentResponse
  require (terminationFits termination = true)
    (.invalidParams "receiver termination exceeds limit")
  require (events.length ≤ 1024 ∧
      (events.all fun event => event.jsonBytes ≤ maxAtomicJsonBytes) = true)
    (.invalidParams "receiver transcript exceeds limit")
  require ((encodeEvents events).utf8ByteSize ≤ maxStoreJsonBytes)
    (.invalidParams "receiver transcript exceeds byte limit")
  let d ← expect (s.dispatches.find? fun d =>
      d.tenantScope = lease.tenantScope ∧ d.dispatchId = lease.dispatchId)
    (.internal "stale receiver completion lease")
  let inbox ← expect d.inbox (.internal "stale receiver completion lease")
  require (inbox.heldBy lease now = true ∧
      d.cancellationRequested = decide (kind = .canceled))
    (.internal "stale receiver completion lease")
  require (kind = .loopback → inbox.effectCommittedAt = none)
    (.internal "loopback effect commit failed")
  require (inbox.frames = []) (.internal "receiver frame append failed")
  let intent := if kind = .canceled then
      d.intent.map fun intent => { intent with state := .receiverCanceled now }
    else d.intent
  let s' := s.putDispatch
    { d with inbox := some (inbox.complete events termination kind now), intent }
  ensureReceiverCapacity s'
  .ok ((), s')

/-- Store a successful transcript. -/
def completeReceive (lease : ReceiverLease) (events : List MeshEvent) (now : Int) (s : Store) :
    Except A2AError (Unit × Store) :=
  completeReceiveInner .plain lease events .success now s

/-- Store an outcome together with the loopback effect. -/
def completeLoopbackOutcome (lease : ReceiverLease) (events : List MeshEvent)
    (termination : DurableReceiverTermination) (now : Int) (s : Store) :
    Except A2AError (Unit × Store) :=
  completeReceiveInner .loopback lease events termination now s

/-- Store the transcript that answers a cancellation. -/
def completeCanceledReceive (lease : ReceiverLease) (events : List MeshEvent) (now : Int)
    (s : Store) : Except A2AError (Unit × Store) :=
  completeReceiveInner .canceled lease events .success now s

end Receive

end SmeshDurable
