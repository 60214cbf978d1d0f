import SmeshDurable.Store.Receiver

/-!
# Delivery

`commitDelivery` publishes the outcome of a dispatch under the sender's live lease: the
final task with its event, the final result of the record, the rest of the public
transcript, and the acknowledged outbox row, in one transaction.
-/

namespace SmeshDurable

open Transaction

variable [ContentDigest]

/-- The transcript closed with all frames of the delivery. -/
def TranscriptRow.deliver (o : HashOrder) (transcript : TranscriptRow)
    (frames : List StreamResponse) (now : Int) : TranscriptRow :=
  { transcript with
    state := .terminal frames.length
    frameCount := frames.length
    transcriptDigest := textDigest (encodeFrames o frames)
    updatedAt := now
    frames := transcript.frames ++
      (frames.zipIdx.drop transcript.frameCount).map fun (frame, index) =>
        FrameRow.ofFrame o (index + 1) frame now }

/-- Close the open transcript of a delivery, if there is one, after checking that the stored
frames are the first frames delivered. -/
def deliverTranscript (o decoded : HashOrder) (d : Dispatch) (frames : List StreamResponse)
    (now : Int) : Except A2AError (Option TranscriptRow) :=
  match d.transcript with
  | none => .ok none
  | some transcript =>
    if transcript.state = .open then do
      let persisted ← loadPublicStreamFrames decoded transcript d.record.finalResult
      require (transcript.frameCount ≤ frames.length ∧
          persisted = frames.take transcript.frameCount)
        (.internal "persisted public stream prefix diverges from delivery transcript")
      .ok (some (transcript.deliver o frames now))
    else .ok (some transcript)

/-- The outbox row once its dispatch is delivered. -/
def Dispatch.deliver (d : Dispatch) (attemptNo : Nat) (result : SendMessageResponse)
    (transcript : Option TranscriptRow) (now : Int) : Dispatch :=
  { d.settle .delivered d.lastError now with
    record := d.record.complete result now
    transcript := transcript
    attempts := d.attempts.map fun attempt =>
      if attempt.attemptNo = attemptNo then attempt.close .delivered none now else attempt }

/-- Commit the outcome of a dispatch. `o` is the order of the presented maps, `decoded` that
of the maps decoded from the stored frames. -/
def commitDelivery (o decoded : HashOrder) (lease : OutboxLease) (task : Task)
    (result : SendMessageResponse) (frames : List StreamResponse) (now : Int) (s : Store) :
    Except A2AError (TransitionOutcome × Store) := do
  require (task.id = lease.taskId ∧ isDispatchClosed task.status.state = true ∧
      finalResultMatchesTask result task = true)
    (.invalidParams "invalid durable delivery result")
  encodeTask task
  require (validateTerminalPublicTranscript frames task = true) .invalidAgentResponse
  require (frames.length ≤ maxStreamFrames ∧
      (encodeFrames o frames).utf8ByteSize ≤ maxStoreJsonBytes ∧
      (frames.all fun frame => frame.jsonBytes ≤ maxAtomicJsonBytes) = true)
    (.invalidParams "public stream transcript exceeds limit")
  match s.dispatches.find? fun d => d.heldBy lease with
  | none => .ok (.stale, s)
  | some d =>
    if lease.leaseUntil ≤ now then .ok (.stale, s)
    else
      require (d.ratificationRequired = false) .invalidAgentResponse
      let row ← expect (s.tasks.find? fun row =>
          row.tenantScope = lease.tenantScope ∧ row.task.id = lease.taskId)
        (.internal "durable delivery task lookup failed")
      if row.revision ≠ d.causativeRevision then .ok (.stale, s)
      else
        let transcript ← deliverTranscript o decoded d frames now
        let revision ← nextRevision row.revision
        let updated := s.putTask (row.append revision .durableCompleted task now)
        let s' := updated.putDispatch (d.deliver lease.attemptNo result transcript now)
        ensureAtomicCapacity s'
        ensureStreamCapacity s'
        .ok (.applied, s')

end SmeshDurable
