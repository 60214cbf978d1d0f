import SmeshDurable.Store.Delivery

/-!
# Public streams

The progress frame a worker appends to an open transcript, the frames a reader fetches
after a cursor, and the snapshot a subscriber starts from.
-/

namespace SmeshDurable

open Transaction

variable [ContentDigest]

/-- The frame reports that the task is being worked on. -/
def isWorkingUpdate : StreamResponse → Bool
  | .statusUpdate update => update.status.state == .working
  | _ => false

/-- A frame appended to a transcript; the digest covers the decoded frames and the new
one. -/
def TranscriptRow.append (o decoded : HashOrder) (transcript : TranscriptRow)
    (stored : List StreamResponse) (frame : StreamResponse) (now : Int) : TranscriptRow :=
  { transcript with
    frameCount := stored.length + 1
    transcriptDigest := textDigest
      (Json.arr (stored.map (StreamResponse.toJson decoded) ++ [frame.toJson o])).render
    updatedAt := now
    frames := transcript.frames ++ [FrameRow.ofFrame o (stored.length + 1) frame now] }

/-- The open transcript of a dispatch. -/
def Dispatch.openTranscript? (d : Dispatch) : Option TranscriptRow :=
  d.transcript.filter fun transcript => transcript.state = .open

/-- Append the working frame of an active streaming dispatch, once. Returns the frame the
transcript holds. -/
def appendStreamProgress (o decoded : HashOrder) (tenantScope dispatchId : String)
    (frame : StreamResponse) (now : Int) (s : Store) :
    Except A2AError (Option StreamResponse × Store) := do
  require (isWorkingUpdate frame = true)
    (.invalidParams "invalid durable stream progress frame")
  match s.dispatches.find? fun d =>
      d.tenantScope = tenantScope ∧ d.dispatchId = dispatchId ∧ d.openTranscript?.isSome with
  | none => .ok (none, s)
  | some d =>
    match d.openTranscript? with
    | none => .ok (none, s)
    | some transcript =>
      let stored ← loadPublicStreamFrames decoded transcript d.record.finalResult
      match stored.find? isWorkingUpdate with
      | some existing => .ok (some existing, s)
      | none =>
        require (stored.length + 1 ≤ maxStreamFrames)
          (.internal "stream progress append failed")
        let s' := s.putDispatch
          { d with transcript := some (transcript.append o decoded stored frame now) }
        ensureStreamCapacity s'
        .ok (some frame, s')

/-- What a reader of a transcript receives. -/
structure StreamTranscriptBatch where
  frames : List StreamResponse
  closed : Bool
  interruption : Option String
deriving DecidableEq

/-- Where a subscriber continues reading. -/
inductive SubscriptionCursor where
  | transcript (messageId : String) (cursor : Nat)
  | taskRevision (revision : Nat)
deriving DecidableEq

/-- What a reader of a task's events receives. -/
structure TaskEventBatch where
  frames : List StreamResponse
  closed : Bool
  lastRevision : Nat
deriving DecidableEq

/-- The frames that lead from the task of the event before to the task of an event: the
artifacts whose id is new, and the status when it changed. -/
def eventFrames (previous : Option Task) (task : Task) : List StreamResponse :=
  let previousArtifacts := (previous.bind Task.artifacts).getD []
  let added := (task.artifacts.getD []).filter fun artifact =>
    !previousArtifacts.any (·.artifactId == artifact.artifactId)
  added.map (fun artifact => .artifactUpdate
      { taskId := task.id, contextId := task.contextId, artifact,
        append := some false, lastChunk := some true, metadata := none }) ++
    if previous.all (·.status ≠ task.status) then
      [.statusUpdate { taskId := task.id, contextId := task.contextId, status := task.status,
                       metadata := none }]
    else []

end SmeshDurable
