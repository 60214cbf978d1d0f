import SmeshDurable.Store.Operations

/-!
# What the outbox driver makes of a receiver outcome

The driver claims a dispatch, shows that it is being worked on, has it received, and folds
the replayed outcome into the task and the public transcript that it commits. The decoders
it applies to the content of an artifact are functions of the environment; the base64 of a
binary artifact is decoded here.
-/

namespace SmeshDurable

open Transaction

/-! ## Artifact contents -/

def internalArtifactPrefix : String := "smesh-internal-artifact/v1:"

inductive InternalArtifactPayload where
  | binary (bytes : String)
  | published (projection : String)
deriving DecidableEq

/-- The JSON decoders of the internal artifact envelope and of a published artifact. -/
class ArtifactCodec where
  readPayload : String → Option InternalArtifactPayload
  readArtifact : String → Option Artifact

/-- The envelope in the content of an artifact event, if it starts like one and decodes. -/
def internalArtifactPayload [ArtifactCodec] (content : String) : Option InternalArtifactPayload :=
  let lead := internalArtifactPrefix.toList
  if lead <+: content.toList then
    ArtifactCodec.readPayload (String.ofList (content.toList.drop lead.length))
  else none

/-- The six bits of a character of the standard base64 alphabet. -/
def base64Value (c : Char) : Option Nat :=
  if 'A' ≤ c ∧ c ≤ 'Z' then some (c.toNat - 65)
  else if 'a' ≤ c ∧ c ≤ 'z' then some (c.toNat - 71)
  else if '0' ≤ c ∧ c ≤ '9' then some (c.toNat + 4)
  else if c = '+' then some 62
  else if c = '/' then some 63
  else none

/-- Standard base64 with canonical padding; the bits that padding stands for are zero. -/
def decodeBase64 : List Char → Option (List UInt8)
  | [] => some []
  | [a, b, '=', '='] => do
      let a ← base64Value a
      let b ← base64Value b
      if b % 16 = 0 then some [UInt8.ofNat (a * 4 + b / 16)] else none
  | [a, b, c, '='] => do
      let a ← base64Value a
      let b ← base64Value b
      let c ← base64Value c
      if c % 4 = 0 then
        some [UInt8.ofNat (a * 4 + b / 16), UInt8.ofNat (b % 16 * 16 + c / 4)]
      else none
  | a :: b :: c :: d :: rest => do
      let a ← base64Value a
      let b ← base64Value b
      let c ← base64Value c
      let d ← base64Value d
      let bytes ← decodeBase64 rest
      some (UInt8.ofNat (a * 4 + b / 16) :: UInt8.ofNat (b % 16 * 16 + c / 4) ::
        UInt8.ofNat (c % 4 * 64 + d) :: bytes)
  | _ => none

/-! ## Folding an outcome into its task -/

def durableCanceledSummary : String := "SMESH durable receiver cooperatively canceled"

/-- What the coordinator stores when a cancellation wins. -/
def canceledEvents : List MeshEvent :=
  [.progress "SMESH swarm is processing the durable dispatch", .completed durableCanceledSummary]

section Fold

variable [ContentDigest]

/-- The digest of a text, cut to the length identifiers are made with. -/
def shortDigest (text : String) : String := ((textDigest text).take 32).toString

/-- The artifact made of an event of a dispatch. -/
def durableArtifact (dispatchId : String) (index : Nat) (name mediaType : String)
    (content : PartContent) : Artifact :=
  { artifactId := "artifact-" ++ shortDigest (dispatchId ++ "\x00" ++ toString index)
    name := some name
    description := some "Durably replayable SMESH output"
    parts := [{ content, filename := none, mediaType := some mediaType, metadata := .empty }]
    metadata := none
    extensions := none }

/-- A message of the agent about a task. -/
def agentMessage (task : Task) (messageId text : String) : Message :=
  { messageId, contextId := some task.contextId, taskId := some task.id, role := .agent,
    parts := [Part.ofText text], metadata := none, extensions := none, referenceTaskIds := none }

/-- The summary of the last completion. -/
def completedSummary (events : List MeshEvent) : Option String :=
  events.foldl (fun summary event =>
    match event with
    | .completed summary => some summary
    | .artifact .. | .progress _ | .evidence _ => summary) none

/-- The state, the text and whether the artifacts are kept. -/
def terminalStatus (events : List MeshEvent) :
    DurableReceiverTermination → Except A2AError (TaskState × String × Bool)
  | .success => do
      let summary ← expect (completedSummary events) .invalidAgentResponse
      if summary = durableCanceledSummary then .ok (.canceled, summary, false)
      else .ok (.completed, summary, true)
  | .inputRequired message => .ok (.inputRequired, message, false)
  | .authRequired message => .ok (.authRequired, message, false)

variable [ArtifactCodec]

def extractArtifact (dispatchId : String) (index : Nat) (name mediaType content : String) :
    Except A2AError Artifact :=
  match internalArtifactPayload content with
  | some (.published projection) =>
    expect (ArtifactCodec.readArtifact projection) .invalidAgentResponse
  | some (.binary bytes) => do
      let bytes ← expect (decodeBase64 bytes.toList) .invalidAgentResponse
      .ok (durableArtifact dispatchId index name mediaType (.raw bytes))
  | none => .ok (durableArtifact dispatchId index name mediaType (.text content))

/-- The loop over the events, with the index of the next one. -/
def extractArtifactsFrom (dispatchId : String) : Nat → List MeshEvent →
    Except A2AError (List Artifact)
  | _, [] => .ok []
  | index, .artifact name mediaType content :: rest => do
      let artifact ← extractArtifact dispatchId index name mediaType content
      let others ← extractArtifactsFrom dispatchId (index + 1) rest
      .ok (artifact :: others)
  | index, .progress _ :: rest | index, .evidence _ :: rest | index, .completed _ :: rest =>
    extractArtifactsFrom dispatchId (index + 1) rest

def extractArtifacts (dispatchId : String) (events : List MeshEvent) :
    Except A2AError (List Artifact) :=
  extractArtifactsFrom dispatchId 0 events

def applyTerminalEvents (task : Task) (dispatchId : String) (events : List MeshEvent)
    (termination : DurableReceiverTermination) (now : Int) : Except A2AError Task := do
  let artifacts ← extractArtifacts dispatchId events
  let (state, summary, keepArtifacts) ← terminalStatus events termination
  .ok { task with
    status :=
      { state
        message := some (agentMessage task ("result-" ++ shortDigest dispatchId) summary)
        timestamp := timestampOfMillis now }
    artifacts := if keepArtifacts = true ∧ artifacts ≠ [] then some artifacts else none }

/-! ## The public transcript -/

omit [ArtifactCodec] in
def buildProgressFrame (task : Task) (progress : String) (now : Int) : StreamResponse :=
  .statusUpdate
    { taskId := task.id
      contextId := task.contextId
      status :=
        { state := .working
          message := some (agentMessage task ("progress-" ++ shortDigest task.id) progress)
          timestamp := timestampOfMillis now }
      metadata := none }

/-- The text of the first progress event. -/
def firstProgress? : List MeshEvent → Option String
  | [] => none
  | .progress text :: _ => some text
  | .evidence _ :: rest | .artifact .. :: rest | .completed _ :: rest => firstProgress? rest

def artifactFrame (task : Task) (artifact : Artifact) : StreamResponse :=
  .artifactUpdate
    { taskId := task.id, contextId := task.contextId, artifact, append := some false,
      lastChunk := some true, metadata := none }

omit [ArtifactCodec] in
def buildPublicTranscript (admittedTask finalTask : Task) (events : List MeshEvent)
    (committedProgress : Option StreamResponse) (now : Int) : List StreamResponse :=
  let text := (firstProgress? events).getD "SMESH swarm processed the durable dispatch"
  let progress := committedProgress.getD (buildProgressFrame finalTask text now)
  [.task admittedTask, progress] ++ (finalTask.artifacts.getD []).map (artifactFrame finalTask) ++
    [statusFrame finalTask]

/-- What the driver commits for a replayed outcome of a dispatch without ratification. -/
def driverDelivery (dispatchId : String) (task : Task) (events : List MeshEvent)
    (termination : DurableReceiverTermination) (committedProgress : Option StreamResponse)
    (foldedAt shownAt : Int) : Except A2AError (Task × List StreamResponse) := do
  let finalTask ← applyTerminalEvents task dispatchId events termination foldedAt
  .ok (finalTask, buildPublicTranscript task finalTask events committedProgress shownAt)

end Fold

/-! ## Operations as the driver calls them -/

/-- The outcome that a completed dispatch replays. -/
def Dispatch.outcome? (d : Dispatch) : Option (List MeshEvent × DurableReceiverTermination) :=
  d.inbox.bind fun inbox =>
    match inbox.state with
    | .completed termination _ _ _ =>
      some (inbox.frames.map ReceiverFrameRow.event, termination)
    | .processing .. => none

/-- A task that a worker read while it held the dispatch: the task of its causative revision
or a later one. -/
def Dispatch.ReadTask (d : Dispatch) (s : Store) (task : Task) : Prop :=
  ∃ row ∈ s.tasks, row.task.id = d.taskId ∧
    ∃ event ∈ row.events, d.causativeRevision ≤ event.taskRevision ∧ event.eventTask = task

/-- The working frame that a worker was shown for the stream of its dispatch, if it has one. -/
def Dispatch.ShownProgress (d : Dispatch) (shown : Option StreamResponse) : Prop :=
  match d.transcript with
  | none => shown = none
  | some transcript => ∃ frame ∈ transcript.frames.map FrameRow.frame,
      isWorkingUpdate frame = true ∧ shown = some frame

/-- The text of the frame that a worker appends to a stream. -/
def processingProgress : String := "SMESH swarm is processing the durable dispatch"

/-- The operation is one that the driver and the coordinator may call: they show the progress
of the task they read, end a canceled dispatch with the canceled events, and commit what they
fold from the outcome of the dispatch. -/
def Driven [ContentDigest] [ArtifactCodec] (s : Store) : Operation → Prop
  | .appendStreamProgress _ _ tenantScope dispatchId frame _ =>
    ∃ d ∈ s.dispatches, d.tenantScope = tenantScope ∧ d.dispatchId = dispatchId ∧
      ∃ task shownAt, d.ReadTask s task ∧
        frame = buildProgressFrame task processingProgress shownAt
  | .completeCanceledReceive _ events _ => events = canceledEvents
  | .commitDelivery _ _ lease task result frames _ =>
    ∃ d ∈ s.dispatches, d.tenantScope = lease.tenantScope ∧ d.dispatchId = lease.dispatchId ∧
      ∃ events termination admitted shown foldedAt shownAt,
        d.outcome? = some (events, termination) ∧ d.ReadTask s admitted ∧
          d.ShownProgress shown ∧
          driverDelivery d.dispatchId admitted events termination shown foldedAt shownAt =
            .ok (task, frames) ∧ result = .task task
  | _ => True

end SmeshDurable
