import SmeshDurable.Store.Schema

/-!
# Requests, results and transcripts

The pure checks that the durable operations and the startup validators share: the
text a message dispatches, the digests that bind a request, when a result belongs to
a task, which receiver outcomes are well formed, and what a public transcript folds to.
-/

namespace SmeshDurable

open Transaction

/-! ## Dispatched text -/

inductive InputError where
  | empty
  | unsupportedPart
  | tooLarge (actual limit : Nat)
deriving DecidableEq

def InputError.text : InputError → String
  | .empty => "message contains no text"
  | .unsupportedPart => "only inline text parts are supported"
  | .tooLarge actual limit =>
    "message is " ++ toString actual ++ " bytes; limit is " ++ toString limit

/-- The Unicode `White_Space` property. -/
def isWhitespace (c : Char) : Bool :=
  let n := c.toNat
  (0x09 ≤ n && n ≤ 0x0d) || n == 0x20 || n == 0x85 || n == 0xa0 || n == 0x1680 ||
    (0x2000 ≤ n && n ≤ 0x200a) || n == 0x2028 || n == 0x2029 || n == 0x202f || n == 0x205f ||
    n == 0x3000

/-- The loop of `extractText`: text parts joined by newlines, within the byte limit. -/
def extractTextLoop (limit : Nat) : List Part → String → Bool → Except InputError String
  | [], output, _ => .ok output
  | part :: parts, output, first =>
    match part.content with
    | .text body =>
      let actual := output.utf8ByteSize + (if first then 0 else 1) + body.utf8ByteSize
      if limit < actual then .error (.tooLarge actual limit)
      else extractTextLoop limit parts ((if first then output else output ++ "\n") ++ body)
        false
    | _ => .error .unsupportedPart

/-- Inline text of a message in wire order. -/
def extractText (message : Message) (limit : Nat) : Except InputError String := do
  let output ← extractTextLoop limit message.parts "" true
  if output.toList.all isWhitespace then .error .empty else .ok output

/-- The mesh request of a message. -/
def MeshRequest.fromA2a (taskId contextId : String) (message : Message) (limit : Nat) :
    Except InputError MeshRequest := do
  let text ← extractText message limit
  .ok { protocol := "a2a-v1", taskId, contextId, text }

/-! ## Identity of a request -/

section Digests

variable [ContentDigest]

def invocationName (streaming : Bool) : String := if streaming then "streaming" else "unary"

def metadataOrNull (metadata : Option Metadata) : Json :=
  metadata.elim .null (Metadata.toJson .sorted)

/-- Semantic digest of a local request. -/
def canonicalSendMessageDigest (request : SendMessageRequest) (streaming : Bool) : String :=
  textDigest (Json.canonical (.obj
    [("executionConfiguration", .obj [("outputMode", .str "application/json")]),
      ("invocation", .str (invocationName streaming)),
      ("message", request.message.toJson .sorted),
      ("metadata", metadataOrNull request.metadata),
      ("operation", .str "sendMessage"),
      ("trustedScope", .str trustedSingleTenantScope)])).render

/-- Semantic digest of an authorized request. -/
def canonicalSendMessageDigestV2 (tenantScope actorAccountId : String)
    (request : SendMessageRequest) (streaming : Bool) : Except A2AError String := do
  require (validBoundedIdentity tenantScope = true ∧ validBoundedIdentity actorAccountId = true)
    (.invalidRequest "invalid authorization identity")
  .ok (textDigest (Json.canonical (.obj
    [("digestVersion", .num "2"), ("tenantScope", .str tenantScope),
      ("actorAccountId", .str actorAccountId),
      ("invocation", .str (invocationName streaming)),
      ("operation", .str "sendMessage"),
      ("executionConfiguration", .obj [("outputMode", .str "application/json")]),
      ("message", request.message.toJson .sorted),
      ("metadata", metadataOrNull request.metadata)])).render)

/-- Storage identity of an authorized message. -/
def authorizedMessageIdentity (tenantScope actorAccountId messageId : String) : String :=
  textDigest ("message-v2\x00" ++ tenantScope ++ "\x00" ++ actorAccountId ++ "\x00" ++ messageId)

/-- Identity of the dispatch of a message. -/
def dispatchIdentity (tenantScope messageId : String) : String :=
  textDigest (tenantScope ++ "\x00send-message\x00" ++ messageId)

end Digests

/-! ## Results -/

def responseMatchesTask (response : SendMessageResponse) (taskId : String) : Bool :=
  match response with
  | .task task => task.id == taskId
  | .message message => message.taskId == some taskId

/-- A final result is the task itself, or the message its status carries. -/
def finalResultMatchesTask (response : SendMessageResponse) (task : Task) : Bool :=
  match response with
  | .task resultTask => resultTask == task
  | .message message => message.taskId == some task.id && task.status.message == some message

/-! ## Receiver outcomes -/

def receiverRequestIsValid (request : MeshRequest) (payloadBytes : Nat) : Bool :=
  payloadBytes ≤ maxAtomicJsonBytes &&
    !request.protocol.isEmpty && request.protocol.utf8ByteSize ≤ maxAtomicTextBytes &&
    !request.taskId.isEmpty && request.taskId.utf8ByteSize ≤ maxAtomicTextBytes &&
    !request.contextId.isEmpty && request.contextId.utf8ByteSize ≤ maxAtomicTextBytes &&
    request.text.utf8ByteSize ≤ maxAtomicJsonBytes

/-- Exactly one completion, in last position. -/
def validateCompletedReceiverTranscript (events : List MeshEvent) : Bool :=
  events.countP MeshEvent.isCompleted == 1 && (events.getLast?.any MeshEvent.isCompleted)

def validateReceiverOutcome (events : List MeshEvent)
    (termination : DurableReceiverTermination) : Bool :=
  match termination with
  | .success => validateCompletedReceiverTranscript events
  | .inputRequired message | .authRequired message =>
    !message.isEmpty && message.utf8ByteSize ≤ maxAtomicTextBytes &&
      !events.any MeshEvent.isCompleted

/-- The stored document of a termination is within the limit. -/
def terminationFits (termination : DurableReceiverTermination) : Bool :=
  optionalBytes termination.payload ≤ maxAtomicJsonBytes

/-- A stored termination decodes: success without a document, an interruption with a
message within the limit. -/
def decodeReceiverTermination (termination : DurableReceiverTermination) : Bool :=
  match termination with
  | .success => true
  | .inputRequired message | .authRequired message =>
    terminationFits termination && !message.isEmpty

/-- The stored events of a completed dispatch, if its frames are intact. -/
def loadReceiverFrames [ContentDigest] (frames : List ReceiverFrameRow) (frameCount : Nat)
    (transcriptDigest : String) : Except A2AError (List MeshEvent) := do
  let events := frames.map ReceiverFrameRow.event
  require (frames.zipIdx.all fun (row, index) =>
      row.frameSeq == index + 1 && row.frameDigest == textDigest row.event.encode &&
        row.event.jsonBytes ≤ maxAtomicJsonBytes)
    (.internal "receiver replay transcript is corrupt")
  require (events.length = frameCount ∧ textDigest (encodeEvents events) = transcriptDigest)
    (.internal "receiver replay transcript is corrupt")
  .ok events

/-! ## Public transcripts -/

def publicStreamKind : StreamResponse → String
  | .task _ => "task"
  | .message _ => "message"
  | .statusUpdate _ => "status_update"
  | .artifactUpdate _ => "artifact_update"

/-- The frame closes its dispatch. -/
def frameCloses : StreamResponse → Bool
  | .task t => isDispatchClosed t.status.state
  | .statusUpdate update => isDispatchClosed update.status.state
  | .message _ | .artifactUpdate _ => false

/-- A client's view of a task after one more frame. -/
def applyFrame (task : Task) : StreamResponse → Task
  | .statusUpdate update => { task with status := update.status }
  | .artifactUpdate update =>
    { task with artifacts := some (task.artifacts.getD [] ++ [update.artifact]) }
  | .task _ | .message _ => task

/-- The frame is an update addressed to the task. -/
def frameAddresses (task : Task) : StreamResponse → Bool
  | .statusUpdate update => update.taskId == task.id && update.contextId == task.contextId
  | .artifactUpdate update => update.taskId == task.id && update.contextId == task.contextId
  | .task _ | .message _ => false

/-- The frames after the first: updates of the final task, none closing but the last.
Returns the reconstructed task and the number of closing frames. -/
def foldUpdates (finalTask : Task) : List StreamResponse → Task → Nat → Option (Task × Nat)
  | [], reconstructed, closing => some (reconstructed, closing)
  | frame :: rest, reconstructed, closing =>
    if frameAddresses finalTask frame = false then none
    else if frameCloses frame then
      if rest = [] then some (applyFrame reconstructed frame, closing + 1) else none
    else foldUpdates finalTask rest (applyFrame reconstructed frame) closing

/-- A transcript opens with one non-terminal task, closes with one closing update in last
position, and folds to the final task. -/
def validateTerminalPublicTranscript (frames : List StreamResponse) (finalTask : Task) : Bool :=
  frames.length ≤ maxStreamFrames &&
  match frames with
  | .task initial :: updates =>
    !initial.status.state.isTerminal &&
      foldUpdates finalTask updates initial 0 == some (finalTask, 1)
  | _ => false

/-- The text of a whole public transcript in one serialization pass. -/
def encodeFrames (o : HashOrder) (frames : List StreamResponse) : String :=
  (Json.arr (frames.map (StreamResponse.toJson o))).render

/-- The stored frames of a transcript, if they are intact: the rows are numbered,
digested and within the limit, the re-encoded list has the recorded digest, and the
frames fit the transcript's state. -/
def loadPublicStreamFrames [ContentDigest] (o : HashOrder) (transcript : TranscriptRow)
    (finalResult : Option SendMessageResponse) : Except A2AError (List StreamResponse) := do
  let frames := transcript.frames.map FrameRow.frame
  require (optionalBytes transcript.state.interruption ≤ maxAtomicTextBytes ∧
      transcript.frameCount ≤ maxStreamFrames ∧
      (transcript.state.interruption = none → 0 < transcript.frameCount))
    (.internal "public stream transcript is corrupt")
  require (transcript.frames.zipIdx.all fun (row, index) =>
      row.frameSeq == index + 1 && row.frameDigest == textDigest row.frameJson &&
        row.frameJson.utf8ByteSize ≤ maxAtomicJsonBytes)
    (.internal "public stream frame is corrupt")
  require (frames.length = transcript.frameCount)
    (.internal "public stream transcript is corrupt")
  require ((encodeFrames o frames).utf8ByteSize ≤ maxStoreJsonBytes ∧
      textDigest (encodeFrames o frames) = transcript.transcriptDigest)
    (.internal "public stream transcript is corrupt")
  match transcript.state with
  | .terminal _ =>
    match finalResult with
    | some (.task finalTask) =>
      require (validateTerminalPublicTranscript frames finalTask = true)
        (.internal "public stream terminal transcript is corrupt")
    | _ => .error (.internal "canonical stream result is corrupt")
  | .open | .interrupted _ =>
    require (frames.any frameCloses = false)
      (.internal "public stream interrupted transcript contains terminal frame")
  .ok frames

end SmeshDurable
