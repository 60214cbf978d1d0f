import SmeshDurable.Library.CanonicalJson
import SmeshDurable.Library.Framing
import SmeshDurable.Store.Schema

/-!
# Causal source events

The events of a full-matrix run as a causal source carries them: their closed wire form,
its parser, the producer chain and the identity each event is bound to. Reading a JSON
text is a function of the environment, of which only the order of the keys of an object is
assumed; all that is done with the value is in the model.
-/

namespace SmeshDurable.Replay

open CanonicalJson Transaction

/-- The failures of a merge. -/
inductive ReplayError where
  | invalidIdentifier
  | malformed
  | unsupportedSchema
  | capacityExhausted
  | duplicateConflict
  | sequenceGap
  | producerChain
  | missingClaimConflict
  | missingParents (ids : List String)
  | cycle (ids : List String)
  | clockCausalityViolation
  | projectionMismatch
deriving DecidableEq

def fullMatrixReplaySchemaVersion : String := "full-matrix-replay/1"
def causalSourceSchemaVersion : String := "full-matrix-causal-source/1"
def replayReceiptSchemaVersion : String := "full-matrix-replay-receipt/1"
def canonicalization : String := "RFC8785-JCS-restricted-no-numbers/1"
def maxSources : Nat := 1024
def maxEvents : Nat := 100000
def maxEdges : Nat := 100000
def maxBytes : Nat := 16 * 1024 * 1024
def maxLine : Nat := 64 * 1024
def maxProjections : Nat := 128
def maxCanonicalDepth : Nat := 64

/-! ## Bytes and digests -/

abbrev Bytes := List UInt8

def utf8 (text : String) : Bytes := text.toUTF8.data.toList

/-- Decodes a JSON text into a value whose objects are maps ordered by key. -/
class JsonReader where
  read : Bytes → Option Json
  read_sortedKeys : ∀ {bytes v}, read bytes = some v → SortedKeys v

/-- A length in eight bytes, the most significant first. -/
abbrev bigEndian (n : Nat) : Bytes := Framing.bigEndian 8 n

/-- A digest over a label and length-prefixed parts. -/
def hash [ContentDigest] (label : String) (parts : List Bytes) : String :=
  contentDigest (utf8 "SMESH-A2A\x00" ++ utf8 label ++ utf8 "\x00v1\x00" ++
    parts.flatMap fun part => bigEndian part.length ++ part)

def isHexDigit (c : Char) : Bool := c.isDigit || ('a' ≤ c && c ≤ 'f')

/-- The bytes of hexadecimal digits taken two at a time. -/
def hexBytes : List Char → Bytes
  | high :: low :: rest => UInt8.ofNat (16 * hexValue high + hexValue low) :: hexBytes rest
  | _ => []

def decodeDigest (text : String) : Except ReplayError Bytes := do
  require (text.toList.take 7 = "sha256:".toList) .invalidIdentifier
  let digits := text.toList.drop 7
  require (digits.length = 64 ∧ digits.all isHexDigit = true) .invalidIdentifier
  .ok (hexBytes digits)

def validateDigest (text : String) : Except ReplayError Unit := do
  let _ ← decodeDigest text
  .ok ()

def formatDigest (bytes : Bytes) : String :=
  "sha256:" ++ String.ofList (bytes.flatMap fun byte =>
    [Nat.digitChar (byte.toNat / 16), Nat.digitChar (byte.toNat % 16)])

/-- The raw digest behind `hash`. -/
def hashRaw [ContentDigest] (label : String) (parts : List Bytes) : Bytes :=
  match decodeDigest (hash label parts) with
  | .ok bytes => bytes
  | .error _ => []

def validIdentifier (text : String) : Bool :=
  text ≠ "" && text.utf8ByteSize ≤ 256 &&
    text.toList.all fun c => c.isAlphanum || ['-', '_', '.', ':', '/'].contains c

/-- The identifier check of a capture, which does not take a slash. -/
def validCaptureIdentifier (text : String) : Bool :=
  text ≠ "" && text.utf8ByteSize ≤ 256 &&
    text.toList.all fun c => c.isAlphanum || ['-', '_', '.', ':'].contains c

/-! ## Events -/

inductive ProducerKind where
  | a2a | smesh | tool | artifact | human
deriving DecidableEq

def kindName : ProducerKind → String
  | .a2a => "a2a"
  | .smesh => "smesh"
  | .tool => "tool"
  | .artifact => "artifact"
  | .human => "human"

def parseProducerKind (text : String) : Except ReplayError ProducerKind :=
  expect ([.a2a, .smesh, .tool, .artifact, .human].find? (kindName · = text)) .malformed

inductive CaptureGapReason where
  | externalBoundary | captureStartedLate | producerRestart
deriving DecidableEq

def gapName : CaptureGapReason → String
  | .externalBoundary => "externalBoundary"
  | .captureStartedLate => "captureStartedLate"
  | .producerRestart => "producerRestart"

def parseGap (text : String) : Except ReplayError CaptureGapReason :=
  expect ([.externalBoundary, .captureStartedLate, .producerRestart].find? (gapName · = text))
    .malformed

inductive CaptureKind where
  | a2aSend | a2aReceive
  | smeshSignalEmitted | smeshSignalSent | smeshSignalReinforced | smeshSignalReceived
  | smeshSignalExpired | smeshTickCompleted | smeshPeerConnected | smeshPeerDisconnected
  | toolCall | toolResult | toolFailed
  | artifactProduced | artifactConsumed
  | humanPrompt | humanDecision | humanFailed
deriving DecidableEq

def CaptureKind.all : List CaptureKind :=
  [.a2aSend, .a2aReceive, .smeshSignalEmitted, .smeshSignalSent, .smeshSignalReinforced,
    .smeshSignalReceived, .smeshSignalExpired, .smeshTickCompleted, .smeshPeerConnected,
    .smeshPeerDisconnected, .toolCall, .toolResult, .toolFailed, .artifactProduced,
    .artifactConsumed, .humanPrompt, .humanDecision, .humanFailed]

def captureKindName : CaptureKind → String
  | .a2aSend => "a2aSend"
  | .a2aReceive => "a2aReceive"
  | .smeshSignalEmitted => "smeshSignalEmitted"
  | .smeshSignalSent => "smeshSignalSent"
  | .smeshSignalReinforced => "smeshSignalReinforced"
  | .smeshSignalReceived => "smeshSignalReceived"
  | .smeshSignalExpired => "smeshSignalExpired"
  | .smeshTickCompleted => "smeshTickCompleted"
  | .smeshPeerConnected => "smeshPeerConnected"
  | .smeshPeerDisconnected => "smeshPeerDisconnected"
  | .toolCall => "toolCall"
  | .toolResult => "toolResult"
  | .toolFailed => "toolFailed"
  | .artifactProduced => "artifactProduced"
  | .artifactConsumed => "artifactConsumed"
  | .humanPrompt => "humanPrompt"
  | .humanDecision => "humanDecision"
  | .humanFailed => "humanFailed"

def parseCaptureKind (text : String) : Except ReplayError CaptureKind :=
  expect (CaptureKind.all.find? (captureKindName · = text)) .malformed

/-- The kinds a producer may record. -/
def CaptureKind.producer : CaptureKind → ProducerKind
  | .a2aSend | .a2aReceive => .a2a
  | .smeshSignalEmitted | .smeshSignalSent | .smeshSignalReinforced | .smeshSignalReceived
  | .smeshSignalExpired | .smeshTickCompleted | .smeshPeerConnected | .smeshPeerDisconnected =>
    .smesh
  | .toolCall | .toolResult | .toolFailed => .tool
  | .artifactProduced | .artifactConsumed => .artifact
  | .humanPrompt | .humanDecision | .humanFailed => .human

/-- A wire name with its first letter in upper case, as a debug format prints a variant. -/
def variantName (name : String) : String :=
  match name.toList with
  | [] => ""
  | c :: rest => String.ofList (c.toUpper :: rest)

inductive CaptureParent where
  | root
  | event (id : String)
  | missing (expectedEventId : String) (reason : CaptureGapReason)
deriving DecidableEq

structure ProducerIdentity where
  kind : ProducerKind
  id : String
  instanceId : String
deriving DecidableEq

structure CaptureProducer where
  identity : ProducerIdentity
  sequence : Nat
deriving DecidableEq

structure CapturedContent where
  digest : String
  byteLength : Nat
deriving DecidableEq

structure CaptureEvent where
  eventId : String
  sequence : Nat
  producer : CaptureProducer
  kind : CaptureKind
  interactionId : String
  peerId : String
  taskId : Option String
  contextId : Option String
  subjectId : Option String
  parent : CaptureParent
  content : CapturedContent
deriving DecidableEq

structure HybridLogicalClock where
  physicalNs : Nat
  logical : Nat
deriving DecidableEq

structure CausalSourceEvent where
  event : CaptureEvent
  hlc : HybridLogicalClock
  lamport : Nat
  recordedDecision : Option Json
  producerPrevious : Option String
  producerHash : String
deriving DecidableEq

/-! ## Wire form -/

def optionString : Option String → Json
  | none => .null
  | some text => .str text

def decimal (n : Nat) : Json := .str n.repr

def parentValue : CaptureParent → Json
  | .root => .obj [("kind", .str "root")]
  | .event id => .obj [("eventId", .str id), ("kind", .str "event")]
  | .missing expectedEventId reason =>
    .obj [("expectedEventId", .str expectedEventId), ("kind", .str "missing"),
      ("reason", .str (gapName reason))]

def eventValue (e : CaptureEvent) : Json :=
  .obj
    [("content", .obj [("byteLength", decimal e.content.byteLength),
        ("digest", .str e.content.digest)]),
      ("contextId", optionString e.contextId),
      ("eventId", .str e.eventId),
      ("interactionId", .str e.interactionId),
      ("kind", .str (captureKindName e.kind)),
      ("parent", parentValue e.parent),
      ("peerId", .str e.peerId),
      ("producer", .obj [("id", .str e.producer.identity.id),
        ("instanceId", .str e.producer.identity.instanceId),
        ("kind", .str (kindName e.producer.identity.kind)),
        ("sourceSequence", decimal e.producer.sequence)]),
      ("sourceSequence", decimal e.sequence),
      ("subjectId", optionString e.subjectId),
      ("taskId", optionString e.taskId)]

def hlcValue (hlc : HybridLogicalClock) : Json :=
  .obj [("logical", decimal hlc.logical), ("physicalNs", decimal hlc.physicalNs)]

def decisionValue (s : CausalSourceEvent) : Json := s.recordedDecision.getD .null

def sourceEventValue (s : CausalSourceEvent) : Json :=
  .obj [("event", eventValue s.event), ("hlc", hlcValue s.hlc), ("lamport", decimal s.lamport),
    ("producerHash", .str s.producerHash), ("producerPrevious", optionString s.producerPrevious),
    ("recordedDecision", decisionValue s)]

/-- An object looked up by key. -/
def get? (fields : List (String × Json)) (key : String) : Option Json :=
  (fields.find? fun field => field.1 = key).map Prod.snd

def asObject : Json → Except ReplayError (List (String × Json))
  | .obj fields => .ok fields
  | _ => .error .malformed

def objectAt (fields : List (String × Json)) (key : String) :
    Except ReplayError (List (String × Json)) := do
  asObject (← expect (get? fields key) .malformed)

def exactKeys (fields : List (String × Json)) (keys : List String) : Except ReplayError Unit :=
  require (fields.length = keys.length ∧ ∀ key ∈ keys, (get? fields key).isSome = true) .malformed

def asString : Option Json → Except ReplayError String
  | some (.str text) => .ok text
  | _ => .error .malformed

def stringAt (fields : List (String × Json)) (key : String) : Except ReplayError String :=
  asString (get? fields key)

def optionalString : Option Json → Except ReplayError (Option String)
  | some .null => .ok none
  | some (.str text) => .ok (some text)
  | _ => .error .malformed

/-- A decimal without leading zeros that fits in 64 bits. -/
def decimalValue (v : Option Json) : Except ReplayError Nat := do
  let text ← asString v
  require (¬ (text ≠ "0" ∧ (text.toList.head? = some '0' ∨ text = "")) ∧
    text.toList.all Char.isDigit = true) .malformed
  let value := text.toList.foldl (fun n c => 10 * n + (c.toNat - '0'.toNat)) 0
  require (value < 2 ^ 64) .malformed
  .ok value

def ProducerIdentity.new (kind : ProducerKind) (id instanceId : String) :
    Except ReplayError ProducerIdentity := do
  require (validCaptureIdentifier id = true ∧ validCaptureIdentifier instanceId = true)
    .invalidIdentifier
  .ok ⟨kind, id, instanceId⟩

def parseParent (fields : List (String × Json)) : Except ReplayError CaptureParent := do
  let kind ← stringAt fields "kind"
  if kind = "root" then
    exactKeys fields ["kind"]
    .ok .root
  else if kind = "event" then
    exactKeys fields ["eventId", "kind"]
    let id ← stringAt fields "eventId"
    .ok (.event id)
  else if kind = "missing" then
    exactKeys fields ["expectedEventId", "kind", "reason"]
    let expectedEventId ← stringAt fields "expectedEventId"
    let reason ← stringAt fields "reason"
    let reason ← parseGap reason
    .ok (.missing expectedEventId reason)
  else .error .malformed

/-- A clock is read as an object, or as the array of its two fields. -/
def parseHlc (v : Option Json) : Except ReplayError HybridLogicalClock := do
  match v with
  | some (.obj fields) =>
    exactKeys fields ["logical", "physicalNs"]
    let physicalNs ← decimalValue (get? fields "physicalNs")
    let logical ← decimalValue (get? fields "logical")
    .ok ⟨physicalNs, logical⟩
  | some (.arr [physicalNs, logical]) =>
    let physicalNs ← decimalValue (some physicalNs)
    let logical ← decimalValue (some logical)
    .ok ⟨physicalNs, logical⟩
  | _ => .error .malformed

section Digest

variable [ContentDigest]

/-- The identity an event is bound to. -/
def captureEventId (runId : String) (e : CaptureEvent) : String :=
  let parent := match e.parent with
    | .root => "root"
    | .event id => "event:" ++ id
    | .missing expectedEventId reason =>
      "missing:" ++ expectedEventId ++ ":" ++ variantName (gapName reason)
  let identity := variantName (kindName e.producer.identity.kind) ++ "\x00" ++
    e.producer.identity.id ++ "\x00" ++ e.producer.identity.instanceId
  textDigest ("\x00".intercalate
    ["full-matrix-event/v1", runId, identity, e.producer.sequence.repr,
      variantName (captureKindName e.kind), e.interactionId, e.peerId, e.taskId.getD "",
      e.contextId.getD "", e.subjectId.getD "", parent, e.content.digest,
      e.content.byteLength.repr])

def validateParent (e : CaptureEvent) : Except ReplayError Unit := do
  match e.parent with
  | .root => .ok ()
  | .event id =>
    validateDigest id
    require (id ≠ e.eventId) (.cycle [id])
  | .missing expectedEventId _ => validateDigest expectedEventId

def validateEvent (e : CaptureEvent) (runId : Option String) : Except ReplayError Unit := do
  validateDigest e.eventId
  validateDigest e.content.digest
  require (validIdentifier e.interactionId = true ∧ validIdentifier e.peerId = true ∧
    validIdentifier e.producer.identity.id = true ∧
    validIdentifier e.producer.identity.instanceId = true ∧
    e.taskId.all validIdentifier = true ∧ e.contextId.all validIdentifier = true ∧
    e.subjectId.all validIdentifier = true) .invalidIdentifier
  validateParent e
  require (e.kind.producer = e.producer.identity.kind) .malformed
  require (∀ run ∈ runId, e.eventId = captureEventId run e) .invalidIdentifier

def parseEvent (v : Json) : Except ReplayError CaptureEvent := do
  let o ← asObject v
  exactKeys o ["content", "contextId", "eventId", "interactionId", "kind", "parent", "peerId",
    "producer", "sourceSequence", "subjectId", "taskId"]
  let po ← objectAt o "producer"
  exactKeys po ["id", "instanceId", "kind", "sourceSequence"]
  let producerKind ← stringAt po "kind"
  let producerKind ← parseProducerKind producerKind
  let id ← stringAt po "id"
  let instanceId ← stringAt po "instanceId"
  let identity ← ProducerIdentity.new producerKind id instanceId
  let content ← objectAt o "content"
  exactKeys content ["byteLength", "digest"]
  let parentObject ← objectAt o "parent"
  let parent ← parseParent parentObject
  let eventId ← stringAt o "eventId"
  let sequence ← decimalValue (get? o "sourceSequence")
  let producerSequence ← decimalValue (get? po "sourceSequence")
  let kind ← stringAt o "kind"
  let kind ← parseCaptureKind kind
  let interactionId ← stringAt o "interactionId"
  let peerId ← stringAt o "peerId"
  let taskId ← optionalString (get? o "taskId")
  let contextId ← optionalString (get? o "contextId")
  let subjectId ← optionalString (get? o "subjectId")
  let digest ← stringAt content "digest"
  let byteLength ← decimalValue (get? content "byteLength")
  let event : CaptureEvent :=
    { eventId, sequence, producer := ⟨identity, producerSequence⟩, kind, interactionId, peerId,
      taskId, contextId, subjectId, parent, content := ⟨digest, byteLength⟩ }
  validateEvent event none
  .ok event

def parseDecision : Option Json → Except ReplayError (Option Json)
  | some .null => .ok none
  | some v => .ok (some v)
  | none => .error .malformed

def parseSourceEvent (v : Json) : Except ReplayError CausalSourceEvent := do
  let o ← asObject v
  exactKeys o ["event", "hlc", "lamport", "producerHash", "producerPrevious", "recordedDecision"]
  let event ← parseEvent (← expect (get? o "event") .malformed)
  let hlc ← parseHlc (get? o "hlc")
  let lamport ← decimalValue (get? o "lamport")
  let producerPrevious ← optionalString (get? o "producerPrevious")
  let recordedDecision ← parseDecision (get? o "recordedDecision")
  let producerHash ← stringAt o "producerHash"
  .ok { event, hlc, lamport, recordedDecision, producerPrevious, producerHash }

/-! ## Canonical bytes -/

/-- A canonical text as the replay reports its faults. -/
def reported (result : Except Fault String) : Except ReplayError String :=
  match result with
  | .ok text => .ok text
  | .error .malformed => .error .malformed
  | .error .capacity => .error .capacityExhausted

def canonicalBounded (v : Json) (limit : Nat) : Except ReplayError String :=
  reported (write limit maxCanonicalDepth 0 v "")

def canonical (v : Json) : Except ReplayError String := canonicalBounded v maxBytes

/-- A field of a record that is written piece by piece at depth one. -/
def writeField (label : String) (v : Json) : Writer := fun out => do
  let out ← extend maxLine label out
  write maxLine maxCanonicalDepth 1 v out

/-- What the producer hash covers. -/
def sourceCore (s : CausalSourceEvent) : Except ReplayError String :=
  reported do
    let out ← writeField "\x7b\"event\":" (eventValue s.event) ""
    let out ← writeField ",\"hlc\":" (hlcValue s.hlc) out
    let out ← writeField ",\"lamport\":" (decimal s.lamport) out
    let out ← writeField ",\"recordedDecision\":" (decisionValue s) out
    extend maxLine "\x7d" out

def canonicalSourceEvent (s : CausalSourceEvent) : Except ReplayError String :=
  reported do
    let out ← writeField "\x7b\"event\":" (eventValue s.event) ""
    let out ← writeField ",\"hlc\":" (hlcValue s.hlc) out
    let out ← writeField ",\"lamport\":" (decimal s.lamport) out
    let out ← writeField ",\"producerHash\":" (.str s.producerHash) out
    let out ← writeField ",\"producerPrevious\":" (optionString s.producerPrevious) out
    let out ← writeField ",\"recordedDecision\":" (decisionValue s) out
    extend maxLine "\x7d" out

def computeProducerHash (s : CausalSourceEvent) : Except ReplayError String := do
  let previous ← match s.producerPrevious with
    | none => .ok (List.replicate 32 0)
    | some text => decodeDigest text
  let core ← sourceCore s
  .ok (hash "producer-chain" [previous, utf8 core])

def validateDecision (s : CausalSourceEvent) : Except ReplayError Unit := do
  match s.recordedDecision with
  | none => .ok ()
  | some v =>
    let _ ← canonicalBounded v maxLine
    .ok ()

def validatePrevious (s : CausalSourceEvent) : Except ReplayError Unit := do
  match s.producerPrevious with
  | none => .ok ()
  | some text => validateDigest text

def validateSourceEvent (s : CausalSourceEvent) (runId : String) : Except ReplayError Unit := do
  validateEvent s.event (some runId)
  validateDecision s
  validateDigest s.producerHash
  validatePrevious s
  require (s.event.producer.sequence = 0 ↔ s.producerPrevious = none) .producerChain
  let expected ← computeProducerHash s
  require (expected = s.producerHash) .producerChain

/-! ## Envelopes -/

/-- The loop over the lines of an envelope, with the number of lines taken so far. -/
def checkLines (maxLineBytes maxLines : Nat) : Nat → List Bytes → Except ReplayError Unit
  | _, [] => .ok ()
  | count, line :: rest => do
      require (count ≠ maxLines) .capacityExhausted
      require (line ≠ [] ∧ line.length ≤ maxLineBytes) .malformed
      checkLines maxLineBytes maxLines (count + 1) rest

/-- The lines of an envelope: each non-empty and bounded, ended by a line feed, without
carriage returns or a byte order mark. -/
def strictLines (bytes : Bytes) (maxLineBytes maxLines : Nat) :
    Except ReplayError (List Bytes) := do
  require (bytes.getLast? = some 10 ∧ 13 ∉ bytes ∧ bytes.take 3 ≠ [0xef, 0xbb, 0xbf]) .malformed
  let lines := bytes.dropLast.splitOn 10
  checkLines maxLineBytes maxLines 0 lines
  .ok lines

variable [JsonReader]

/-- A line holds the canonical text of its value. -/
def readLine (line : Bytes) : Except ReplayError Json := do
  let v ← expect (JsonReader.read line) .malformed
  let text ← canonical v
  require (utf8 text = line) .malformed
  .ok v

/-- The fields every line of an envelope has; returns the object and its record type. -/
def readHeader (runId : String) (line : Bytes) :
    Except ReplayError (List (String × Json) × String) := do
  let v ← readLine line
  let o ← asObject v
  let recordType ← stringAt o "recordType"
  require (get? o "schemaVersion" = some (.str causalSourceSchemaVersion)) .unsupportedSchema
  require (get? o "runId" = some (.str runId)) .invalidIdentifier
  .ok (o, recordType)

def readEventLine (runId : String) (line : Bytes) : Except ReplayError CausalSourceEvent := do
  let (o, recordType) ← readHeader runId line
  exactKeys o ["event", "recordType", "runId", "schemaVersion"]
  require (recordType = "causalEvent") .malformed
  parseSourceEvent (← expect (get? o "event") .malformed)

def readCompleteLine (runId : String) (count : Nat) (line : Bytes) : Except ReplayError Unit := do
  let (o, recordType) ← readHeader runId line
  exactKeys o ["eventCount", "recordType", "runId", "schemaVersion"]
  require (recordType = "complete") .malformed
  let declared ← decimalValue (get? o "eventCount")
  require (declared = count) .malformed

/-- The events of an envelope: lines of events, then the line that completes it. -/
def parseSource (bytes : Bytes) (runId : String) (maxLineBytes maxEventCount : Nat) :
    Except ReplayError (List CausalSourceEvent) := do
  let lines ← strictLines bytes maxLineBytes (maxEventCount + 1)
  require (2 ≤ lines.length) .malformed
  let events ← lines.dropLast.mapM (readEventLine runId)
  let last ← expect lines.getLast? .malformed
  readCompleteLine runId events.length last
  .ok events

end Digest

end SmeshDurable.Replay
