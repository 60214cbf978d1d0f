import SmeshDurable.Replay.Event
import Mathlib.Data.List.Dedup

/-!
# The causal merger

The merger takes source envelopes one by one into its maps and sets, each envelope whole or
not at all, and derives the sealed bundle from what it holds. Hash maps and sets are lists
of entries; the order in which the map of events is iterated when the bundle is derived is
an argument.
-/

namespace SmeshDurable.Replay

open Transaction

inductive MissingParentPolicy where
  | reject | record
deriving DecidableEq

structure MergeLimits where
  maxSources : Nat
  maxEvents : Nat
  maxEdges : Nat
  maxInputBytes : Nat
  maxOutputBytes : Nat
  maxLineBytes : Nat
deriving DecidableEq

def MergeLimits.validate (limits : MergeLimits) : Except ReplayError MergeLimits := do
  require ((0 < limits.maxSources ∧ limits.maxSources ≤ Replay.maxSources) ∧
    (0 < limits.maxEvents ∧ limits.maxEvents ≤ Replay.maxEvents) ∧
    (0 < limits.maxEdges ∧ limits.maxEdges ≤ Replay.maxEdges) ∧
    (0 < limits.maxInputBytes ∧ limits.maxInputBytes ≤ maxBytes) ∧
    (0 < limits.maxOutputBytes ∧ limits.maxOutputBytes ≤ maxBytes) ∧
    (0 < limits.maxLineBytes ∧ limits.maxLineBytes ≤ maxLine)) .capacityExhausted
  .ok limits

namespace CausalSourceEvent

def id (s : CausalSourceEvent) : String := s.event.eventId

def sequence (s : CausalSourceEvent) : Nat := s.event.producer.sequence

/-- The id of a parent that the event declares missing. -/
def missingId? (s : CausalSourceEvent) : Option String :=
  match s.event.parent with
  | .missing expectedEventId _ => some expectedEventId
  | _ => none

/-- The id of the event's parent. -/
def parentId? (s : CausalSourceEvent) : Option String :=
  match s.event.parent with
  | .event id => some id
  | _ => none

end CausalSourceEvent

/-- The kind, id and instance of a producer, compared in this order. -/
abbrev ProducerKey := Lex (String × Lex (String × String))

/-- A producer and a place in its sequence. -/
abbrev Slot := ProducerKey × Nat

def producerKey (s : CausalSourceEvent) : ProducerKey :=
  toLex (kindName s.event.producer.identity.kind,
    toLex (s.event.producer.identity.id, s.event.producer.identity.instanceId))

def producerSlot (s : CausalSourceEvent) : Slot := (producerKey s, s.sequence)

structure CausalMerger where
  runId : String
  limits : MergeLimits
  missingPolicy : MissingParentPolicy
  events : List CausalSourceEvent
  slots : List (Slot × String)
  missingClaims : List String
  edges : List (String × String)
  sources : Nat
  inputBytes : Nat
  sourceFingerprints : List (String × Nat)

def CausalMerger.new (runId : String) (limits : MergeLimits) (policy : MissingParentPolicy) :
    Except ReplayError CausalMerger := do
  require (validIdentifier runId = true) .invalidIdentifier
  let limits ← limits.validate
  .ok { runId, limits, missingPolicy := policy, events := [], slots := [], missingClaims := [],
        edges := [], sources := 0, inputBytes := 0, sourceFingerprints := [] }

/-- The event of an id. -/
def lookupEvent (events : List CausalSourceEvent) (id : String) : Option CausalSourceEvent :=
  events.find? fun s => s.id = id

/-- What the events of an envelope add before it is taken over. -/
structure Pending where
  events : List CausalSourceEvent
  slots : List (Slot × String)
  missing : List String

/-- One turn of the loop over the events of an envelope. -/
def stageEvent (m : CausalMerger) (batchIds : List String) (pending : Pending)
    (s : CausalSourceEvent) : Except ReplayError Pending := do
  require (s.id ∉ m.missingClaims ∧ s.id ∉ pending.missing) .missingClaimConflict
  require (∀ expected ∈ s.missingId?,
    (lookupEvent m.events expected).isNone = true ∧ expected ∉ batchIds) .missingClaimConflict
  let missing := pending.missing ++ s.missingId?.toList
  match (lookupEvent m.events s.id).or (lookupEvent pending.events s.id) with
  | some existing =>
    let known ← canonicalSourceEvent existing
    let given ← canonicalSourceEvent s
    require (known = given) .duplicateConflict
    .ok { pending with missing }
  | none =>
    require (∀ existing ∈ (pending.slots.lookup (producerSlot s)).or
      (m.slots.lookup (producerSlot s)), existing = s.id) .sequenceGap
    .ok { events := pending.events ++ [s]
          slots := (producerSlot s, s.id) :: pending.slots
          missing }

def stageBatch (m : CausalMerger) (batch : List CausalSourceEvent) : Except ReplayError Pending :=
  batch.foldlM (stageEvent m (batch.map CausalSourceEvent.id).dedup) ⟨[], [], []⟩

/-- The edges an event has with the events in the slots next to it and with its parent. -/
def eventEdges (slots : Slot → Option String) (s : CausalSourceEvent) : List (String × String) :=
  (if 0 < s.sequence then
      (slots (producerKey s, s.sequence - 1)).toList.map (·, s.id) else []) ++
    (if s.sequence + 1 < 2 ^ 64 then
      (slots (producerKey s, s.sequence + 1)).toList.map (s.id, ·) else []) ++
    s.parentId?.toList.map (·, s.id)

/-- The edges the staged events add. -/
def incrementalEdges (m : CausalMerger) (pending : Pending) : List (String × String) :=
  let slots := fun slot => (pending.slots.lookup slot).or (m.slots.lookup slot)
  ((pending.events.flatMap (eventEdges slots)).dedup).filter (· ∉ m.edges)

section Digest

variable [ContentDigest] [JsonReader]

/-- The events of an envelope for a run, parsed and checked one by one. -/
def readEnvelope (runId : String) (limits : MergeLimits) (bytes : Bytes) :
    Except ReplayError (List CausalSourceEvent) := do
  let batch ← parseSource bytes runId limits.maxLineBytes limits.maxEvents
  batch.forM (validateSourceEvent · runId)
  .ok batch

def fingerprint (bytes : Bytes) : String := hash "source-envelope" [bytes]

def CausalMerger.ingestSourceJsonl (m : CausalMerger) (bytes : Bytes) :
    Except ReplayError (Nat × CausalMerger) := do
  require (bytes.length ≤ m.limits.maxInputBytes) .capacityExhausted
  match m.sourceFingerprints.lookup (fingerprint bytes) with
  | some eventCount => .ok (eventCount, m)
  | none =>
    require (m.sources ≠ m.limits.maxSources ∧
      bytes.length ≤ m.limits.maxInputBytes - m.inputBytes) .capacityExhausted
    let batch ← readEnvelope m.runId m.limits bytes
    let batchIds := (batch.map CausalSourceEvent.id).dedup
    let newEventCount := (batchIds.filter fun id => (lookupEvent m.events id).isNone).length
    require (m.events.length + newEventCount ≤ m.limits.maxEvents) .capacityExhausted
    let pending ← stageBatch m batch
    let pendingEdges := incrementalEdges m pending
    require (m.edges.length + pendingEdges.length ≤ m.limits.maxEdges) .capacityExhausted
    .ok (batch.length,
      { m with
        events := m.events ++ pending.events
        slots := pending.slots ++ m.slots
        missingClaims := m.missingClaims ++ pending.missing
        edges := m.edges ++ pendingEdges
        sources := m.sources + 1
        inputBytes := m.inputBytes + bytes.length
        sourceFingerprints := (fingerprint bytes, batch.length) :: m.sourceFingerprints })

/-- A check or a computation that leaves the merger alone. -/
def attempt {α : Type} (result : Except ReplayError α) :
    ExceptT ReplayError (StateM CausalMerger) α :=
  ExceptT.mk (pure result)

/-- The same call on a borrowed merger, which it writes field by field: whatever was written when
the call returns, with a count or with an error, stays. -/
def CausalMerger.ingestSourceJsonlInPlace (bytes : Bytes) :
    ExceptT ReplayError (StateM CausalMerger) Nat := do
  let m ← get
  attempt (require (bytes.length ≤ m.limits.maxInputBytes) .capacityExhausted)
  match m.sourceFingerprints.lookup (fingerprint bytes) with
  | some eventCount => return eventCount
  | none =>
    attempt (require (m.sources ≠ m.limits.maxSources ∧
      bytes.length ≤ m.limits.maxInputBytes - m.inputBytes) .capacityExhausted)
    let batch ← attempt (readEnvelope m.runId m.limits bytes)
    let batchIds := (batch.map CausalSourceEvent.id).dedup
    let newEventCount := (batchIds.filter fun id => (lookupEvent m.events id).isNone).length
    attempt (require (m.events.length + newEventCount ≤ m.limits.maxEvents) .capacityExhausted)
    let pending ← attempt (stageBatch m batch)
    let pendingEdges := incrementalEdges m pending
    attempt (require (m.edges.length + pendingEdges.length ≤ m.limits.maxEdges)
      .capacityExhausted)
    modify fun m => { m with events := m.events ++ pending.events }
    modify fun m => { m with slots := pending.slots ++ m.slots }
    modify fun m => { m with missingClaims := m.missingClaims ++ pending.missing }
    modify fun m => { m with edges := m.edges ++ pendingEdges }
    modify fun m => { m with sources := m.sources + 1 }
    modify fun m => { m with inputBytes := m.inputBytes + bytes.length }
    modify fun m => { m with
      sourceFingerprints := (fingerprint bytes, batch.length) :: m.sourceFingerprints }
    return batch.length

/-- What the call returns, and the merger it leaves. -/
def CausalMerger.offer (m : CausalMerger) (bytes : Bytes) : Except ReplayError Nat × CausalMerger :=
  (ingestSourceJsonlInPlace bytes).run.run m

/-- A result that carries the new merger, or leaves the old one. -/
def CausalMerger.settled (m : CausalMerger) :
    Except ReplayError (Nat × CausalMerger) → Except ReplayError Nat × CausalMerger
  | .ok (count, m') => (.ok count, m')
  | .error error => (.error error, m)

omit [ContentDigest] [JsonReader] in
theorem run_attempt {α : Type} {m : CausalMerger} {result : Except ReplayError α}
    {next : α → ExceptT ReplayError (StateM CausalMerger) Nat}
    {f : α → Except ReplayError (Nat × CausalMerger)}
    (h : ∀ a, (next a).run.run m = m.settled (f a)) :
    (attempt result >>= next).run.run m = m.settled (result >>= f) := by
  cases result with
  | error error => rfl
  | ok a => exact h a

omit [ContentDigest] [JsonReader] in
theorem run_get {m : CausalMerger} {result : Except ReplayError Nat × CausalMerger}
    {next : CausalMerger → ExceptT ReplayError (StateM CausalMerger) Nat}
    (h : (next m).run.run m = result) : (get >>= next).run.run m = result := h

/-- On an error the call has written nothing yet. -/
theorem CausalMerger.offer_eq (m : CausalMerger) (bytes : Bytes) :
    m.offer bytes = m.settled (m.ingestSourceJsonl bytes) := by
  unfold offer ingestSourceJsonlInPlace ingestSourceJsonl
  refine run_get (run_attempt fun _ => ?_)
  cases m.sourceFingerprints.lookup (fingerprint bytes) with
  | some eventCount => rfl
  | none =>
    refine run_attempt fun _ => run_attempt fun batch => run_attempt fun _ =>
      run_attempt fun pending => run_attempt fun _ => ?_
    rfl

end Digest

/-! ## Finalization -/

structure ProjectionReceipt where
  projectorId : String
  projectorVersion : String
  inputDigest : String
  outputDigest : String
  outputByteLength : Nat
deriving DecidableEq

structure ReplaySealInput where
  artifactManifestDigest : String
  projections : List ProjectionReceipt

structure ReplayReceipt where
  schemaVersion : String
  runId : String
  runSeal : String
  inputJsonlDigest : String
  merkleRoot : String
  replayedEventCount : Nat
  decisionMode : String
  recordedDecisionSetDigest : String
  projections : List ProjectionReceipt
  normalizedOutputDigest : String
  receiptDigest : String
deriving DecidableEq

structure SealedReplay where
  bundleJsonl : String
  receipt : ReplayReceipt
  receiptJson : String
deriving DecidableEq

def projectionTextBytes (p : ProjectionReceipt) : Nat :=
  p.projectorId.utf8ByteSize + p.projectorVersion.utf8ByteSize + p.inputDigest.utf8ByteSize +
    p.outputDigest.utf8ByteSize

def ProjectionReceipt.key (p : ProjectionReceipt) : Lex (String × String) :=
  toLex (p.projectorId, p.projectorVersion)

def isOk {ε α : Type} : Except ε α → Bool
  | .ok _ => true
  | .error _ => false

/-- The projections in order, each valid and no projector twice. -/
def validateProjections (projections : List ProjectionReceipt) :
    Except ReplayError (List ProjectionReceipt) := do
  require (projections.length ≤ maxProjections ∧
    (projections.map projectionTextBytes).sum ≤ maxBytes) .capacityExhausted
  require (∀ p ∈ projections, validIdentifier p.projectorId = true ∧
    validIdentifier p.projectorVersion = true ∧ isOk (decodeDigest p.inputDigest) = true ∧
    isOk (decodeDigest p.outputDigest) = true) .projectionMismatch
  let sorted := projections.insertionSort fun a b => a.key ≤ b.key
  require ((sorted.map ProjectionReceipt.key).Nodup) .projectionMismatch
  .ok sorted

def clockLt (a b : CausalSourceEvent) : Bool :=
  (a.hlc.physicalNs < b.hlc.physicalNs ||
    (a.hlc.physicalNs == b.hlc.physicalNs && a.hlc.logical < b.hlc.logical)) &&
    a.lamport < b.lamport

/-- The events of every producer by sequence, the producers in order. -/
def producerGroups (events : List CausalSourceEvent) :
    List (ProducerKey × List CausalSourceEvent) :=
  let keys := (events.map producerKey).dedup.insertionSort (· ≤ ·)
  keys.map fun key => (key, (events.filter (producerKey · = key)).insertionSort
    fun a b => a.sequence ≤ b.sequence)

section Digest

variable [ContentDigest]

/-- The walk along one producer, with the event before and the place expected next. -/
def validateChain : Option CausalSourceEvent → Nat → List CausalSourceEvent →
    Except ReplayError Unit
  | _, _, [] => .ok ()
  | previous, expected, s :: rest => do
      require (s.sequence = expected) .sequenceGap
      require (s.producerPrevious = previous.map CausalSourceEvent.producerHash) .producerChain
      let computed ← computeProducerHash s
      require (computed = s.producerHash) .producerChain
      require (∀ p ∈ previous, clockLt p s = true) .clockCausalityViolation
      validateChain (some s) (expected + 1) rest

def validateProducers (events : List CausalSourceEvent) : Except ReplayError Unit :=
  (producerGroups events).forM fun group => validateChain none 0 group.2

end Digest

/-- Texts in order, none twice. -/
def sortDistinct (texts : List String) : List String :=
  texts.dedup.insertionSort (· ≤ ·)

/-- The parents that are not held, each with its children. -/
def unresolvedMap (events : List CausalSourceEvent) : List (String × List String) :=
  let absent := fun s : CausalSourceEvent =>
    s.parentId?.filter fun parent => (lookupEvent events parent).isNone
  (sortDistinct (events.filterMap absent)).map fun parent =>
    (parent, sortDistinct ((events.filter (absent · = some parent)).map CausalSourceEvent.id))

/-- The clock, the producer, the place in its sequence and the id of an event, compared in this
order. -/
abbrev MergeKey := Lex (Nat × Lex (Nat × Lex (ProducerKey × Lex (Nat × String))))

def mergeKey (s : CausalSourceEvent) : MergeKey :=
  toLex (s.hlc.physicalNs, toLex (s.hlc.logical, toLex (producerKey s, toLex (s.sequence, s.id))))

/-- The id in a merge key. -/
def MergeKey.id (key : MergeKey) : String := (ofLex (ofLex (ofLex (ofLex key).2).2).2).2

/-- Insertion into a set of merge keys kept in order. -/
def insertKey (key : MergeKey) (ready : List MergeKey) : List MergeKey :=
  if key ∈ ready then ready else ready.orderedInsert (· ≤ ·) key

/-- The key of a held event. -/
def keyOf (events : List CausalSourceEvent) (id : String) : MergeKey :=
  match lookupEvent events id with
  | some s => mergeKey s
  | none => toLex (0, toLex (0, toLex (toLex ("", toLex ("", "")), toLex (0, id))))

/-- The events an event must come after: the one before it in its producer's sequence and its
parent when that is held. -/
def predecessors (m : CausalMerger) (s : CausalSourceEvent) : List String :=
  let previous := if 0 < s.sequence then m.slots.lookup (producerKey s, s.sequence - 1) else none
  let parent := s.parentId?.filter fun id => (lookupEvent m.events id).isSome
  (previous.toList ++ parent.toList).dedup

/-- What an id waits for. -/
def CausalMerger.before (m : CausalMerger) (id : String) : List String :=
  match lookupEvent m.events id with
  | some s => predecessors m s
  | none => []

def CausalMerger.ids (m : CausalMerger) : List String := m.events.map CausalSourceEvent.id

/-- The ids that wait for an id. -/
def CausalMerger.children (m : CausalMerger) (id : String) : List String :=
  sortDistinct (m.ids.filter fun child => id ∈ m.before child)

/-- One child of an id that was placed: its count goes down, and it becomes ready at zero. -/
def release (keyOf : String → MergeKey) (state : (String → Nat) × List MergeKey)
    (child : String) : (String → Nat) × List MergeKey :=
  let degree := state.1 child - 1
  (Function.update state.1 child degree,
    if degree = 0 then insertKey (keyOf child) state.2 else state.2)

/-- The loop of the sort: place the least ready id and release its children. -/
def placeReady (children : String → List String) (keyOf : String → MergeKey) :
    Nat → (String → Nat) → List MergeKey → List String → List String × List MergeKey
  | 0, _, ready, ordered => (ordered, ready)
  | _, _, [], ordered => (ordered, [])
  | fuel + 1, degrees, key :: ready, ordered =>
    let (degrees, ready) := (children key.id).foldl (release keyOf) (degrees, ready)
    placeReady children keyOf fuel degrees ready (ordered ++ [key.id])

/-- The keys of the ids that wait for nothing. -/
def CausalMerger.initialReady (m : CausalMerger) : List MergeKey :=
  ((m.ids.filter fun id => (m.before id).isEmpty).map (keyOf m.events)).dedup.insertionSort (· ≤ ·)

/-- The sort places an id at most once, so as many turns as there are ids are enough. -/
def CausalMerger.placed (m : CausalMerger) : List String × List MergeKey :=
  placeReady m.children (keyOf m.events) m.events.length (fun id => (m.before id).length)
    m.initialReady []

def CausalMerger.topologicalOrder (m : CausalMerger) : Except ReplayError (List String) := do
  require (∀ s ∈ m.events, 0 < s.sequence →
    (m.slots.lookup (producerKey s, s.sequence - 1)).isSome = true) .sequenceGap
  let ordered := m.placed.1
  require (ordered.length = m.events.length)
    (.cycle (sortDistinct (m.ids.filter (· ∉ ordered))))
  require (∀ s ∈ m.events, ∀ parent ∈ s.parentId?.bind (lookupEvent m.events),
    clockLt parent s = true) .clockCausalityViolation
  .ok ordered

/-! ### Records -/

section Digest

variable [ContentDigest]

def mergedRecord (s : CausalSourceEvent) (sequence : Nat) : Json :=
  .obj [("causal", sourceEventValue s), ("mergeSequence", decimal sequence),
    ("recordType", .str "event")]

def missingRecord (runId id : String) (children : List String) : Json :=
  .obj [("children", .arr (children.map .str)), ("expectedEventId", .str id),
    ("recordId", .str (hash "missing-parent" [utf8 runId, utf8 id])),
    ("recordType", .str "missingParent")]

def missingClaimsValue (records : List (String × List String)) : Json :=
  .arr (records.map fun record =>
    .obj [("children", .arr (record.2.map .str)), ("expectedEventId", .str record.1)])

def producerHeads (events : List CausalSourceEvent) : Except ReplayError (List Json) :=
  (producerGroups events).mapM fun group => do
    let head ← expect group.2.getLast? .malformed
    .ok (.obj [("eventCount", decimal group.2.length), ("headHash", .str head.producerHash),
      ("producerId", .str (ofLex (ofLex group.1).2).1),
      ("producerInstanceId", .str (ofLex (ofLex group.1).2).2),
      ("producerKind", .str (ofLex group.1).1)])

/-- The lines of a bundle and their text. -/
structure Output where
  lines : List String
  merged : String

def appendBoundedLine (limits : MergeLimits) (output : Output) (line : String) :
    Except ReplayError Output := do
  require (line.utf8ByteSize ≤ limits.maxLineBytes ∧
    line.utf8ByteSize + 1 ≤ limits.maxOutputBytes - output.merged.utf8ByteSize) .capacityExhausted
  .ok { lines := output.lines ++ [line], merged := output.merged ++ line ++ "\n" }

/-- One level of the tree over the lines. -/
def merkleLevel : List Bytes → List Bytes
  | a :: b :: rest => hashRaw "merkle-node" [a, b] :: merkleLevel rest
  | rest => rest

theorem merkleLevel_length (a b : Bytes) (rest : List Bytes) :
    (merkleLevel (a :: b :: rest)).length < (a :: b :: rest).length := by
  have hle : ∀ level : List Bytes, (merkleLevel level).length ≤ level.length := by
    intro level
    fun_induction merkleLevel level with
    | case1 a b rest ih =>
      simp only [List.length_cons]
      omega
    | case2 rest hshort => exact le_rfl
  have hrest := hle rest
  rw [merkleLevel]
  simp only [List.length_cons]
  omega

/-- Levels up to the root. -/
def merkleTop : List Bytes → Option Bytes
  | [] => none
  | [root] => some root
  | a :: b :: rest => merkleTop (merkleLevel (a :: b :: rest))
termination_by level => level.length
decreasing_by exact merkleLevel_length a b rest

def merkleRoot (lines : List String) : Except ReplayError String := do
  let root ← expect (merkleTop (lines.map fun line => hashRaw "merkle-leaf" [utf8 line])) .malformed
  .ok (formatDigest root)

def projectionValue (p : ProjectionReceipt) : Json :=
  .obj [("inputDigest", .str p.inputDigest), ("outputByteLength", decimal p.outputByteLength),
    ("outputDigest", .str p.outputDigest), ("projectorId", .str p.projectorId),
    ("projectorVersion", .str p.projectorVersion)]

/-- The fields of a receipt, without its own digest. -/
def receiptFields (r : ReplayReceipt) : List (String × Json) :=
  [("decisionMode", .str r.decisionMode), ("inputJsonlDigest", .str r.inputJsonlDigest),
    ("merkleRoot", .str r.merkleRoot), ("normalizedOutputDigest", .str r.normalizedOutputDigest),
    ("projections", .arr (r.projections.map projectionValue)),
    ("recordedDecisionSetDigest", .str r.recordedDecisionSetDigest),
    ("replayedEventCount", decimal r.replayedEventCount), ("runId", .str r.runId),
    ("runSeal", .str r.runSeal), ("schemaVersion", .str r.schemaVersion)]

def receiptDigestOf (r : ReplayReceipt) : Except ReplayError String := do
  let text ← canonical (.obj (receiptFields r))
  .ok (hash "replay-receipt" [utf8 text])

/-- The decision an event records, as the decision set lists it. -/
def decisionRef (s : CausalSourceEvent) : Except ReplayError (Option Json) := do
  match s.recordedDecision with
  | none => .ok none
  | some decision =>
    let text ← canonical decision
    .ok (some (.obj [("decisionDigest", .str (hash "recorded-decision" [utf8 text])),
      ("eventId", .str s.id)]))

/-- The lines of the missing parents. -/
def appendMissing (runId : String) (limits : MergeLimits) (records : List (String × List String)) :
    Except ReplayError Output :=
  records.foldlM (fun output record => do
    let line ← canonical (missingRecord runId record.1 record.2)
    appendBoundedLine limits output line) ⟨[], ""⟩

/-- The lines of the events in merge order, and the decisions they record. -/
def appendEvents (lookup : String → Option CausalSourceEvent) (limits : MergeLimits) :
    List String → Nat → Output × List Json → Except ReplayError (Output × List Json)
  | [], _, result => .ok result
  | id :: rest, mergeSequence, (output, refs) => do
      let s ← expect (lookup id) .malformed
      let ref ← decisionRef s
      let line ← canonical (mergedRecord s mergeSequence)
      let output ← appendBoundedLine limits output line
      appendEvents lookup limits rest (mergeSequence + 1) (output, refs ++ ref.toList)

def sealClaims (runId : String) (input : ReplaySealInput) (projections : List ProjectionReceipt)
    (missing : List (String × List String)) (ordered lines : List String)
    (mergedDigest merkle decisionDigest : String) (heads : List Json) : Json :=
  .obj [("artifactManifestDigest", .str input.artifactManifestDigest),
    ("canonicalization", .str canonicalization), ("eventCount", decimal ordered.length),
    ("hashFraming", .str "SMESH-A2A-length-prefixed-v1"),
    ("mergedJsonlDigest", .str mergedDigest), ("merkleRoot", .str merkle),
    ("missingParents", missingClaimsValue missing), ("producerHeads", .arr heads),
    ("projections", .arr (projections.map projectionValue)),
    ("recordCount", decimal lines.length), ("recordedDecisionSetDigest", .str decisionDigest),
    ("runId", .str runId), ("schemaVersion", .str fullMatrixReplaySchemaVersion)]

def CausalMerger.finalize (m : CausalMerger) (input : ReplaySealInput) :
    Except ReplayError SealedReplay := do
  require (m.events ≠ []) .malformed
  validateDigest input.artifactManifestDigest
  let projections ← validateProjections input.projections
  validateProducers m.events
  let unresolved := unresolvedMap m.events
  require (unresolved = [] ∨ m.missingPolicy ≠ .reject) (.missingParents (unresolved.map Prod.fst))
  let ordered ← m.topologicalOrder
  let output ← appendMissing m.runId m.limits unresolved
  let (output, decisionRefs) ← appendEvents (lookupEvent m.events) m.limits ordered 0 (output, [])
  let mergedDigest := hash "merged-jsonl" [utf8 output.merged]
  require (∀ p ∈ projections, p.inputDigest = mergedDigest) .projectionMismatch
  let merkle ← merkleRoot output.lines
  let decisionBytes ← canonical (.arr decisionRefs)
  let decisionDigest := hash "decision-set" [utf8 decisionBytes]
  let heads ← producerHeads m.events
  let claims := sealClaims m.runId input projections unresolved ordered output.lines mergedDigest
    merkle decisionDigest heads
  let claimsBytes ← canonical claims
  let runSeal := hash "run-seal" [utf8 claimsBytes]
  let terminal ← canonical (.obj [("claims", claims), ("recordType", .str "seal"),
    ("sealDigest", .str runSeal)])
  require (terminal.utf8ByteSize ≤ m.limits.maxLineBytes ∧
    terminal.utf8ByteSize + 1 ≤ m.limits.maxOutputBytes - output.merged.utf8ByteSize)
    .capacityExhausted
  let bundle := output.merged ++ terminal ++ "\n"
  let receipt : ReplayReceipt :=
    { schemaVersion := replayReceiptSchemaVersion, runId := m.runId, runSeal,
      inputJsonlDigest := mergedDigest, merkleRoot := merkle,
      replayedEventCount := ordered.length, decisionMode := "recordedOnly",
      recordedDecisionSetDigest := decisionDigest, projections,
      normalizedOutputDigest := hash "replay-output" [utf8 bundle], receiptDigest := "" }
  let receiptDigest ← receiptDigestOf receipt
  let receipt := { receipt with receiptDigest }
  let receiptJson ← canonical (.obj (receiptFields receipt ++ [("receiptDigest", .str receiptDigest)]))
  .ok { bundleJsonl := bundle, receipt, receiptJson }

variable [JsonReader]

def ingestAll (m : CausalMerger) (sources : List Bytes) : Except ReplayError CausalMerger :=
  sources.foldlM (fun m source => do
    let (_, m) ← m.ingestSourceJsonl source
    .ok m) m

/-- An order in which a hash map of events may be iterated. -/
structure IterationOrder where
  iterate : List CausalSourceEvent → List CausalSourceEvent
  iterate_perm : ∀ events, (iterate events).Perm events

def mergeAndSealJsonl (order : IterationOrder) (runId : String) (sources : List Bytes)
    (limits : MergeLimits) (policy : MissingParentPolicy) (input : ReplaySealInput) :
    Except ReplayError SealedReplay := do
  let m ← CausalMerger.new runId limits policy
  let m ← ingestAll m sources
  { m with events := order.iterate m.events }.finalize input

end Digest

end SmeshDurable.Replay
