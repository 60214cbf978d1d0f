import SmeshDurable.Replay.Wire

/-!
# Envelopes of captured events

The capture writes one line for each event and a line that completes the envelope, which is
what the merger reads.
-/

namespace SmeshDurable.Replay

open CanonicalJson Transaction TextLines

def captureLine (runId : String) (s : CausalSourceEvent) : Json :=
  .obj [("event", sourceEventValue s), ("recordType", .str "causalEvent"), ("runId", .str runId),
    ("schemaVersion", .str causalSourceSchemaVersion)]

def completeLine (runId : String) (eventCount : Nat) : Json :=
  .obj [("eventCount", decimal eventCount), ("recordType", .str "complete"), ("runId", .str runId),
    ("schemaVersion", .str causalSourceSchemaVersion)]

section Digest

variable [ContentDigest]

/-- The loop over the events, with the text written so far. -/
def captureEvents (runId : String) : List CausalSourceEvent → String → Except ReplayError String
  | [], out => .ok out
  | s :: rest, out => do
      validateSourceEvent s runId
      let line ← canonical (captureLine runId s)
      require (line.utf8ByteSize ≤ maxLine ∧
        line.utf8ByteSize + 1 ≤ maxBytes - out.utf8ByteSize) .capacityExhausted
      captureEvents runId rest (out ++ line ++ "\n")

def captureCausalSourceJsonl (runId : String) (events : List CausalSourceEvent) :
    Except ReplayError String := do
  require (validIdentifier runId = true ∧ events ≠ [] ∧ events.length ≤ maxEvents) .malformed
  let out ← captureEvents runId events ""
  let terminal ← canonical (completeLine runId events.length)
  require (terminal.utf8ByteSize + 1 ≤ maxBytes - out.utf8ByteSize) .capacityExhausted
  .ok (out ++ terminal ++ "\n")

end Digest

/-! ## The shape of an envelope -/

theorem sortedKeys_captureLine {runId : String} {s : CausalSourceEvent} (h : WellTyped s) :
    SortedKeys (captureLine runId s) := by
  apply sortedKeys_obj
  · show ["event", "recordType", "runId", "schemaVersion"].Pairwise (· < ·)
    decide
  · have hevent := sortedKeys_sourceEventValue h
    simp [sortedKeys_str, hevent]

theorem sortedKeys_completeLine (runId : String) (eventCount : Nat) :
    SortedKeys (completeLine runId eventCount) := by
  apply sortedKeys_obj
  · show ["eventCount", "recordType", "runId", "schemaVersion"].Pairwise (· < ·)
    decide
  · simp [sortedKeys_str, sortedKeys_decimal]

/-- The line that completes an envelope is short, as its run id is. -/
theorem completeLine_size {runId : String} {eventCount : Nat} (hrun : validIdentifier runId = true)
    (hcount : eventCount ≤ maxEvents) : (completeLine runId eventCount).size ≤ maxLine := by
  have hid : runId.utf8ByteSize ≤ 256 := by
    simp only [validIdentifier, Bool.and_eq_true, decide_eq_true_eq] at hrun
    exact hrun.1.2
  have hkeys : Json.quotedSize "eventCount" = 12 ∧ Json.quotedSize "recordType" = 12 ∧
      Json.quotedSize "complete" = 10 ∧ Json.quotedSize "runId" = 7 ∧
      Json.quotedSize "schemaVersion" = 15 ∧ Json.quotedSize causalSourceSchemaVersion = 29 := by
    decide
  have hrunId := quotedSize_le runId
  have hdigits : eventCount.repr.utf8ByteSize ≤ 6 :=
    repr_size (by decide) (lt_of_le_of_lt hcount (by decide))
  have hquoted := quotedSize_le eventCount.repr
  simp only [completeLine, Json.size_obj, List.map_cons, List.map_nil, List.sum_cons, List.sum_nil,
    List.length_cons, List.length_nil, Json.fieldSize, decimal, Json.size_str, maxLine, hkeys]
  omega

section Digest

variable [ContentDigest]

/-- The line a capture writes for an event it has checked. -/
def CapturedAs (runId : String) (s : CausalSourceEvent) (line : String) : Prop :=
  validateSourceEvent s runId = .ok () ∧ canonical (captureLine runId s) = .ok line ∧
    line.utf8ByteSize ≤ maxLine

theorem captureEvents_eq_ok {runId : String} {events : List CausalSourceEvent} {out out' : String}
    (h : captureEvents runId events out = .ok out') :
    ∃ lines, out' = out ++ joined lines ∧ List.Forall₂ (CapturedAs runId) events lines := by
  induction events generalizing out with
  | nil =>
    cases h
    exact ⟨[], by simp [joined], .nil⟩
  | cons s rest ih =>
    simp only [captureEvents, bind_eq_ok, require_eq_ok] at h
    obtain ⟨_, hvalid, line, hline, _, ⟨hsize, -⟩, hrest⟩ := h
    obtain ⟨lines, rfl, hlines⟩ := ih hrest
    refine ⟨line :: lines, ?_, .cons ⟨hvalid, hline, hsize⟩ hlines⟩
    rw [joined, String.append_assoc, String.append_assoc, String.append_assoc]

/-- An envelope is the lines of its events and the line that completes it. -/
theorem captureCausalSourceJsonl_eq_ok {runId : String} {events : List CausalSourceEvent}
    {text : String} (h : captureCausalSourceJsonl runId events = .ok text) :
    ∃ lines terminal, text = joined (lines ++ [terminal]) ∧
      List.Forall₂ (CapturedAs runId) events lines ∧
      canonical (completeLine runId events.length) = .ok terminal ∧
      validIdentifier runId = true ∧ events ≠ [] ∧ events.length ≤ maxEvents := by
  simp only [captureCausalSourceJsonl, bind_eq_ok, require_eq_ok, Except.ok.injEq] at h
  obtain ⟨-, hguard, out, hout, terminal, hterminal, -, -, rfl⟩ := h
  obtain ⟨lines, rfl, hlines⟩ := captureEvents_eq_ok hout
  refine ⟨lines, terminal, ?_, hlines, hterminal, hguard⟩
  rw [joined_concat, String.empty_append]

/-! ## Reading an envelope -/

/-- The lines of an envelope are those the capture wrote. -/
theorem strictLines_captured {runId : String} {events : List CausalSourceEvent} {lines : List String}
    {terminal : String} (hlines : List.Forall₂ (CapturedAs runId) events lines)
    (hterminal : canonical (completeLine runId events.length) = .ok terminal)
    (hrun : validIdentifier runId = true) (hcount : events.length ≤ maxEvents) :
    strictLines (utf8 (joined (lines ++ [terminal]))) maxLine (maxEvents + 1) =
      .ok ((lines ++ [terminal]).map utf8) := by
  apply strictLines_joined (by simp)
  · have hlength := hlines.length_eq
    simp only [List.length_append, List.length_singleton]
    omega
  · intro line hline
    rcases List.mem_append.mp hline with hmem | hmem
    · obtain ⟨s, -, -, hs, hsize⟩ := exists_of_forall₂ hlines hmem
      exact ⟨⟨_, hs⟩, hsize⟩
    · obtain rfl := List.mem_singleton.mp hmem
      refine ⟨⟨_, hterminal⟩, ?_⟩
      rw [canonical_size hterminal]
      exact completeLine_size hrun hcount

variable [CanonicalReader]

/-- A captured line is read as its event is parsed. -/
theorem readEventLine_captured {runId line : String} {s t : CausalSourceEvent} (htyped : WellTyped s)
    (h : canonical (captureLine runId s) = .ok line) :
    readEventLine runId (utf8 line) = .ok t ↔ parseSourceEvent (sourceEventValue s) = .ok t := by
  have hread := readLine_canonical (sortedKeys_captureLine htyped) h
  simp [readEventLine, readHeader, hread, captureLine, asObject, stringAt, asString, get?, exactKeys]

omit [ContentDigest] in
theorem readCompleteLine_captured {runId line : String} {eventCount : Nat}
    (hcount : eventCount ≤ maxEvents) (h : canonical (completeLine runId eventCount) = .ok line) :
    readCompleteLine runId eventCount (utf8 line) = .ok () := by
  have hread := readLine_canonical (sortedKeys_completeLine runId eventCount) h
  have hdecimal : decimalValue (some (decimal eventCount)) = .ok eventCount :=
    decimalValue_decimal (lt_of_le_of_lt hcount (by decide))
  simp [readCompleteLine, readHeader, hread, completeLine, asObject, stringAt, asString, get?,
    exactKeys, hdecimal]

/-- An envelope is read as the events that its events are parsed as. -/
theorem parseSource_captured {runId : String} {events read : List CausalSourceEvent} {text : String}
    (htyped : ∀ s ∈ events, WellTyped s) (h : captureCausalSourceJsonl runId events = .ok text) :
    parseSource (utf8 text) runId maxLine maxEvents = .ok read ↔
      List.Forall₂ (fun s t => parseSourceEvent (sourceEventValue s) = .ok t) events read := by
  obtain ⟨lines, terminal, rfl, hlines, hterminal, hrun, hnonempty, hcount⟩ :=
    captureCausalSourceJsonl_eq_ok h
  have hsplit := strictLines_captured hlines hterminal hrun hcount
  have hlength := hlines.length_eq
  have hpos : 0 < events.length := List.length_pos_iff.mpr hnonempty
  have hread : (lines.map utf8).mapM (readEventLine runId) = .ok read ↔
      List.Forall₂ (fun s t => parseSourceEvent (sourceEventValue s) = .ok t) events read := by
    rw [mapM_eq_ok, List.forall₂_map_left_iff]
    clear hsplit hlength hpos hterminal hnonempty hcount h
    induction hlines generalizing read with
    | nil => rw [List.forall₂_nil_left_iff, List.forall₂_nil_left_iff]
    | @cons s line rest lines hline _ ih =>
      have hs := htyped s List.mem_cons_self
      rw [List.forall₂_cons_left_iff, List.forall₂_cons_left_iff]
      simp only [readEventLine_captured hs hline.2.1,
        ih fun t ht => htyped t (List.mem_cons_of_mem s ht)]
  have hdrop : ((lines ++ [terminal]).map utf8).dropLast = lines.map utf8 := by
    rw [List.map_append, List.map_singleton, List.dropLast_concat]
  have hlast : ((lines ++ [terminal]).map utf8).getLast? = some (utf8 terminal) := by
    rw [List.map_append, List.map_singleton, List.getLast?_concat]
  simp only [parseSource, hsplit, hdrop, hlast, bind_eq_ok, require_eq_ok, expect_eq_ok,
    Except.ok.injEq, exists_eq_left', List.length_map, List.length_append, List.length_singleton]
  constructor
  · rintro ⟨-, -, read', hread', -, -, -, -, rfl⟩
    exact hread.mp hread'
  · intro hforall
    have hcomplete := readCompleteLine_captured hcount hterminal
    rw [hforall.length_eq] at hcomplete
    exact ⟨(), by omega, read, hread.mpr hforall, _, rfl, (), hcomplete, rfl⟩

theorem portable_of_read_back {runId : String} {events : List CausalSourceEvent} {text : String}
    (htyped : ∀ s ∈ events, WellTyped s) (h : captureCausalSourceJsonl runId events = .ok text)
    (hread : parseSource (utf8 text) runId maxLine maxEvents = .ok events) :
    ∀ s ∈ events, Portable s := by
  rw [parseSource_captured htyped h, List.forall₂_same] at hread
  intro s hs
  exact (parseSourceEvent_spec (sortedKeys_sourceEventValue (htyped s hs)) (hread s hs)).2

/-- Portable events are read back as they were captured. -/
theorem parseSource_of_portable {runId : String} {events : List CausalSourceEvent} {text : String}
    (htyped : ∀ s ∈ events, WellTyped s) (h : captureCausalSourceJsonl runId events = .ok text)
    (hportable : ∀ s ∈ events, Portable s) :
    parseSource (utf8 text) runId maxLine maxEvents = .ok events := by
  obtain ⟨lines, terminal, -, hlines, -⟩ := captureCausalSourceJsonl_eq_ok h
  rw [parseSource_captured htyped h, List.forall₂_same]
  intro s hs
  obtain ⟨line, -, hvalid, -⟩ := exists_of_forall₂ hlines.flip hs
  simp only [validateSourceEvent, bind_eq_ok] at hvalid
  obtain ⟨_, hevent, -⟩ := hvalid
  exact parseSourceEvent_sourceEventValue (htyped s hs) (hportable s hs) (validateEvent_none hevent)

/-- A merger reads from an envelope the events that were captured, exactly if each of them is
portable. -/
theorem capture_read_back_iff (runId : String) (events : List CausalSourceEvent) (text : String)
    (htyped : ∀ s ∈ events, WellTyped s) (h : captureCausalSourceJsonl runId events = .ok text) :
    parseSource (utf8 text) runId maxLine maxEvents = .ok events ↔ ∀ s ∈ events, Portable s :=
  ⟨portable_of_read_back htyped h, parseSource_of_portable htyped h⟩

end Digest

/-! ## Two events that are not read back -/

section Sample

attribute [local instance] checksumDigest

theorem isHexDigit_hexDigit {n : Nat} (h : n < 16) : isHexDigit (Checksum.hexDigit n) = true := by
  have hall : ∀ n ∈ List.range 16, isHexDigit (Checksum.hexDigit n) = true := by decide
  exact hall n (List.mem_range.mpr h)

/-- A checksum is written as a digest is. -/
theorem validateDigest_checksum (bytes : Bytes) : validateDigest (contentDigest bytes) = .ok () := by
  have htext : (contentDigest bytes).toList = "sha256:".toList ++ Checksum.digits bytes := by
    show ("sha256:" ++ String.ofList (Checksum.digits bytes)).toList = _
    rw [String.toList_append]
    congr 1
    exact String.toList_ofList
  have hlength : "sha256:".toList.length = 7 := by decide
  have hdigits : (Checksum.digits bytes).length = 64 := by simp [Checksum.digits]
  have hhex : (Checksum.digits bytes).all isHexDigit = true := by
    rw [List.all_eq_true]
    intro c hc
    rcases List.mem_append.mp hc with hzero | hdigit
    · rw [List.eq_of_mem_replicate hzero]
      decide
    · obtain ⟨i, -, rfl⟩ := List.mem_map.mp hdigit
      exact isHexDigit_hexDigit (Nat.mod_lt _ (by decide))
  simp only [validateDigest, decodeDigest, bind_eq_ok, require_eq_ok, htext]
  refine ⟨_, ⟨(), List.take_left' hlength, (), ?_, rfl⟩, trivial⟩
  rw [List.drop_left' hlength]
  exact ⟨hdigits, hhex⟩

/-- A call of a tool with nothing before it. -/
def sampleCall (producer : String) : CaptureEvent :=
  let event : CaptureEvent :=
    { eventId := "", sequence := 0, producer := ⟨⟨.tool, producer, "one"⟩, 0⟩, kind := .toolCall,
      interactionId := "call", peerId := "peer", taskId := none, contextId := none,
      subjectId := none, parent := .root, content := ⟨contentDigest [], 0⟩ }
  { event with eventId := captureEventId "run" event }

def sampleSource (producer : String) (decision : Option Json) : CausalSourceEvent :=
  let source : CausalSourceEvent :=
    { event := sampleCall producer, hlc := ⟨1, 0⟩, lamport := 1, recordedDecision := decision,
      producerPrevious := none, producerHash := "" }
  match computeProducerHash source with
  | .ok producerHash => { source with producerHash }
  | .error _ => source

theorem sampleCall_size {producer : String} (h : producer.utf8ByteSize ≤ 16) :
    (eventValue (sampleCall producer)).size ≤ 2000 := by
  have hkeys : Json.quotedSize "content" = 9 ∧ Json.quotedSize "byteLength" = 12 ∧
      Json.quotedSize "digest" = 8 ∧ Json.quotedSize "contextId" = 11 ∧
      Json.quotedSize "eventId" = 9 ∧ Json.quotedSize "interactionId" = 15 ∧
      Json.quotedSize "kind" = 6 ∧ Json.quotedSize "parent" = 8 ∧ Json.quotedSize "peerId" = 8 ∧
      Json.quotedSize "producer" = 10 ∧ Json.quotedSize "id" = 4 ∧
      Json.quotedSize "instanceId" = 12 ∧ Json.quotedSize "sourceSequence" = 16 ∧
      Json.quotedSize "subjectId" = 11 ∧ Json.quotedSize "taskId" = 8 ∧
      Json.quotedSize "root" = 6 ∧ Json.quotedSize "call" = 6 ∧ Json.quotedSize "peer" = 6 ∧
      Json.quotedSize "one" = 5 ∧ Json.quotedSize "tool" = 6 ∧ Json.quotedSize "toolCall" = 10 ∧
      Json.quotedSize (Nat.repr 0) = 3 := by
    decide
  have hid := quotedSize_le (sampleCall producer).eventId
  have hidSize : (sampleCall producer).eventId.utf8ByteSize = 71 := textDigest_size _
  have hcontent := quotedSize_le (contentDigest [])
  have hcontentSize := contentDigest_size []
  have hproducer := quotedSize_le producer
  simp only [eventValue, sampleCall, parentValue, optionString, captureKindName, kindName, decimal,
    Json.size_obj, Json.size_str, Json.size_null, Json.fieldSize, List.map_cons, List.map_nil,
    List.sum_cons, List.sum_nil, List.length_cons, List.length_nil, hkeys] at hid hidSize ⊢
  omega

theorem numberFree_sampleCall (producer : String) : NumberFree (eventValue (sampleCall producer)) := by
  simp [eventValue, sampleCall, parentValue, optionString, decimal]

theorem height_sampleCall (producer : String) : height (eventValue (sampleCall producer)) = 2 := by
  simp [eventValue, sampleCall, parentValue, optionString, decimal, height, fieldsHeight]

theorem needs_writeField (label : String) {v : Json} (hfree : NumberFree v)
    (hheight : 1 + height v ≤ maxCanonicalDepth) :
    Needs maxLine (writeField label v) (label.utf8ByteSize + v.size) :=
  (needs_extend label).bind (needs_write hfree hheight)

/-- What the producer hash of the event covers is written. -/
theorem sampleSource_core {producer : String} (h : producer.utf8ByteSize ≤ 16)
    {s : CausalSourceEvent} (hevent : s.event = sampleCall producer) (hhlc : s.hlc = ⟨1, 0⟩)
    (hlamport : s.lamport = 1) (hdecision : decisionValue s = .null) :
    ∃ core, sourceCore s = .ok core := by
  have hclock : NumberFree (hlcValue ⟨1, 0⟩) := by simp [hlcValue, decimal]
  have hone : NumberFree (decimal 1) := numberFree_str _
  have hdepth := height_sampleCall producer
  have hsize := sampleCall_size h
  have hsmall : (hlcValue ⟨1, 0⟩).size = 32 ∧ (decimal 1).size = 3 := by decide
  have hlabels : ("\x7b\"event\":").utf8ByteSize = 9 ∧ (",\"hlc\":").utf8ByteSize = 7 ∧
      (",\"lamport\":").utf8ByteSize = 11 ∧ (",\"recordedDecision\":").utf8ByteSize = 20 ∧
      ("\x7d").utf8ByteSize = 1 := by decide
  have hempty : ("" : String).utf8ByteSize = 0 := rfl
  have hevents := needs_writeField "\x7b\"event\":" (numberFree_sampleCall producer)
    (by rw [hdepth]; decide)
  have hwriter := hevents.bind ((needs_writeField ",\"hlc\":" hclock (by decide)).bind
    ((needs_writeField ",\"lamport\":" hone (by decide)).bind
      ((needs_writeField ",\"recordedDecision\":" numberFree_null (by decide)).bind (needs_extend "\x7d"))))
  obtain ⟨core, hcore, -⟩ := hwriter "" (by
    rw [hempty, hlabels.1, hlabels.2.1, hlabels.2.2.1, hlabels.2.2.2.1, hlabels.2.2.2.2, hsmall.1,
      hsmall.2, Json.size_null]
    unfold maxLine
    omega)
  refine ⟨core, ?_⟩
  rw [sourceCore, reported_eq_ok, hevent, hhlc, hlamport, hdecision]
  exact hcore

theorem sampleSource_eq {producer : String} {decision : Option Json}
    (h : producer.utf8ByteSize ≤ 16) (hdecision : decision.getD .null = .null) :
    ∃ bytes, sampleSource producer decision =
        { event := sampleCall producer, hlc := ⟨1, 0⟩, lamport := 1, recordedDecision := decision,
          producerPrevious := none, producerHash := contentDigest bytes } ∧
      computeProducerHash (sampleSource producer decision) = .ok (contentDigest bytes) := by
  obtain ⟨core, hcore⟩ := sampleSource_core (s := ⟨sampleCall producer, ⟨1, 0⟩, 1, decision, none, ""⟩)
    h rfl rfl rfl hdecision
  obtain ⟨bytes, hbytes⟩ : ∃ bytes,
      hash "producer-chain" [List.replicate 32 0, utf8 core] = contentDigest bytes := ⟨_, rfl⟩
  have hhash : computeProducerHash ⟨sampleCall producer, ⟨1, 0⟩, 1, decision, none, ""⟩ =
      .ok (contentDigest bytes) := by
    rw [← hbytes]
    simp [computeProducerHash, hcore]
  have hsource : sampleSource producer decision =
      ⟨sampleCall producer, ⟨1, 0⟩, 1, decision, none, contentDigest bytes⟩ := by
    unfold sampleSource
    simp only [hhash]
  refine ⟨bytes, hsource, ?_⟩
  rw [hsource]
  exact hhash

theorem validateEvent_sampleCall {producer : String} (h : validIdentifier producer = true) :
    validateEvent (sampleCall producer) (some "run") = .ok () := by
  have hnames : validIdentifier "call" = true ∧ validIdentifier "peer" = true ∧
      validIdentifier "one" = true := by decide
  simp only [validateEvent, bind_eq_ok, require_eq_ok]
  refine ⟨(), validateDigest_checksum _, (), validateDigest_checksum _, (),
    ⟨hnames.1, hnames.2.1, h, hnames.2.2, rfl, rfl, rfl⟩, (), rfl, (), rfl, ?_⟩
  rintro run ⟨⟩
  rfl

section Line

variable {producer : String} {decision : Option Json} {bytes : Bytes}

/-- The event with its producer hash in place. -/
def sampleHashed (producer : String) (decision : Option Json) (bytes : Bytes) : CausalSourceEvent :=
  ⟨sampleCall producer, ⟨1, 0⟩, 1, decision, none, contentDigest bytes⟩

theorem sampleHashed_size (h : producer.utf8ByteSize ≤ 16) (hdecision : decision.getD .null = .null) :
    (captureLine "run" (sampleHashed producer decision bytes)).size ≤ 3000 := by
  have hkeys : Json.quotedSize "event" = 7 ∧ Json.quotedSize "recordType" = 12 ∧
      Json.quotedSize "causalEvent" = 13 ∧ Json.quotedSize "runId" = 7 ∧
      Json.quotedSize "run" = 5 ∧ Json.quotedSize "schemaVersion" = 15 ∧
      Json.quotedSize causalSourceSchemaVersion = 29 ∧ Json.quotedSize "hlc" = 5 ∧
      Json.quotedSize "lamport" = 9 ∧ Json.quotedSize "producerHash" = 14 ∧
      Json.quotedSize "producerPrevious" = 18 ∧ Json.quotedSize "recordedDecision" = 18 ∧
      (hlcValue ⟨1, 0⟩).size = 32 ∧ (decimal 1).size = 3 := by
    decide
  have hcall := sampleCall_size h
  have hdigest := quotedSize_le (contentDigest bytes)
  have hdigestSize := contentDigest_size bytes
  simp only [captureLine, sampleHashed, sourceEventValue, decisionValue, hdecision, optionString,
    Json.size_obj, Json.size_str, Json.size_null, Json.fieldSize, List.map_cons, List.map_nil,
    List.sum_cons, List.sum_nil, List.length_cons, List.length_nil, hkeys]
  omega

theorem numberFree_sampleHashed (hdecision : decision.getD .null = .null) :
    NumberFree (captureLine "run" (sampleHashed producer decision bytes)) := by
  have hcall := numberFree_sampleCall producer
  simp [captureLine, sampleHashed, sourceEventValue, decisionValue, hdecision, optionString, hlcValue,
    decimal, hcall]

theorem height_sampleHashed (hdecision : decision.getD .null = .null) :
    height (captureLine "run" (sampleHashed producer decision bytes)) ≤ maxCanonicalDepth := by
  simp [captureLine, sampleHashed, sourceEventValue, decisionValue, hdecision, optionString, hlcValue,
    decimal, height, fieldsHeight, height_sampleCall, maxCanonicalDepth]

theorem validateSourceEvent_sampleHashed (hproducer : validIdentifier producer = true)
    (hdecision : decision = none ∨ decision = some .null)
    (hhash : computeProducerHash (sampleHashed producer decision bytes) = .ok (contentDigest bytes)) :
    validateSourceEvent (sampleHashed producer decision bytes) "run" = .ok () := by
  have hdecided : validateDecision (sampleHashed producer decision bytes) = .ok () := by
    rcases hdecision with rfl | rfl <;> rfl
  have hchain : (sampleHashed producer decision bytes).event.producer.sequence = 0 ↔
      (sampleHashed producer decision bytes).producerPrevious = none :=
    ⟨fun _ => rfl, fun _ => rfl⟩
  simp only [validateSourceEvent, bind_eq_ok, require_eq_ok, hhash]
  exact ⟨(), validateEvent_sampleCall hproducer, (), hdecided, (), validateDigest_checksum _, (),
    rfl, (), hchain, _, rfl, rfl⟩

end Line

theorem exists_completeLine : ∃ terminal, canonical (completeLine "run" 1) = .ok terminal := by
  have hsize : (completeLine "run" 1).size ≤ maxLine := completeLine_size (by decide) (by decide)
  have hfree : NumberFree (completeLine "run" 1) := by simp [completeLine, decimal]
  exact exists_canonical hfree (hsize.trans (by decide)) (by decide)

/-- The capture takes the event. -/
theorem sampleSource_captured {producer : String} {decision : Option Json}
    (hproducer : validIdentifier producer = true) (h : producer.utf8ByteSize ≤ 16)
    (hdecision : decision = none ∨ decision = some .null) :
    ∃ text, captureCausalSourceJsonl "run" [sampleSource producer decision] = .ok text := by
  have hvalue : decision.getD .null = .null := by
    rcases hdecision with rfl | rfl <;> rfl
  obtain ⟨bytes, hsource, hhash⟩ := sampleSource_eq h hvalue
  have hsource : sampleSource producer decision = sampleHashed producer decision bytes := hsource
  rw [hsource] at hhash ⊢
  have hsize : (captureLine "run" (sampleHashed producer decision bytes)).size ≤ 3000 :=
    sampleHashed_size h hvalue
  obtain ⟨line, hline⟩ := exists_canonical (numberFree_sampleHashed hvalue)
    (hsize.trans (by decide)) (height_sampleHashed hvalue)
  obtain ⟨terminal, hterminal⟩ := exists_completeLine
  have hlineSize := canonical_size hline
  have hterminalSize := canonical_size hterminal
  have hcomplete : (completeLine "run" 1).size ≤ maxLine :=
    completeLine_size (by decide) (by decide)
  have hempty : ("" : String).utf8ByteSize = 0 := rfl
  have hfeed : ("\n" : String).utf8ByteSize = 1 := by decide
  refine ⟨"" ++ line ++ "\n" ++ terminal ++ "\n", ?_⟩
  simp only [captureCausalSourceJsonl, captureEvents, bind_eq_ok, require_eq_ok]
  refine ⟨(), ⟨by decide, by simp, by simp [maxEvents]⟩, _, ⟨(),
    validateSourceEvent_sampleHashed hproducer hdecision hhash, line, hline, (), ?_, rfl⟩, terminal,
    hterminal, (), ?_, rfl⟩
  · rw [hempty]
    unfold maxLine maxBytes
    omega
  · rw [String.utf8ByteSize_append, String.utf8ByteSize_append, hempty, hfeed]
    unfold maxLine at hcomplete
    unfold maxBytes
    omega

theorem wellTyped_sampleSource {producer : String} {decision : Option Json}
    (h : producer.utf8ByteSize ≤ 16) (hdecision : decision = none ∨ decision = some .null) :
    WellTyped (sampleSource producer decision) := by
  have hvalue : decision.getD .null = .null := by
    rcases hdecision with rfl | rfl <;> rfl
  obtain ⟨bytes, hsource, -⟩ := sampleSource_eq h hvalue
  rw [hsource]
  have hzero : 0 < 2 ^ 64 := by decide
  have hone : 1 < 2 ^ 64 := by decide
  refine ⟨hzero, hzero, hzero, hone, hzero, hone, ?_⟩
  intro v hv
  rcases hdecision with rfl | rfl
  · cases hv
  · cases hv
    exact .null trivial

attribute [local instance] canonicalReader

theorem portable_sampleSource : Portable (sampleSource "tool" none) := by
  obtain ⟨bytes, hsource, -⟩ : ∃ bytes, sampleSource "tool" none = _ ∧ _ :=
    sampleSource_eq (by decide) rfl
  have hnames : validCaptureIdentifier "tool" = true ∧ validCaptureIdentifier "one" = true := by
    decide
  rw [hsource]
  exact ⟨hnames.1, hnames.2, by simp⟩

/-- An event of a producer without a slash comes back. -/
theorem sample_capture_read_back : ∃ text,
    captureCausalSourceJsonl "run" [sampleSource "tool" none] = .ok text ∧
      parseSource (utf8 text) "run" maxLine maxEvents = .ok [sampleSource "tool" none] := by
  obtain ⟨text, htext⟩ : ∃ text, captureCausalSourceJsonl "run" [sampleSource "tool" none] =
    .ok text := sampleSource_captured (by decide) (by decide) (.inl rfl)
  have htyped : ∀ s ∈ [sampleSource "tool" none], WellTyped s := by
    intro s hs
    rw [List.mem_singleton.mp hs]
    exact wellTyped_sampleSource (by decide) (.inl rfl)
  refine ⟨text, htext, (capture_read_back_iff "run" _ text htyped htext).mpr ?_⟩
  intro s hs
  rw [List.mem_singleton.mp hs]
  exact portable_sampleSource

/-- The greatest limits of a merger. -/
def greatestLimits : MergeLimits := ⟨maxSources, maxEvents, maxEdges, maxBytes, maxBytes, maxLine⟩

/-- The envelope of the event is within the limits of a merger, which reads the event from it. -/
theorem sampleSource_envelope : ∃ text,
    captureCausalSourceJsonl "run" [sampleSource "tool" none] = .ok text ∧
      (utf8 text).length ≤ maxBytes ∧
      readEnvelope "run" greatestLimits (utf8 text) = .ok [sampleSource "tool" none] := by
  obtain ⟨text, htext⟩ : ∃ text, captureCausalSourceJsonl "run" [sampleSource "tool" none] =
    .ok text := sampleSource_captured (by decide) (by decide) (.inl rfl)
  have hparsed : parseSource (utf8 text) "run" maxLine maxEvents =
      .ok [sampleSource "tool" none] := by
    refine parseSource_of_portable ?_ htext ?_ <;> intro s hs <;> rw [List.mem_singleton.mp hs]
    · exact wellTyped_sampleSource (by decide) (.inl rfl)
    · exact portable_sampleSource
  have hcaptured := htext
  simp only [captureCausalSourceJsonl, captureEvents, bind_eq_ok, require_eq_ok, Except.ok.injEq]
    at hcaptured
  obtain ⟨_, -, out, ⟨_, hvalid, -⟩, terminal, -, _, hfits, rfl⟩ := hcaptured
  refine ⟨_, htext, ?_, ?_⟩
  · refine (length_bytes _).trans_le ?_
    rw [String.utf8ByteSize_append, String.utf8ByteSize_append]
    have hfeed : ("\n" : String).utf8ByteSize = 1 := by decide
    omega
  · simp only [readEnvelope, bind_eq_ok]
    exact ⟨_, hparsed, (), by simpa using hvalid, rfl⟩

theorem sample_not_read_back {producer : String} {decision : Option Json}
    (hproducer : validIdentifier producer = true) (h : producer.utf8ByteSize ≤ 16)
    (hdecision : decision = none ∨ decision = some .null)
    (hnot : ¬ Portable (sampleSource producer decision)) :
    ∃ text, captureCausalSourceJsonl "run" [sampleSource producer decision] = .ok text ∧
      parseSource (utf8 text) "run" maxLine maxEvents ≠ .ok [sampleSource producer decision] := by
  obtain ⟨text, htext⟩ := sampleSource_captured hproducer h hdecision
  refine ⟨text, htext, ?_⟩
  have htyped : ∀ s ∈ [sampleSource producer decision], WellTyped s := by
    intro s hs
    rw [List.mem_singleton.mp hs]
    exact wellTyped_sampleSource h hdecision
  intro hread
  exact hnot (portable_of_read_back htyped htext hread _ List.mem_cons_self)

/-- The capture takes a producer whose id has a slash, and a decision that is a null; the parser
refuses the first and reads the second as no decision. -/
theorem captured_not_read_back :
    (∃ text, captureCausalSourceJsonl "run" [sampleSource "tool/one" none] = .ok text ∧
      parseSource (utf8 text) "run" maxLine maxEvents ≠ .ok [sampleSource "tool/one" none]) ∧
    ∃ text, captureCausalSourceJsonl "run" [sampleSource "tool" (some .null)] = .ok text ∧
      parseSource (utf8 text) "run" maxLine maxEvents ≠ .ok [sampleSource "tool" (some .null)] := by
  constructor
  · apply sample_not_read_back (by decide) (by decide) (.inl rfl)
    intro hportable
    obtain ⟨bytes, hsource, -⟩ : ∃ bytes, sampleSource "tool/one" none = _ ∧ _ :=
      sampleSource_eq (by decide) rfl
    have hid := hportable.id
    rw [hsource] at hid
    have hslash : validCaptureIdentifier "tool/one" = false := by decide
    exact absurd (hslash.symm.trans hid) (by decide)
  · apply sample_not_read_back (by decide) (by decide) (.inr rfl)
    intro hportable
    obtain ⟨bytes, hsource, -⟩ : ∃ bytes, sampleSource "tool" (some .null) = _ ∧ _ :=
      sampleSource_eq (by decide) rfl
    have hdecided := hportable.decided
    rw [hsource] at hdecided
    exact hdecided rfl

end Sample

end SmeshDurable.Replay
