import SmeshDurable.Replay.Merge

/-!
# Events and their canonical text

An event that was parsed from an envelope is determined by its canonical text. This is
what makes the comparison of two envelopes that carry one event id a comparison of the
events.
-/

namespace SmeshDurable.Replay

open CanonicalJson Transaction

/-! ## Objects with known keys -/

theorem sortedKeys_str (text : String) : SortedKeys (.str text) := .str text trivial

theorem sortedKeys_decimal (n : Nat) : SortedKeys (decimal n) := sortedKeys_str _

theorem sortedKeys_optionString (text : Option String) : SortedKeys (optionString text) := by
  cases text with
  | none => exact .null trivial
  | some text => exact sortedKeys_str text

theorem sortedKeys_obj {fields : List (String × Json)}
    (hkeys : (fields.map Prod.fst).Pairwise (· < ·))
    (hfields : ∀ field ∈ fields, SortedKeys field.2) : SortedKeys (.obj fields) :=
  .obj fields hkeys hfields

theorem sortedKeys_parentValue (parent : CaptureParent) : SortedKeys (parentValue parent) := by
  cases parent with
  | root =>
    apply sortedKeys_obj
    · decide
    · simp [sortedKeys_str]
  | event id =>
    apply sortedKeys_obj
    · show ["eventId", "kind"].Pairwise (· < ·)
      decide
    · simp [sortedKeys_str]
  | missing expectedEventId reason =>
    apply sortedKeys_obj
    · show ["expectedEventId", "kind", "reason"].Pairwise (· < ·)
      decide
    · simp [sortedKeys_str]

theorem sortedKeys_eventValue (e : CaptureEvent) : SortedKeys (eventValue e) := by
  apply sortedKeys_obj
  · show ["content", "contextId", "eventId", "interactionId", "kind", "parent", "peerId",
      "producer", "sourceSequence", "subjectId", "taskId"].Pairwise (· < ·)
    decide
  · have hcontent : SortedKeys (.obj [("byteLength", decimal e.content.byteLength),
        ("digest", .str e.content.digest)]) := by
      apply sortedKeys_obj
      · show ["byteLength", "digest"].Pairwise (· < ·)
        decide
      · simp [sortedKeys_str, sortedKeys_decimal]
    have hproducer : SortedKeys (.obj [("id", .str e.producer.identity.id),
        ("instanceId", .str e.producer.identity.instanceId),
        ("kind", .str (kindName e.producer.identity.kind)),
        ("sourceSequence", decimal e.producer.sequence)]) := by
      apply sortedKeys_obj
      · show ["id", "instanceId", "kind", "sourceSequence"].Pairwise (· < ·)
        decide
      · simp [sortedKeys_str, sortedKeys_decimal]
    simp [hcontent, hproducer, sortedKeys_str, sortedKeys_decimal, sortedKeys_optionString,
      sortedKeys_parentValue]

theorem sortedKeys_hlcValue (hlc : HybridLogicalClock) : SortedKeys (hlcValue hlc) := by
  apply sortedKeys_obj
  · show ["logical", "physicalNs"].Pairwise (· < ·)
    decide
  · simp [sortedKeys_decimal]

/-! ## Wire forms are injective -/

theorem decimal_injective : Function.Injective decimal := by
  intro a b h
  exact Json.repr_injective (Json.str.inj h)

theorem optionString_injective : Function.Injective optionString := by
  intro a b h
  cases a <;> cases b <;> simp_all [optionString]

theorem kindName_injective : Function.Injective kindName := by
  intro a b h
  cases a <;> cases b <;> first | rfl | (revert h; decide)

theorem gapName_injective : Function.Injective gapName := by
  intro a b h
  cases a <;> cases b <;> first | rfl | (revert h; decide)

theorem parentValue_injective : Function.Injective parentValue := by
  intro a b h
  cases a <;> cases b <;> simp_all [parentValue]
  exact gapName_injective h.2

theorem captureKindName_injective : Function.Injective captureKindName := by
  intro a b h
  have htable : ∀ a ∈ CaptureKind.all, ∀ b ∈ CaptureKind.all,
      captureKindName a = captureKindName b → a = b := by decide
  exact htable a (by cases a <;> decide) b (by cases b <;> decide) h

theorem eventValue_injective : Function.Injective eventValue := by
  intro a b h
  simp only [eventValue, Json.obj.injEq, List.cons.injEq, Prod.mk.injEq, true_and, and_true,
    Json.str.injEq, decimal_injective.eq_iff, optionString_injective.eq_iff,
    parentValue_injective.eq_iff, kindName_injective.eq_iff,
    captureKindName_injective.eq_iff] at h
  obtain ⟨⟨hlength, hdigest⟩, hcontext, hid, hinteraction, hkind, hparent, hpeer,
    ⟨hproducer, hinstance, hproducerKind, hproducerSequence⟩, hsequence, hsubject, htask⟩ := h
  cases a with
  | mk _ _ producerA _ _ _ _ _ _ _ contentA =>
    cases b with
    | mk _ _ producerB _ _ _ _ _ _ _ contentB =>
      obtain ⟨⟨_, _, _⟩, _⟩ := producerA
      obtain ⟨⟨_, _, _⟩, _⟩ := producerB
      obtain ⟨_, _⟩ := contentA
      obtain ⟨_, _⟩ := contentB
      simp_all

theorem hlcValue_injective : Function.Injective hlcValue := by
  intro a b h
  simp only [hlcValue, Json.obj.injEq, List.cons.injEq, Prod.mk.injEq, true_and, and_true,
    decimal_injective.eq_iff] at h
  cases a
  cases b
  simp_all

/-! ## The canonical text of an event -/

/-- What parsing establishes: the sequence fits in 64 bits, and a recorded decision is a value
with ordered keys other than null. -/
structure Parsed (s : CausalSourceEvent) : Prop where
  sequence : s.sequence < 2 ^ 64
  sorted : ∀ v ∈ s.recordedDecision, SortedKeys v
  decided : s.recordedDecision ≠ some .null

theorem Parsed.sorted_decision {s : CausalSourceEvent} (h : Parsed s) :
    SortedKeys (decisionValue s) := by
  unfold decisionValue
  cases hdecision : s.recordedDecision with
  | none => exact .null trivial
  | some v => exact h.sorted v hdecision

theorem decisionValue_cancel {a b : CausalSourceEvent} (ha : Parsed a) (hb : Parsed b)
    (h : decisionValue a = decisionValue b) : a.recordedDecision = b.recordedDecision := by
  have hna := ha.decided
  have hnb := hb.decided
  unfold decisionValue at h
  cases hda : a.recordedDecision <;> cases hdb : b.recordedDecision <;> simp_all

theorem writeField_eq {label : String} {v : Json} {out out' : String}
    (h : writeField label v out = .ok out') :
    out'.toList = out.toList ++ (label.toList ++ text v) ∧ NumberFree v := by
  simp only [writeField, bind_eq_ok] at h
  obtain ⟨out₁, hlabel, hvalue⟩ := h
  refine ⟨?_, numberFree_of_write hvalue⟩
  rw [writes_write _ _ _ _ hvalue, writes_extend _ _ _ hlabel, List.append_assoc]

/-- The text of an event as it is written field by field. -/
def sourceText (s : CausalSourceEvent) : List Char :=
  "\x7b\"event\":".toList ++ (text (eventValue s.event) ++ (",\"hlc\":".toList ++
    (text (hlcValue s.hlc) ++ (",\"lamport\":".toList ++ (text (decimal s.lamport) ++
      (",\"producerHash\":".toList ++ (text (.str s.producerHash) ++
        (",\"producerPrevious\":".toList ++ (text (optionString s.producerPrevious) ++
          (",\"recordedDecision\":".toList ++ (text (decisionValue s) ++ "\x7d".toList)))))))))))

/-- The fields of an event hold no number. -/
structure FieldsNumberFree (s : CausalSourceEvent) : Prop where
  event : NumberFree (eventValue s.event)
  hlc : NumberFree (hlcValue s.hlc)
  lamport : NumberFree (decimal s.lamport)
  producerHash : NumberFree (.str s.producerHash)
  producerPrevious : NumberFree (optionString s.producerPrevious)
  decision : NumberFree (decisionValue s)

theorem reported_eq_ok {result : Except Fault String} {text : String} :
    reported result = .ok text ↔ result = .ok text := by
  rcases result with (_ | _) | _ <;> simp [reported]

theorem canonicalSourceEvent_eq {s : CausalSourceEvent} {c : String}
    (h : canonicalSourceEvent s = .ok c) : c.toList = sourceText s ∧ FieldsNumberFree s := by
  unfold canonicalSourceEvent at h
  rw [reported_eq_ok] at h
  simp only [bind_eq_ok] at h
  obtain ⟨_, hevent, _, hhlc, _, hlamport, _, hhash, _, hprevious, _, hdecision, hclose⟩ := h
  obtain ⟨hevent, hfreeEvent⟩ := writeField_eq hevent
  obtain ⟨hhlc, hfreeHlc⟩ := writeField_eq hhlc
  obtain ⟨hlamport, hfreeLamport⟩ := writeField_eq hlamport
  obtain ⟨hhash, hfreeHash⟩ := writeField_eq hhash
  obtain ⟨hprevious, hfreePrevious⟩ := writeField_eq hprevious
  obtain ⟨hdecision, hfreeDecision⟩ := writeField_eq hdecision
  refine ⟨?_, hfreeEvent, hfreeHlc, hfreeLamport, hfreeHash, hfreePrevious, hfreeDecision⟩
  rw [writes_extend _ _ _ hclose, hdecision, hprevious, hhash, hlamport, hhlc, hevent,
    String.toList_empty, List.nil_append]
  unfold sourceText
  simp only [List.append_assoc]

/-- Parsed events with one canonical text are equal. -/
theorem canonicalSourceEvent_injective {a b : CausalSourceEvent} {c : String} (ha : Parsed a)
    (hb : Parsed b) (hca : canonicalSourceEvent a = .ok c) (hcb : canonicalSourceEvent b = .ok c) :
    a = b := by
  obtain ⟨hca, hfa⟩ := canonicalSourceEvent_eq hca
  obtain ⟨hcb, hfb⟩ := canonicalSourceEvent_eq hcb
  have htext : sourceText a = sourceText b := hca.symm.trans hcb
  -- one field after another, from the front
  unfold sourceText at htext
  obtain ⟨hevent, htext⟩ := text_cancel hfa.event hfb.event (sortedKeys_eventValue _)
    (sortedKeys_eventValue _) (List.append_cancel_left htext)
  obtain ⟨hhlc, htext⟩ := text_cancel hfa.hlc hfb.hlc (sortedKeys_hlcValue _)
    (sortedKeys_hlcValue _) (List.append_cancel_left htext)
  obtain ⟨hlamport, htext⟩ := text_cancel hfa.lamport hfb.lamport (sortedKeys_decimal _)
    (sortedKeys_decimal _) (List.append_cancel_left htext)
  obtain ⟨hhash, htext⟩ := text_cancel hfa.producerHash hfb.producerHash (sortedKeys_str _)
    (sortedKeys_str _) (List.append_cancel_left htext)
  obtain ⟨hprevious, htext⟩ := text_cancel hfa.producerPrevious hfb.producerPrevious
    (sortedKeys_optionString _) (sortedKeys_optionString _) (List.append_cancel_left htext)
  obtain ⟨hdecision, -⟩ := text_cancel hfa.decision hfb.decision ha.sorted_decision
    hb.sorted_decision (List.append_cancel_left htext)
  have hdecision := decisionValue_cancel ha hb hdecision
  have hevent := eventValue_injective hevent
  have hhlc := hlcValue_injective hhlc
  have hlamport := decimal_injective hlamport
  have hhash := Json.str.inj hhash
  have hprevious := optionString_injective hprevious
  cases a
  cases b
  simp_all

/-! ## What a parsed event satisfies -/

theorem decimalValue_lt {v : Option Json} {n : Nat} (h : decimalValue v = .ok n) : n < 2 ^ 64 := by
  simp only [decimalValue, bind_eq_ok, require_eq_ok, Except.ok.injEq] at h
  obtain ⟨_, -, -, -, -, hbound, rfl⟩ := h
  exact hbound

theorem get?_mem {fields : List (String × Json)} {key : String} {v : Json}
    (h : get? fields key = some v) : ∃ field ∈ fields, field.2 = v := by
  simp only [get?, Option.map_eq_some_iff] at h
  obtain ⟨field, hfield, rfl⟩ := h
  exact ⟨field, List.mem_of_find?_eq_some hfield, rfl⟩

theorem sortedKeys_get? {fields : List (String × Json)} {key : String} {v : Json}
    (hsorted : SortedKeys (.obj fields)) (h : get? fields key = some v) : SortedKeys v := by
  obtain ⟨field, hfield, rfl⟩ := get?_mem h
  exact hsorted.field hfield

theorem asObject_eq_ok {v : Json} {fields : List (String × Json)} :
    asObject v = .ok fields ↔ v = .obj fields := by
  cases v <;> simp [asObject]

theorem parseDecision_eq_ok {v : Option Json} {decision : Option Json}
    (h : parseDecision v = .ok decision) :
    decision ≠ some .null ∧ ∀ w ∈ decision, v = some w := by
  unfold parseDecision at h
  split at h
  · cases h
    simp
  · rename_i w hnull
    cases h
    refine ⟨fun heq => hnull (Option.some.inj heq), ?_⟩
    simp
  · cases h

theorem ProducerIdentity.new_eq_ok {kind : ProducerKind} {id instanceId : String}
    {identity : ProducerIdentity} (h : ProducerIdentity.new kind id instanceId = .ok identity) :
    validCaptureIdentifier identity.id = true ∧
      validCaptureIdentifier identity.instanceId = true := by
  simp only [ProducerIdentity.new, bind_eq_ok, require_eq_ok, Except.ok.injEq] at h
  obtain ⟨-, hnames, rfl⟩ := h
  exact hnames

theorem mapM_mem {α β ε : Type} {f : α → Except ε β} {xs : List α} {ys : List β}
    (h : xs.mapM f = .ok ys) {y : β} (hy : y ∈ ys) : ∃ x ∈ xs, f x = .ok y :=
  exists_of_forall₂ (mapM_eq_ok.mp h) hy

section Digest

variable [ContentDigest]

theorem parseEvent_bounds {v : Json} {e : CaptureEvent} (h : parseEvent v = .ok e) :
    (e.sequence < 2 ^ 64 ∧ e.producer.sequence < 2 ^ 64 ∧ e.content.byteLength < 2 ^ 64) ∧
      validCaptureIdentifier e.producer.identity.id = true ∧
      validCaptureIdentifier e.producer.identity.instanceId = true := by
  simp only [parseEvent, bind_eq_ok, Except.ok.injEq] at h
  obtain ⟨_, -, _, -, _, -, _, -, _, -, _, -, _, -, _, -, identity, hidentity, _, -, _, -, _, -, _,
    -, _, -, _, hsequence, _, hproducer, _, -, _, -, _, -, _, -, _, -, _, -, _, -, _, -, _, hlength,
    _, -, rfl⟩ := h
  exact ⟨⟨decimalValue_lt hsequence, decimalValue_lt hproducer, decimalValue_lt hlength⟩,
    ProducerIdentity.new_eq_ok hidentity⟩

theorem parseSourceEvent_parsed {v : Json} {s : CausalSourceEvent} (hsorted : SortedKeys v)
    (h : parseSourceEvent v = .ok s) : Parsed s := by
  simp only [parseSourceEvent, bind_eq_ok, asObject_eq_ok, Except.ok.injEq] at h
  obtain ⟨fields, rfl, _, -, _, -, event, hevent, _, -, _, -, _, -, decision, hdecision, _, -,
    rfl⟩ := h
  obtain ⟨hnull, hvalue⟩ := parseDecision_eq_ok hdecision
  exact ⟨(parseEvent_bounds hevent).1.2.1, fun w hw => sortedKeys_get? hsorted (hvalue w hw), hnull⟩

variable [JsonReader]

theorem readEventLine_parsed {runId : String} {line : Bytes} {s : CausalSourceEvent}
    (h : readEventLine runId line = .ok s) : Parsed s := by
  simp only [readEventLine, readHeader, readLine, bind_eq_ok, expect_eq_ok, asObject_eq_ok,
    Except.ok.injEq] at h
  obtain ⟨⟨_, _⟩, ⟨_, ⟨v, hread, _, -, _, -, rfl⟩, fields, rfl, _, -, _, -, _, -, hheader⟩, _, -, _,
    -, value, hvalue, hparse⟩ := h
  obtain ⟨rfl, -⟩ := Prod.mk.inj hheader
  exact parseSourceEvent_parsed (sortedKeys_get? (JsonReader.read_sortedKeys hread) hvalue) hparse

/-- Every event of an envelope that is read was parsed. -/
theorem readEnvelope_parsed {runId : String} {limits : MergeLimits} {bytes : Bytes}
    {batch : List CausalSourceEvent} (h : readEnvelope runId limits bytes = .ok batch) :
    ∀ s ∈ batch, Parsed s := by
  simp only [readEnvelope, parseSource, bind_eq_ok, Except.ok.injEq] at h
  obtain ⟨_, ⟨_, -, _, -, events, hevents, _, -, _, -, rfl⟩, _, -, rfl⟩ := h
  intro s hs
  obtain ⟨line, -, hline⟩ := mapM_mem hevents hs
  exact readEventLine_parsed hline

end Digest

end SmeshDurable.Replay
