import SmeshDurable.Replay.Lines

/-!
# The wire form of an event

Parsing undoes writing on the events whose fields have the types of the source, whose
producer the parser accepts and whose decision is not a null.
-/

namespace SmeshDurable.Replay

open CanonicalJson Transaction

/-! ## Numbers -/

/-- A decimal starts with a zero only if it is zero. -/
theorem toDigits_head {n : Nat} (h : (Nat.toDigits 10 n).head? = some '0') : n = 0 := by
  induction n using Nat.strong_induction_on with
  | _ n ih =>
    by_cases hn : n < 10
    · rw [Nat.toDigits_of_lt_base hn, List.head?_cons, Option.some.injEq] at h
      have hdigits : ∀ d < 10, Nat.digitChar d = '0' → d = 0 := by decide
      exact hdigits n hn h
    · rw [Nat.toDigits_of_base_le (by omega) (by omega),
        List.head?_append_of_ne_nil _ Nat.toDigits_ne_nil] at h
      have hquot := ih (n / 10) (by omega) h
      omega

theorem decimalValue_decimal {n : Nat} (h : n < 2 ^ 64) : decimalValue (some (decimal n)) = .ok n := by
  have hdigits : n.repr.toList.all Char.isDigit = true := by
    rw [List.all_eq_true, Nat.toList_repr]
    exact fun c hc => Nat.isDigit_of_mem_toDigits (by decide) (by decide) hc
  have hlead : ¬ (n.repr ≠ "0" ∧ (n.repr.toList.head? = some '0' ∨ n.repr = "")) := by
    rintro ⟨hzero, hhead | hempty⟩
    · rw [Nat.toList_repr] at hhead
      rw [toDigits_head hhead] at hzero
      exact hzero (by decide)
    · exact Nat.repr_ne_empty hempty
  have hvalue : n.repr.toList.foldl (fun n c => 10 * n + (c.toNat - '0'.toNat)) 0 = n := by
    rw [Nat.toList_repr]
    exact Nat.ofDigitChars_ten_toDigits
  simp only [decimalValue, decimal, asString, bind_eq_ok, require_eq_ok, Except.ok.injEq]
  refine ⟨_, rfl, (), ⟨hlead, hdigits⟩, (), ?_, hvalue⟩
  rw [hvalue]
  exact h

/-! ## Names -/

theorem parseProducerKind_kindName (kind : ProducerKind) :
    parseProducerKind (kindName kind) = .ok kind := by
  cases kind <;> decide

theorem parseGap_gapName (reason : CaptureGapReason) : parseGap (gapName reason) = .ok reason := by
  cases reason <;> decide

theorem parseCaptureKind_captureKindName (kind : CaptureKind) :
    parseCaptureKind (captureKindName kind) = .ok kind := by
  cases kind <;> decide

theorem optionalString_optionString (text : Option String) :
    optionalString (some (optionString text)) = .ok text := by
  cases text <;> rfl

/-! ## Records -/

theorem parseParent_parentValue (parent : CaptureParent) :
    ∃ fields, parentValue parent = .obj fields ∧ parseParent fields = .ok parent := by
  cases parent with
  | root => exact ⟨_, rfl, by rfl⟩
  | event id => exact ⟨_, rfl, by rfl⟩
  | missing expectedEventId reason =>
    refine ⟨_, rfl, ?_⟩
    have hreason := parseGap_gapName reason
    simp [parseParent, stringAt, asString, get?, exactKeys, hreason]

theorem parseHlc_hlcValue {hlc : HybridLogicalClock} (hphysical : hlc.physicalNs < 2 ^ 64)
    (hlogical : hlc.logical < 2 ^ 64) : parseHlc (some (hlcValue hlc)) = .ok hlc := by
  have hphysical := decimalValue_decimal hphysical
  have hlogical := decimalValue_decimal hlogical
  simp [parseHlc, hlcValue, get?, exactKeys, hphysical, hlogical]

theorem parseDecision_decisionValue {s : CausalSourceEvent} (h : s.recordedDecision ≠ some .null) :
    parseDecision (some (decisionValue s)) = .ok s.recordedDecision := by
  unfold decisionValue
  cases hdecision : s.recordedDecision with
  | none => rfl
  | some v =>
    cases v <;> first | rfl | exact absurd hdecision h

/-- The numbers of an event fit in 64 bits and its decision is a map ordered by key, as their
types in the source have it. -/
structure WellTyped (s : CausalSourceEvent) : Prop where
  sequence : s.event.sequence < 2 ^ 64
  producerSequence : s.event.producer.sequence < 2 ^ 64
  byteLength : s.event.content.byteLength < 2 ^ 64
  physicalNs : s.hlc.physicalNs < 2 ^ 64
  logical : s.hlc.logical < 2 ^ 64
  lamport : s.lamport < 2 ^ 64
  sorted : ∀ v ∈ s.recordedDecision, SortedKeys v

/-- What the parser accepts of a producer and tells apart of a decision. -/
structure Portable (s : CausalSourceEvent) : Prop where
  id : validCaptureIdentifier s.event.producer.identity.id = true
  instanceId : validCaptureIdentifier s.event.producer.identity.instanceId = true
  decided : s.recordedDecision ≠ some .null

theorem WellTyped.sorted_decision {s : CausalSourceEvent} (h : WellTyped s) :
    SortedKeys (decisionValue s) := by
  unfold decisionValue
  cases hdecision : s.recordedDecision with
  | none => exact .null trivial
  | some v => exact h.sorted v hdecision

theorem sortedKeys_sourceEventValue {s : CausalSourceEvent} (h : WellTyped s) :
    SortedKeys (sourceEventValue s) := by
  apply sortedKeys_obj
  · show ["event", "hlc", "lamport", "producerHash", "producerPrevious",
      "recordedDecision"].Pairwise (· < ·)
    decide
  · have hdecision := h.sorted_decision
    simp [sortedKeys_eventValue, sortedKeys_hlcValue, sortedKeys_decimal, sortedKeys_str,
      sortedKeys_optionString, hdecision]

theorem parseHlc_lt {v : Option Json} {hlc : HybridLogicalClock} (h : parseHlc v = .ok hlc) :
    hlc.physicalNs < 2 ^ 64 ∧ hlc.logical < 2 ^ 64 := by
  unfold parseHlc at h
  split at h
  · simp only [bind_eq_ok, Except.ok.injEq] at h
    obtain ⟨-, -, _, hphysical, _, hlogical, rfl⟩ := h
    exact ⟨decimalValue_lt hphysical, decimalValue_lt hlogical⟩
  · simp only [bind_eq_ok, Except.ok.injEq] at h
    obtain ⟨_, hphysical, _, hlogical, rfl⟩ := h
    exact ⟨decimalValue_lt hphysical, decimalValue_lt hlogical⟩
  · cases h

section Digest

variable [ContentDigest]

/-- A check for a run includes the check for none. -/
theorem validateEvent_none {e : CaptureEvent} {runId : String}
    (h : validateEvent e (some runId) = .ok ()) : validateEvent e none = .ok () := by
  simp only [validateEvent, bind_eq_ok, require_eq_ok] at h ⊢
  obtain ⟨u, hid, w, hcontent, x, hnames, y, hparent, z, hkind, -⟩ := h
  exact ⟨u, hid, w, hcontent, x, hnames, y, hparent, z, hkind, by simp⟩

theorem parseEvent_eventValue {s : CausalSourceEvent} (htyped : WellTyped s) (hportable : Portable s)
    (hvalid : validateEvent s.event none = .ok ()) :
    parseEvent (eventValue s.event) = .ok s.event := by
  have hsequence := decimalValue_decimal htyped.sequence
  have hproducer := decimalValue_decimal htyped.producerSequence
  have hlength := decimalValue_decimal htyped.byteLength
  have hkind := parseCaptureKind_captureKindName s.event.kind
  have hproducerKind := parseProducerKind_kindName s.event.producer.identity.kind
  have htask := optionalString_optionString s.event.taskId
  have hcontext := optionalString_optionString s.event.contextId
  have hsubject := optionalString_optionString s.event.subjectId
  have hidentity : ProducerIdentity.new s.event.producer.identity.kind
      s.event.producer.identity.id s.event.producer.identity.instanceId =
      .ok s.event.producer.identity := by
    simp [ProducerIdentity.new, hportable.id, hportable.instanceId]
  obtain ⟨fields, hfields, hparent⟩ := parseParent_parentValue s.event.parent
  -- The lookups of the parser find the fields of the written object.
  have hread : parseEvent (eventValue s.event) = (do
      let producerKind ← parseProducerKind (kindName s.event.producer.identity.kind)
      let identity ← ProducerIdentity.new producerKind s.event.producer.identity.id
        s.event.producer.identity.instanceId
      let parentObject ← asObject (parentValue s.event.parent)
      let parent ← parseParent parentObject
      let sequence ← decimalValue (some (decimal s.event.sequence))
      let producerSequence ← decimalValue (some (decimal s.event.producer.sequence))
      let kind ← parseCaptureKind (captureKindName s.event.kind)
      let taskId ← optionalString (some (optionString s.event.taskId))
      let contextId ← optionalString (some (optionString s.event.contextId))
      let subjectId ← optionalString (some (optionString s.event.subjectId))
      let byteLength ← decimalValue (some (decimal s.event.content.byteLength))
      let event : CaptureEvent :=
        { s.event with
          sequence, producer := ⟨identity, producerSequence⟩, kind, taskId, contextId, subjectId,
          parent, content := ⟨s.event.content.digest, byteLength⟩ }
      validateEvent event none
      .ok event) := rfl
  rw [hread]
  simp only [hproducerKind, ok_bind, hidentity, hfields, asObject, hparent, hsequence, hproducer, hkind,
    htask, hcontext, hsubject, hlength, hvalid]

/-- Parsing undoes writing. -/
theorem parseSourceEvent_sourceEventValue {s : CausalSourceEvent} (htyped : WellTyped s)
    (hportable : Portable s) (hvalid : validateEvent s.event none = .ok ()) :
    parseSourceEvent (sourceEventValue s) = .ok s := by
  have hevent := parseEvent_eventValue htyped hportable hvalid
  have hhlc := parseHlc_hlcValue htyped.physicalNs htyped.logical
  have hlamport := decimalValue_decimal htyped.lamport
  have hprevious := optionalString_optionString s.producerPrevious
  have hdecision := parseDecision_decisionValue hportable.decided
  have hread : parseSourceEvent (sourceEventValue s) = (do
      let event ← parseEvent (eventValue s.event)
      let hlc ← parseHlc (some (hlcValue s.hlc))
      let lamport ← decimalValue (some (decimal s.lamport))
      let producerPrevious ← optionalString (some (optionString s.producerPrevious))
      let recordedDecision ← parseDecision (some (decisionValue s))
      .ok { s with event, hlc, lamport, recordedDecision, producerPrevious }) := rfl
  rw [hread]
  simp only [hevent, ok_bind, hhlc, hlamport, hprevious, hdecision]

/-- What the parser returns is of the types of the source and is parsed again. -/
theorem parseSourceEvent_spec {v : Json} {s : CausalSourceEvent} (hsorted : SortedKeys v)
    (h : parseSourceEvent v = .ok s) : WellTyped s ∧ Portable s := by
  have hparsed := parseSourceEvent_parsed hsorted h
  simp only [parseSourceEvent, bind_eq_ok, Except.ok.injEq] at h
  obtain ⟨_, -, _, -, _, -, event, hevent, hlc, hhlc, lamport, hlamport, _, -, _, -, _, -, rfl⟩ := h
  obtain ⟨⟨hsequence, -, hlength⟩, hid, hinstance⟩ := parseEvent_bounds hevent
  obtain ⟨hphysical, hlogical⟩ := parseHlc_lt hhlc
  exact ⟨⟨hsequence, hparsed.sequence, hlength, hphysical, hlogical, decimalValue_lt hlamport,
    hparsed.sorted⟩, ⟨hid, hinstance, hparsed.decided⟩⟩

end Digest

end SmeshDurable.Replay
