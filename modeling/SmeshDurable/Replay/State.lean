import SmeshDurable.Replay.Capture
import SmeshDurable.Replay.Union

/-!
# The state of a merger

What a merger keeps besides its events is derived from them, although it is extended one
envelope at a time: the edges are those found by looking at all events at once, the slots
are those of the events, and the missing claims are those the events make. An envelope
that is refused changes nothing.
-/

namespace SmeshDurable.Replay

open Transaction

section State

variable [ContentDigest] [JsonReader] {runId : String} {limits : MergeLimits}
  {policy : MissingParentPolicy} {m m' : CausalMerger} {held : List Bytes} {bytes : Bytes}

/-- The merger after an envelope was offered to it. -/
def CausalMerger.offered (m : CausalMerger) (bytes : Bytes) : CausalMerger := (m.offer bytes).2

/-- The derived parts of a merger agree with its events and are within its limits. -/
structure CausalMerger.Sound (m : CausalMerger) : Prop where
  ids : (m.events.map CausalSourceEvent.id).Nodup
  edges_nodup : m.edges.Nodup
  edges : ∀ edge, edge ∈ m.edges ↔ edge ∈ edgesOf m.events
  slots : ∀ slot id, m.slots.lookup slot = some id ↔
    ∃ s ∈ m.events, producerSlot s = slot ∧ s.id = id
  places : ∀ a ∈ m.events, ∀ b ∈ m.events, producerSlot a = producerSlot b → a = b
  unclaimed : ∀ s ∈ m.events, s.id ∉ m.missingClaims
  claims : ∀ id, id ∈ m.missingClaims ↔ ∃ s ∈ m.events, s.missingId? = some id
  events_le : m.events.length ≤ m.limits.maxEvents
  edges_le : m.edges.length ≤ m.limits.maxEdges
  sources_le : m.sources ≤ m.limits.maxSources
  inputBytes_le : m.inputBytes ≤ m.limits.maxInputBytes

theorem Merged.places (h : Merged runId limits policy m held)
    (hacceptable : Acceptable runId limits held) :
    ∀ a ∈ m.events, ∀ b ∈ m.events, producerSlot a = producerSlot b → a = b := by
  intro a ha b hb hslot
  have ha' := (h.holds.mem a).mp ha
  have hb' := (h.holds.mem b).mp hb
  apply hacceptable.consistent.eq_of_id (fun s => occurrencesOf_parsed s) ha' hb'
  exact hacceptable.consistent.slots a ha' b hb' hslot

theorem Merged.sound (h : Merged runId limits policy m held)
    (hacceptable : Acceptable runId limits held) : m.Sound := by
  have hedges : ∀ edge, edge ∈ m.edges ↔ edge ∈ edgesOf m.events := by
    intro edge
    rw [h.edges, mem_edgesOf, mem_edgesOf]
    simp only [h.holds.mem]
  refine ⟨h.holds.nodup, h.edges_nodup, hedges, ?_, h.places hacceptable, ?_, ?_, ?_, ?_, ?_, ?_⟩
  · intro slot id
    rw [h.holds.slots]
    simp only [h.holds.mem]
  · intro s hs hclaimed
    obtain ⟨claimant, hclaimant, hmissing⟩ := (h.holds.missing s.id).mp hclaimed
    exact hacceptable.consistent.missing claimant hclaimant s ((h.holds.mem s).mp hs) hmissing
  · intro id
    rw [h.holds.missing]
    simp only [h.holds.mem]
  · have hlength : m.events.length =
        distinct ((occurrencesOf runId limits held).map CausalSourceEvent.id) := by
      rw [← List.length_map (f := CausalSourceEvent.id)]
      apply length_eq_distinct h.holds.nodup
      intro id
      simp only [List.mem_map, h.holds.mem]
    rw [hlength, h.limits_eq]
    exact hacceptable.events
  · rw [length_eq_distinct h.edges_nodup h.edges, h.limits_eq]
    exact hacceptable.edges
  · rw [h.sources, h.limits_eq]
    exact hacceptable.sources
  · rw [h.inputBytes, h.limits_eq]
    exact hacceptable.inputBytes

/-- Whatever is offered, a merger holds the envelopes that it took. -/
theorem Merged.offered (h : Merged runId limits policy m held)
    (hacceptable : Acceptable runId limits held) (bytes : Bytes) :
    ∃ held', Merged runId limits policy (m.offered bytes) held' ∧
      Acceptable runId limits held' := by
  rw [CausalMerger.offered, m.offer_eq]
  cases hingest : m.ingestSourceJsonl bytes with
  | error e => exact ⟨held, h, hacceptable⟩
  | ok result =>
    obtain ⟨count, m'⟩ := result
    by_cases hnew : ∀ b ∈ held, fingerprint b ≠ fingerprint bytes
    · exact ⟨held ++ [bytes], h.ingest hacceptable hnew hingest⟩
    · -- a known fingerprint is answered from the map
      have hknown : ∃ b ∈ held, fingerprint b = fingerprint bytes := by
        simpa using hnew
      obtain ⟨known, hlookup⟩ := Option.isSome_iff_exists.mp ((h.fingerprints _).mpr hknown)
      simp only [CausalMerger.ingestSourceJsonl, hlookup, bind_eq_ok, require_eq_ok,
        Except.ok.injEq, Prod.mk.injEq] at hingest
      obtain ⟨-, -, -, rfl⟩ := hingest
      exact ⟨held, h, hacceptable⟩

theorem Merged.offered_all (sources : List Bytes) (h : Merged runId limits policy m held)
    (hacceptable : Acceptable runId limits held) :
    ∃ held', Merged runId limits policy (sources.foldl CausalMerger.offered m) held' ∧
      Acceptable runId limits held' := by
  induction sources generalizing m held with
  | nil => exact ⟨held, h, hacceptable⟩
  | cons bytes rest ih =>
    obtain ⟨held', h', hacceptable'⟩ := h.offered hacceptable bytes
    exact ih h' hacceptable'

/-- After any envelopes were offered to a new merger, taken or refused, what it keeps is sound
and within the limits it was made with, and an envelope that is refused changes nothing. -/
theorem merger_sound_after_envelopes (runId : String) (limits : MergeLimits)
    (policy : MissingParentPolicy) (m : CausalMerger)
    (hnew : CausalMerger.new runId limits policy = .ok m) (sources : List Bytes) :
    (sources.foldl CausalMerger.offered m).Sound ∧
      (sources.foldl CausalMerger.offered m).limits = limits ∧
      ∀ bytes error, ((sources.foldl CausalMerger.offered m).offer bytes).1 = .error error →
        ((sources.foldl CausalMerger.offered m).offer bytes).2 =
          sources.foldl CausalMerger.offered m := by
  obtain ⟨hempty, hnothing⟩ := new_merged hnew
  obtain ⟨held, hmerged, hacceptable⟩ := hempty.offered_all sources hnothing
  refine ⟨hmerged.sound hacceptable, hmerged.limits_eq, ?_⟩
  intro bytes error hrefused
  rw [CausalMerger.offer_eq] at hrefused ⊢
  cases hingest : (sources.foldl CausalMerger.offered m).ingestSourceJsonl bytes with
  | error e => rfl
  | ok result =>
    rw [hingest] at hrefused
    cases hrefused

/-- A new merger takes an envelope with one event, the first of its producer. -/
theorem ingest_root {bytes : Bytes} {s : CausalSourceEvent}
    (hlimits : 0 < limits.maxSources ∧ 0 < limits.maxEvents ∧ bytes.length ≤ limits.maxInputBytes)
    (hread : readEnvelope runId limits bytes = .ok [s]) (hroot : s.event.parent = .root)
    (hfirst : s.sequence = 0) :
    (⟨runId, limits, policy, [], [], [], [], 0, 0, []⟩ : CausalMerger).ingestSourceJsonl bytes =
      .ok (1, ⟨runId, limits, policy, [s], [(producerSlot s, s.id)], [], [], 1, bytes.length,
        [(fingerprint bytes, 1)]⟩) := by
  have hnext : [(producerSlot s, s.id)].lookup (producerKey s, 1) = none := by
    have hne : (producerKey s, 1) ≠ producerSlot s := by simp [producerSlot, hfirst]
    rw [List.lookup_cons, beq_false_of_ne hne]
    rfl
  simp [CausalMerger.ingestSourceJsonl, bind_eq_ok, hread, hlimits, stageBatch, stageEvent,
    incrementalEdges, eventEdges, lookupEvent, CausalSourceEvent.missingId?,
    CausalSourceEvent.parentId?, hroot, hfirst, hnext, hlimits.1.ne, Nat.succ_le_iff]
  intro _ _ _ place hslot _ hplace
  have hzero : place = s.sequence := congrArg Prod.snd hslot
  omega

end State

attribute [local instance] checksumDigest canonicalReader

/-- A merger takes the envelope of the sample event, and keeps the event when it refuses an
envelope that is too long. -/
theorem sampleMerger_sound :
    ∃ m text, CausalMerger.new "run" greatestLimits .record = .ok m ∧
      (m.offered (utf8 text)).events = [sampleSource "tool" none] ∧
      (m.offered (utf8 text)).Sound ∧
      ∃ bytes, ((m.offered (utf8 text)).offer bytes).1 = .error .capacityExhausted ∧
        ((m.offered (utf8 text)).offer bytes).2 = m.offered (utf8 text) := by
  obtain ⟨text, -, hsize, hread⟩ := sampleSource_envelope
  obtain ⟨_, hsource, -⟩ : ∃ bytes, sampleSource "tool" none = _ ∧ _ :=
    sampleSource_eq (by decide) rfl
  have hnew : CausalMerger.new "run" greatestLimits .record = .ok
      ⟨"run", greatestLimits, .record, [], [], [], [], 0, 0, []⟩ := by rfl
  have htaken := @ingest_root _ _ _ _ MissingParentPolicy.record _ _ ⟨by decide, by decide, hsize⟩ hread (by rw [hsource]; rfl)
    (by rw [hsource]; rfl)
  obtain ⟨hsound, -, hkept⟩ :=
    merger_sound_after_envelopes "run" greatestLimits .record _ hnew [utf8 text]
  have hheld : CausalMerger.offered ⟨"run", greatestLimits, .record, [], [], [], [], 0, 0, []⟩
      (utf8 text) = ⟨"run", greatestLimits, .record, [sampleSource "tool" none],
        [(producerSlot (sampleSource "tool" none), (sampleSource "tool" none).id)], [], [], 1,
        (utf8 text).length, [(fingerprint (utf8 text), 1)]⟩ := by
    rw [CausalMerger.offered, CausalMerger.offer_eq, htaken]
    rfl
  have hrefused : ((CausalMerger.offered ⟨"run", greatestLimits, .record, [], [], [], [], 0, 0, []⟩
      (utf8 text)).offer (List.replicate (maxBytes + 1) 0)).1 = .error .capacityExhausted := by
    rw [hheld, CausalMerger.offer_eq, CausalMerger.ingestSourceJsonl, require, if_neg]
    · rfl
    · simp [greatestLimits]
  exact ⟨_, text, hnew, by rw [hheld], hsound, _, hrefused, hkept _ _ hrefused⟩

end SmeshDurable.Replay
