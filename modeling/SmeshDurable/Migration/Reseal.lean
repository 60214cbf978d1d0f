import SmeshDurable.Migration.Inline
import SmeshDurable.Policy.Evidence

/-!
# The seals of migrated transcripts

A completed receiver and a finished stream carry the digest of their whole transcript. Their
readers decode the stored frames and compare this digest with that of the events or frames as
they are serialized, each struct in the order of its fields. A batch of the migration writes all
these digests anew, and takes them over documents in which the keys of every object are sorted.
-/

namespace SmeshDurable.Migration

open Json Transaction CanonicalJson Catalog

/-! ## Records and their readers -/

/-- A completed receiver: the documents of its frames, and the columns that seal them. -/
structure CompletedReceiver where
  tenantScope : String
  taskId : String
  dispatchId : String
  frames : List Json
  frameCount : Nat
  transcriptDigest : String
  measuredOutputBytes : Nat
  measuredEventCount : Nat
deriving DecidableEq

/-- A finished stream, and the document of the result it ends with. -/
structure TerminalStream where
  tenantScope : String
  taskId : String
  messageId : String
  frames : List Json
  frameCount : Nat
  transcriptDigest : String
  finalResult : Json
deriving DecidableEq

structure Transcripts where
  receivers : List CompletedReceiver
  streams : List TerminalStream

/-- The evidence of an event is a record of evidence. -/
def HasEvidence : MeshEvent → Prop
  | .evidence document => ∃ evidence : Policy.CompletionEvidence, evidence.toJson = document
  | _ => True

/-- A document is decoded to the event whose serialization it is, in whatever order it has the
keys. -/
structure DecodesEvent (document : Json) (event : MeshEvent) : Prop where
  evidence : HasEvidence event
  same : document.canonical = event.toJson.canonical

structure DecodesFrame (document : Json) (frame : StreamResponse) : Prop where
  numerals : ∀ o, Numerals (frame.toJson o)
  same : document.canonical = (frame.toJson .sorted).canonical

/-- The replay of `begin_receive` returns the events. -/
structure CompletedReceiver.Replays [ContentDigest] (r : CompletedReceiver)
    (events : List MeshEvent) : Prop where
  decoded : List.Forall₂ DecodesEvent r.frames events
  count : r.frameCount = events.length
  digest : r.transcriptDigest = textDigest (encodeEvents events)
  measuredBytes : r.measuredOutputBytes = (events.map MeshEvent.jsonBytes).sum
  measuredEvents : r.measuredEventCount = events.length

/-- The stream is read to the frames, the hash maps in them being serialized in the order `o`. -/
structure TerminalStream.Reads [ContentDigest] (t : TerminalStream) (o : HashOrder)
    (frames : List StreamResponse) : Prop where
  decoded : List.Forall₂ DecodesFrame t.frames frames
  count : t.frameCount = frames.length
  digest : t.transcriptDigest = textDigest (encodeFrames o frames)
  ends : ∃ task, t.finalResult.canonical = (SendMessageResponse.toJson .sorted (.task task)).canonical ∧
    validateTerminalPublicTranscript frames task = true

/-! ## A batch -/

/-- A prepared artifact: where it was found, and the projection that takes its place. -/
structure Projection where
  tenantScope : String
  taskId : String
  artifact : InlineArtifact
  document : Json

/-- The rows of the tables that hold transcripts. -/
inductive SourceKey where
  | receiverFrame (tenantScope dispatchId : String) (frameSeq : Nat)
  | streamFrame (tenantScope messageId : String) (frameSeq : Nat)
  | finalResult (tenantScope messageId : String)
deriving DecidableEq

/-- The projections of a batch in the order of their groups, and the rows these groups name. -/
structure Batch where
  projections : List Projection
  affected : SourceKey → Bool

/-- Every artifact of the row's task that is in the value gives way to its projection. -/
def rewriteRow (projections : List Projection) (tenantScope taskId : String) (value : Json) :
    Except ArtifactStoreError (Json × Nat) :=
  projections.foldlM (fun (value, changed) p =>
    if p.tenantScope = tenantScope ∧ p.taskId = taskId then do
      let found ← extractInlineArtifacts value
      if found.any (·.artifactId == p.artifact.artifactId) then do
        let (value, more) ← p.artifact.rewriteAll value p.document
        .ok (value, changed + more)
      else .ok (value, changed)
    else .ok (value, changed)) (value, 0)

namespace Batch

variable (b : Batch)

/-- The document of a row after the batch: an affected row that changed is written with sorted
keys, every other row keeps its text. -/
def document (key : SourceKey) (tenantScope taskId : String) (stored : Json) :
    Except ArtifactStoreError Json :=
  if b.affected key then do
    let (value, changed) ← rewriteRow b.projections tenantScope taskId stored.canonical
    .ok (if changed = 0 then stored else value.canonical)
  else .ok stored

def receiver (r : CompletedReceiver) : Except ArtifactStoreError CompletedReceiver := do
  let frames ← r.frames.zipIdx.mapM fun (stored, index) =>
    b.document (.receiverFrame r.tenantScope r.dispatchId (index + 1)) r.tenantScope r.taskId stored
  .ok { r with frames }

def stream (t : TerminalStream) : Except ArtifactStoreError TerminalStream := do
  let frames ← t.frames.zipIdx.mapM fun (stored, index) =>
    b.document (.streamFrame t.tenantScope t.messageId (index + 1)) t.tenantScope t.taskId stored
  let finalResult ← b.document (.finalResult t.tenantScope t.messageId) t.tenantScope t.taskId
    t.finalResult
  .ok { t with frames, finalResult }

end Batch

section Seals

variable [ContentDigest]

/-- The text a seal is taken over. -/
def sealedText (frames : List Json) : String := (Json.arr (frames.map canonical)).render

def CompletedReceiver.reseal (r : CompletedReceiver) : CompletedReceiver :=
  { r with
    transcriptDigest := textDigest (sealedText r.frames)
    measuredOutputBytes := (r.frames.map fun stored => stored.render.utf8ByteSize).sum }

def TerminalStream.reseal (t : TerminalStream) : TerminalStream :=
  { t with transcriptDigest := textDigest (sealedText t.frames) }

def recomputeAggregateSeals (s : Transcripts) : Transcripts :=
  ⟨s.receivers.map CompletedReceiver.reseal, s.streams.map TerminalStream.reseal⟩

/-- The part of `commit_batch` that concerns transcripts. -/
def Batch.commit (b : Batch) (s : Transcripts) : Except ArtifactStoreError Transcripts := do
  let receivers ← s.receivers.mapM b.receiver
  let streams ← s.streams.mapM b.stream
  .ok (recomputeAggregateSeals ⟨receivers, streams⟩)

end Seals

/-! ## What the batch leaves readable -/

/-- The events whose serialization has its keys in order. -/
def IsPlain : MeshEvent → Prop
  | .progress _ | .completed _ => True
  | .evidence _ | .artifact .. => False

section Sorted

variable {w : Json} {key : String} {fields : List (String × Json)}

/-- The serialization of a tagged value is canonical only if its members stand in order. -/
theorem members_sorted (h : w.canonical = .obj [(key, .obj fields)]) :
    fields.Pairwise fun a b => a.1 ≤ b.1 := by
  obtain ⟨value, hvalue⟩ := (canonical_eq_obj h).2 _ (List.mem_singleton_self _)
  exact (canonical_eq_obj hvalue).1

theorem isPlain_of_canonical {event : MeshEvent} (hevidence : HasEvidence event)
    (h : w.canonical = event.toJson) : IsPlain event := by
  cases event with
  | progress | completed => trivial
  | artifact name mediaType content =>
    have hsorted := members_sorted h
    simp +decide [List.pairwise_cons] at hsorted
  | evidence document =>
    obtain ⟨evidence, rfl⟩ := hevidence
    cases evidence with
    | ratification | attestation =>
      have hsorted := members_sorted h
      simp +decide [List.pairwise_cons] at hsorted
    | review | test | contradiction =>
      have hsorted := members_sorted h
      simp +decide [List.pairwise_cons, Policy.CompletionEvidence.claimFields] at hsorted

theorem task_not_canonical (o : HashOrder) (task : Task) :
    w.canonical ≠ (StreamResponse.task task).toJson o := by
  intro h
  have hsorted := members_sorted h
  simp +decide [List.pairwise_cons] at hsorted

end Sorted

theorem numerals_event {event : MeshEvent} (h : HasEvidence event) : Numerals event.toJson := by
  have hstr (text : String) : Numerals (.str text) := .str text trivial
  have hnumber (n : Nat) : Numerals (Json.number n) := .num _ (isNumeral_repr n)
  have hbool (value : Bool) : Numerals (.bool value) := .bool value trivial
  cases event with
  | progress | completed | artifact => simp [MeshEvent.toJson, numerals_obj, hstr]
  | evidence document =>
    obtain ⟨evidence, rfl⟩ := h
    cases evidence <;>
      simp [MeshEvent.toJson, numerals_obj, numerals_arr, hstr, hnumber, hbool,
        Policy.CompletionEvidence.toJson, Policy.CompletionEvidence.claimFields,
        Policy.ClosedAttestation.toJson, Policy.RatificationStatement.toJson]

section Sealed

variable {α : Type} {R : Json → α → Prop} {serialize : α → Json} {documents : List Json}
  {values : List α}

theorem numerals_of_decoded (h : List.Forall₂ R documents values)
    (hR : ∀ v a, R v a → Numerals v.canonical ∧ Numerals (serialize a)) :
    Numerals (.arr (documents.map canonical)) ∧ Numerals (.arr (values.map serialize)) := by
  simp only [numerals_arr, List.forall_mem_map]
  induction h with
  | nil => simp
  | cons hhead _ ih =>
    obtain ⟨hdocument, hvalue⟩ := hR _ _ hhead
    exact ⟨List.forall_mem_cons.mpr ⟨hdocument, ih.1⟩, List.forall_mem_cons.mpr ⟨hvalue, ih.2⟩⟩

/-- Documents are sealed as what they decode to is serialized only where the serializations have
their keys in order. -/
theorem canonical_of_sealedText (h : List.Forall₂ R documents values)
    (hR : ∀ v a, R v a → Numerals v.canonical ∧ Numerals (serialize a))
    (htext : sealedText documents = (Json.arr (values.map serialize)).render) :
    List.Forall₂ (fun v a => R v a ∧ v.canonical = serialize a) documents values := by
  obtain ⟨hdocuments, hvalues⟩ := numerals_of_decoded h hR
  have heq := render_injective hdocuments hvalues htext
  rw [Json.arr.injEq] at heq
  clear hdocuments hvalues htext
  induction h with
  | nil => exact .nil
  | cons hhead _ ih =>
    obtain ⟨hcanonical, hrest⟩ := List.cons.inj heq
    exact .cons ⟨hhead, hcanonical⟩ (ih hrest)

end Sealed

theorem DecodesEvent.numerals {stored : Json} {event : MeshEvent} (h : DecodesEvent stored event) :
    Numerals stored.canonical ∧ Numerals event.toJson := by
  have hevent := numerals_event h.evidence
  exact ⟨h.same ▸ hevent.canonical, hevent⟩

theorem DecodesFrame.numerals_both {stored : Json} {frame : StreamResponse}
    (h : DecodesFrame stored frame) (o : HashOrder) :
    Numerals stored.canonical ∧ Numerals (frame.toJson o) :=
  ⟨h.same ▸ (h.numerals .sorted).canonical, h.numerals o⟩

/-- A plain event has one serialization, and the migration finds nothing in it. -/
theorem DecodesEvent.eq_of_isPlain {stored : Json} {event : MeshEvent} (h : DecodesEvent stored event)
    (hplain : IsPlain event) : stored = event.toJson := by
  have hsame := h.same
  cases event with
  | progress text =>
    obtain ⟨value, rfl, hvalue⟩ := canonical_eq_obj_singleton hsame
    rw [canonical_eq_str hvalue, MeshEvent.toJson]
  | completed summary =>
    obtain ⟨members, rfl, hmembers⟩ := canonical_eq_obj_singleton hsame
    obtain ⟨value, rfl, hvalue⟩ := canonical_eq_obj_singleton hmembers
    rw [canonical_eq_str hvalue, MeshEvent.toJson]
  | evidence | artifact => cases hplain

theorem canonical_of_isPlain {event : MeshEvent} (hplain : IsPlain event) :
    event.toJson.canonical = event.toJson ∧ extractInlineArtifacts event.toJson = .ok [] := by
  cases event with
  | progress | completed => exact ⟨rfl, rfl⟩
  | evidence | artifact => cases hplain

section Readable

variable [ContentDigest] {b : Batch} {o : HashOrder} {s s' : Transcripts}

/-- The batch makes the one frame of the other. -/
def Batch.Projects (b : Batch) (tenantScope taskId : String) (frame frame' : StreamResponse) : Prop :=
  ∃ value changed, rewriteRow b.projections tenantScope taskId (frame.toJson .sorted).canonical =
    .ok (value, changed) ∧ (frame'.toJson .sorted).canonical = value.canonical

/-- Every receiver replays the same events, and every stream is read to the same frames up to the
artifacts that the batch projects. -/
structure StaysReadable (b : Batch) (o : HashOrder) (s s' : Transcripts) : Prop where
  receivers : List.Forall₂ (fun r r' : CompletedReceiver => ∀ events, r.Replays events →
    r'.Replays events) s.receivers s'.receivers
  streams : List.Forall₂ (fun t t' : TerminalStream => ∀ o' frames, t.Reads o' frames →
    ∃ frames', t'.Reads o frames' ∧
      List.Forall₂ (b.Projects t.tenantScope t.taskId) frames frames') s.streams s'.streams

/-- The texts that are hashed when the records are sealed and when they are read. -/
def Transcripts.texts (s : Transcripts) (o : HashOrder) : Set String :=
  {text | (∃ r ∈ s.receivers, text = sealedText r.frames ∨
      ∃ events, List.Forall₂ DecodesEvent r.frames events ∧ text = encodeEvents events) ∨
    ∃ t ∈ s.streams, text = sealedText t.frames ∨
      ∃ frames, List.Forall₂ DecodesFrame t.frames frames ∧ text = encodeFrames o frames}

variable (hhash : Set.InjOn textDigest (s.texts o))

include hhash in
/-- A receiver that was sealed by a batch replays plain events only. -/
theorem CompletedReceiver.Replays.isPlain {r : CompletedReceiver} {events : List MeshEvent}
    (hr : r ∈ s.receivers) (hsealed : r.transcriptDigest = textDigest (sealedText r.frames))
    (h : r.Replays events) : ∀ event ∈ events, IsPlain event := by
  have htext : sealedText r.frames = encodeEvents events :=
    hhash (.inl ⟨r, hr, .inl rfl⟩) (.inl ⟨r, hr, .inr ⟨events, h.decoded, rfl⟩⟩)
      (hsealed.symm.trans h.digest)
  have hcanonical := canonical_of_sealedText h.decoded (fun _ _ hdecodes => hdecodes.numerals) htext
  clear htext h
  generalize r.frames = documents at hcanonical
  induction hcanonical with
  | nil => simp
  | cons hhead _ ih =>
    exact List.forall_mem_cons.mpr ⟨isPlain_of_canonical hhead.1.evidence hhead.2, ih⟩

include hhash in
/-- A stream that was sealed by a batch is not read to any frames. -/
theorem TerminalStream.not_reads {t : TerminalStream} {frames : List StreamResponse}
    (ht : t ∈ s.streams) (hsealed : t.transcriptDigest = textDigest (sealedText t.frames)) :
    ¬ t.Reads o frames := by
  intro h
  have htext : sealedText t.frames = encodeFrames o frames :=
    hhash (.inr ⟨t, ht, .inl rfl⟩) (.inr ⟨t, ht, .inr ⟨frames, h.decoded, rfl⟩⟩)
      (hsealed.symm.trans h.digest)
  have hcanonical := canonical_of_sealedText h.decoded
    (fun _ _ hdecodes => hdecodes.numerals_both o) htext
  obtain ⟨task, -, hvalid⟩ := h.ends
  generalize t.frames = documents at hcanonical
  cases hcanonical with
  | nil => simp [validateTerminalPublicTranscript] at hvalid
  | @cons _ frame _ _ hhead _ =>
    cases frame with
    | task initial => exact task_not_canonical o initial hhead.2
    | message | statusUpdate | artifactUpdate =>
      simp [validateTerminalPublicTranscript] at hvalid

omit [ContentDigest] in
theorem rewriteRow_of_nothing {value : Json} (h : extractInlineArtifacts value = .ok [])
    (projections : List Projection) (tenantScope taskId : String) :
    rewriteRow projections tenantScope taskId value = .ok (value, 0) := by
  induction projections with
  | nil => rfl
  | cons p rest ih =>
    rw [rewriteRow, List.foldlM_cons, bind_eq_ok]
    refine ⟨(value, 0), ?_, ih⟩
    dsimp only
    split
    · rw [h]
      rfl
    · rfl

omit [ContentDigest] in
theorem frames_eq_of_isPlain {documents : List Json} {events : List MeshEvent}
    (hdecoded : List.Forall₂ DecodesEvent documents events)
    (hplain : ∀ event ∈ events, IsPlain event) : documents = events.map MeshEvent.toJson := by
  induction hdecoded with
  | nil => rfl
  | cons hhead _ ih =>
    obtain ⟨hevent, hrest⟩ := List.forall_mem_cons.mp hplain
    rw [hhead.eq_of_isPlain hevent, ih hrest, List.map_cons]

omit [ContentDigest] in
/-- A batch does not change the frames of a receiver with plain events. -/
theorem Batch.receiver_of_isPlain {r : CompletedReceiver} {events : List MeshEvent}
    (hframes : r.frames = events.map MeshEvent.toJson)
    (hplain : ∀ event ∈ events, IsPlain event) : b.receiver r = .ok r := by
  have hdocument : ∀ stored ∈ r.frames, ∀ key tenantScope taskId,
      b.document key tenantScope taskId stored = .ok stored := by
    intro stored hstored key tenantScope taskId
    rw [hframes, List.mem_map] at hstored
    obtain ⟨event, hevent, rfl⟩ := hstored
    obtain ⟨hcanonical, hnothing⟩ := canonical_of_isPlain (hplain event hevent)
    rw [Batch.document, hcanonical]
    split
    · rw [rewriteRow_of_nothing hnothing]
      rfl
    · rfl
  rw [Batch.receiver, bind_eq_ok]
  refine ⟨r.frames, mapM_eq_ok.mpr ?_, rfl⟩
  conv => arg 3; rw [← List.zipIdx_map_fst 0 r.frames]
  rw [List.forall₂_map_right_iff, List.forall₂_same]
  intro entry hentry
  exact hdocument entry.1 (List.fst_mem_of_mem_zipIdx hentry) _ _ _

theorem CompletedReceiver.Replays.reseal {r : CompletedReceiver} {events : List MeshEvent}
    (h : r.Replays events) (hplain : ∀ event ∈ events, IsPlain event) :
    r.reseal.Replays events := by
  have hframes := frames_eq_of_isPlain h.decoded hplain
  have hcanonical : (events.map MeshEvent.toJson).map canonical = events.map MeshEvent.toJson := by
    rw [List.map_map]
    exact List.map_congr_left fun event hevent => (canonical_of_isPlain (hplain event hevent)).1
  refine ⟨h.decoded, h.count, ?_, ?_, h.measuredEvents⟩
  · change textDigest (sealedText r.frames) = _
    rw [sealedText, hframes, hcanonical, encodeEvents]
  · change (r.frames.map fun stored => stored.render.utf8ByteSize).sum = _
    rw [hframes, List.map_map]
    rfl

/-- What a batch makes of the records. -/
theorem Batch.commit_eq_ok (h : b.commit s = .ok s') :
    List.Forall₂ (fun r r' => ∃ r₁, b.receiver r = .ok r₁ ∧ r' = r₁.reseal) s.receivers
        s'.receivers ∧
      List.Forall₂ (fun t t' => ∃ t₁, b.stream t = .ok t₁ ∧ t' = t₁.reseal) s.streams
        s'.streams := by
  rw [Batch.commit, bind_eq_ok] at h
  obtain ⟨receivers, hreceivers, h⟩ := h
  obtain ⟨streams, hstreams, h⟩ := bind_eq_ok.mp h
  obtain rfl := Except.ok.inj h
  rw [mapM_eq_ok] at hreceivers hstreams
  constructor
  · exact List.forall₂_map_right_iff.mpr (hreceivers.imp fun r r₁ hr => ⟨r₁, hr, rfl⟩)
  · exact List.forall₂_map_right_iff.mpr (hstreams.imp fun t t₁ ht => ⟨t₁, ht, rfl⟩)

/-- After a batch the records are read as before exactly if there is no finished stream and every
completed receiver has events of progress and completion only. -/
theorem transcripts_stay_readable_iff (hcommit : b.commit s = .ok s')
    (hhash : Set.InjOn textDigest (s'.texts o))
    (hstreams : ∀ t ∈ s.streams, ∃ o' frames, t.Reads o' frames) :
    StaysReadable b o s s' ↔ s.streams = [] ∧
      ∀ r ∈ s.receivers, ∀ events, r.Replays events → ∀ event ∈ events, IsPlain event := by
  obtain ⟨hreceivers, hends⟩ := Batch.commit_eq_ok hcommit
  constructor
  · intro hstays
    have hstreams' := List.Forall₂.mp (fun _ _ => And.intro) hends hstays.streams
    have hreceivers' := List.Forall₂.mp (fun _ _ => And.intro) hreceivers hstays.receivers
    constructor
    · rw [List.eq_nil_iff_forall_not_mem]
      intro t ht
      obtain ⟨o', frames, hreads⟩ := hstreams t ht
      obtain ⟨t', ht', ⟨t₁, -, rfl⟩, hkept⟩ := exists_of_forall₂ (List.Forall₂.flip hstreams') ht
      obtain ⟨frames', hreads', -⟩ := hkept o' frames hreads
      exact TerminalStream.not_reads hhash ht' rfl hreads'
    · intro r hr events hreplays
      obtain ⟨r', hr', ⟨r₁, -, rfl⟩, hkept⟩ := exists_of_forall₂ (List.Forall₂.flip hreceivers') hr
      exact (hkept events hreplays).isPlain hhash hr' rfl
  · rintro ⟨hnone, hplain⟩
    refine ⟨?_, ?_⟩
    · have hmem := (List.forall₂_and_left _ _).mpr ⟨fun r hr => hr, hreceivers⟩
      refine hmem.imp ?_
      rintro r r' ⟨hr, r₁, hr₁, rfl⟩ events hreplays
      have hevents := hplain r hr events hreplays
      rw [Batch.receiver_of_isPlain (frames_eq_of_isPlain hreplays.decoded hevents) hevents] at hr₁
      obtain rfl := Except.ok.inj hr₁
      exact hreplays.reseal hevents
    · rw [hnone, List.forall₂_nil_left_iff] at hends
      rw [hnone, hends]
      exact .nil

end Readable

/-! ## Two receivers -/

/-- A digest that tells one text from all others. -/
@[reducible] def markDigest (marked : String) : ContentDigest where
  contentDigest bytes := String.ofList
    (List.replicate 71 (if bytes = marked.toUTF8.data.toList then '1' else '0'))
  contentDigest_size bytes := by
    rw [Checksum.utf8ByteSize_ofList_ascii]
    · simp
    · intro c hc
      rw [List.eq_of_mem_replicate hc]
      split <;> rfl

theorem eq_of_markDigest {text marked : String}
    (h : @textDigest (markDigest marked) text = @textDigest (markDigest marked) marked) :
    text = marked := by
  by_contra hne
  have hbytes : text.toUTF8.data.toList ≠ marked.toUTF8.data.toList :=
    fun heq => hne (TextLines.bytes_injective heq)
  change String.ofList (List.replicate 71 (if _ then '1' else '0')) =
    String.ofList (List.replicate 71 (if _ then '1' else '0')) at h
  rw [if_neg hbytes, if_pos rfl, String.ofList_inj] at h
  simp at h

/-- A receiver as its completion with the events leaves it. -/
def sampleReceiver [ContentDigest] (events : List MeshEvent) : CompletedReceiver :=
  ⟨"tenant", "task", "dispatch", events.map MeshEvent.toJson, events.length,
    textDigest (encodeEvents events), (events.map MeshEvent.jsonBytes).sum, events.length⟩

theorem sampleReceiver_replays [ContentDigest] {events : List MeshEvent}
    (h : ∀ event ∈ events, HasEvidence event) : (sampleReceiver events).Replays events := by
  refine ⟨?_, rfl, rfl, rfl, rfl⟩
  change List.Forall₂ DecodesEvent (events.map MeshEvent.toJson) events
  rw [List.forall₂_map_left_iff, List.forall₂_same]
  exact fun event hevent => ⟨h event hevent, rfl⟩

/-- A batch for another task. -/
def sampleBatch : Batch :=
  ⟨[⟨"tenant", "other", ⟨"a", none, none, [⟨.text, [120], none, none⟩], []⟩, .obj []⟩], fun _ => false⟩

theorem decodes_plain {events events' : List MeshEvent} (hplain : ∀ event ∈ events, IsPlain event)
    (h : List.Forall₂ DecodesEvent (events.map MeshEvent.toJson) events') : events' = events := by
  rw [List.forall₂_map_left_iff] at h
  induction h with
  | nil => rfl
  | @cons event event' _ _ hevent _ ih =>
    have hsame := hevent.same
    have hhead : event' = event := by
      have hkept := hplain event (.head _)
      cases event <;> cases event' <;>
        simp_all [MeshEvent.toJson, canonical, canonicalFields, sortFields, insertField, IsPlain]
    rw [hhead, ih fun event hevent => hplain event (.tail _ hevent)]

def plainEvents : List MeshEvent := [.progress "half", .completed "done"]

theorem isPlain_plainEvents : ∀ event ∈ plainEvents, IsPlain event := by
  simp [plainEvents, IsPlain]

/-- A receiver that reported its progress and completed is read as before. -/
theorem completed_receiver_stays_readable :
    letI := checksumDigest
    sampleBatch.commit ⟨[sampleReceiver plainEvents], []⟩ =
        .ok ⟨[(sampleReceiver plainEvents).reseal], []⟩ ∧
      StaysReadable sampleBatch .sorted ⟨[sampleReceiver plainEvents], []⟩
        ⟨[(sampleReceiver plainEvents).reseal], []⟩ := by
  let digest := checksumDigest
  have hcommit : sampleBatch.commit ⟨[sampleReceiver plainEvents], []⟩ =
      .ok ⟨[(sampleReceiver plainEvents).reseal], []⟩ := rfl
  refine ⟨hcommit, (transcripts_stay_readable_iff hcommit ?_ (by simp)).mpr ⟨rfl, ?_⟩⟩
  · have hone : ∀ text ∈ Transcripts.texts ⟨[(sampleReceiver plainEvents).reseal], []⟩ .sorted,
        text = encodeEvents plainEvents := by
      rintro text (⟨r, hr, htext⟩ | ⟨t, ht, -⟩)
      · obtain rfl := List.mem_singleton.mp hr
        rcases htext with rfl | ⟨events, hevents, rfl⟩
        · rfl
        · rw [decodes_plain isPlain_plainEvents hevents]
      · cases ht
    intro a ha c hc _
    rw [hone a ha, hone c hc]
  · intro r hr events hreplays
    obtain rfl := List.mem_singleton.mp hr
    rw [decodes_plain isPlain_plainEvents hreplays.decoded]
    exact isPlain_plainEvents

def artifactEvents : List MeshEvent := [.artifact "a" "text/plain" "x", .completed "done"]

/-- A receiver with an artifact cannot be replayed after a batch for another task. -/
theorem untouched_receiver_corrupted :
    letI := markDigest (encodeEvents artifactEvents)
    (sampleReceiver artifactEvents).Replays artifactEvents ∧
      sampleBatch.commit ⟨[sampleReceiver artifactEvents], []⟩ =
        .ok ⟨[(sampleReceiver artifactEvents).reseal], []⟩ ∧
      ¬ (sampleReceiver artifactEvents).reseal.Replays artifactEvents := by
  let digest := markDigest (encodeEvents artifactEvents)
  refine ⟨sampleReceiver_replays (by simp [artifactEvents, HasEvidence]), rfl, fun h => ?_⟩
  have hcanonical := canonical_of_sealedText h.decoded (fun _ _ hdecodes => hdecodes.numerals)
    (eq_of_markDigest h.digest)
  cases hcanonical with
  | cons hhead _ => exact isPlain_of_canonical hhead.1.evidence hhead.2

end SmeshDurable.Migration
