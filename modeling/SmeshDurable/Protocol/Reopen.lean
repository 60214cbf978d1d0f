import Mathlib.Algebra.Order.BigOperators.Group.List
import SmeshDurable.Protocol.Relations
import SmeshDurable.Protocol.Sizes

/-!
# States the startup checks accept

What has to hold, beyond the invariant of every reachable state, for the checks of receiver
rows, public transcripts and cancellation intents to accept a database. A transcript must
be stored in frames that have a single encoding, since the check encodes the frames it has
decoded and compares digests; an intent must fit the state of its outbox row; and the sums
of the column lengths must stay within the limits.
-/

namespace SmeshDurable

open Transaction

variable [ContentDigest] {s : Store} {now : Int} {d d' : Dispatch} {row : TaskRow}
  {o : HashOrder} {t : TranscriptRow}

/-! ## Frames -/

omit [ContentDigest] in
theorem encodeFrames_orderFree {frames : List StreamResponse} (o' : HashOrder)
    (hfree : ∀ frame ∈ frames, frame.orderFree = true) :
    encodeFrames o frames = encodeFrames o' frames := by
  rw [encodeFrames, encodeFrames]
  exact congrArg (fun items => (Json.arr items).render)
    (List.map_congr_left fun frame hframe => frame.toJson_orderFree o o' (hfree frame hframe))

/-- A frame row in its place: numbered and digested, within the limit, and with only one
encoding. -/
structure FrameIntact (row : FrameRow) (index : Nat) : Prop where
  seq : row.frameSeq = index + 1
  digest : row.frameDigest = textDigest row.frameJson
  json : row.frameJson.utf8ByteSize = row.frame.jsonBytes
  size : row.frame.jsonBytes ≤ maxAtomicJsonBytes
  free : row.frame.orderFree = true

theorem FrameIntact.ofFrame {frame : StreamResponse} (index : Nat)
    (hsize : frame.jsonBytes ≤ maxAtomicJsonBytes) (hfree : frame.orderFree = true) :
    FrameIntact (FrameRow.ofFrame o (index + 1) frame now) index :=
  ⟨rfl, rfl, frame.size_toJson o, hsize, hfree⟩

/-- A transcript that the startup pass accepts, in whatever order it visits the decoded
maps. -/
structure TranscriptReopens (d : Dispatch) (t : TranscriptRow) : Prop where
  named : d.taskId.isEmpty = false
  message : d.messageId.isEmpty = false ∧ d.messageId.utf8ByteSize ≤ maxAtomicTextBytes
  diagnostic : optionalBytes t.state.interruption ≤ maxAtomicTextBytes
  count_le : t.frames.length ≤ maxStreamFrames
  positive : 0 < t.frames.length
  rows : ∀ i row, t.frames[i]? = some row → FrameIntact row i
  digest : t.transcriptDigest = textDigest (encodeFrames .sorted (t.frames.map FrameRow.frame))
  final : ∀ terminalSeq, t.state = .terminal terminalSeq →
    ∃ task, d.record.finalResult = some (.task task)

namespace TranscriptReopens

theorem orderFree (h : TranscriptReopens d t) :
    ∀ frame ∈ t.frames.map FrameRow.frame, frame.orderFree = true := by
  intro frame hframe
  obtain ⟨row, hrow, rfl⟩ := List.mem_map.mp hframe
  obtain ⟨i, hi⟩ := List.mem_iff_getElem?.mp hrow
  exact (h.rows i row hi).free

/-- The stored columns of a transcript are longer than its encoding. -/
theorem encodeFrames_le_streamBytes (h : TranscriptReopens d t) (ht : d.transcript = some t) :
    (encodeFrames o (t.frames.map FrameRow.frame)).utf8ByteSize ≤ d.streamBytes := by
  have hdigest : t.transcriptDigest.utf8ByteSize = 71 := by rw [h.digest, textDigest_size]
  have hrows : ((t.frames.map FrameRow.frame).map StreamResponse.jsonBytes).sum +
      71 * t.frames.length ≤
      (t.frames.map fun row => d.tenantScope.utf8ByteSize + d.messageId.utf8ByteSize +
        (publicStreamKind row.frame).utf8ByteSize + row.frameJson.utf8ByteSize +
          row.frameDigest.utf8ByteSize).sum := by
    have hbound : ∀ row ∈ t.frames, row.frame.jsonBytes + 71 ≤
        d.tenantScope.utf8ByteSize + d.messageId.utf8ByteSize +
          (publicStreamKind row.frame).utf8ByteSize + row.frameJson.utf8ByteSize +
            row.frameDigest.utf8ByteSize := by
      intro row hrow
      obtain ⟨i, hi⟩ := List.mem_iff_getElem?.mp hrow
      have hintact := h.rows i row hi
      rw [hintact.json, hintact.digest, textDigest_size]
      omega
    have hsum := List.sum_le_sum hbound
    simpa [List.sum_map_add, Nat.mul_comm, Function.comp_def] using hsum
  rw [encodeFrames_size, Dispatch.streamBytes, ht, Option.elim_some, List.length_map]
  omega

/-- Loading the transcript succeeds. -/
theorem intact (h : TranscriptReopens d t) (hvalid : TranscriptValid d t)
    (hcoherent : Coherent row d) (ht : d.transcript = some t)
    (hbytes : d.streamBytes ≤ maxStoreJsonBytes) :
    TranscriptIntact o t d.record.finalResult := by
  refine ⟨h.diagnostic, hvalid.count ▸ h.count_le, fun _ => hvalid.count ▸ h.positive, ?_,
    by rw [List.length_map, hvalid.count], (h.encodeFrames_le_streamBytes ht).trans hbytes,
    by rw [h.digest, encodeFrames_orderFree .sorted h.orderFree], ?_, ?_⟩
  · rw [List.all_eq_true]
    rintro ⟨row, i⟩ hmem
    have hintact := h.rows i row (List.mem_zipIdx_iff_getElem?.mp hmem)
    simp [hintact.seq, hintact.digest, hintact.json, hintact.size]
  · intro terminalSeq hstate
    have hsettled : d.active = false := by
      have hclosed := hvalid.state
      simp only [hstate] at hclosed
      rcases hclosed.1 with hstate | hstate <;> simp [Dispatch.active, hstate]
    obtain ⟨event, -, hby⟩ := hcoherent.settled hsettled
    obtain ⟨task, htask⟩ := h.final terminalSeq hstate
    obtain ⟨result, hresult, hmatches⟩ := hby.final
    obtain rfl : .task task = result := Option.some.inj (htask.symm.trans hresult)
    have heq : task = event.eventTask := by simpa [finalResultMatchesTask] using hmatches
    exact ⟨task, htask, heq ▸ hby.terminal t ht terminalSeq hstate⟩
  · intro hopen
    obtain ⟨initial, updates, hframes, hinitial, hupdates⟩ := hvalid.unclosed hopen
    rw [hframes, List.any_cons, Bool.or_eq_false_iff]
    refine ⟨hinitial, List.any_eq_false.mpr fun frame hframe => ?_⟩
    -- a working update does not close its dispatch
    have hworking := List.all_eq_true.mp hupdates frame hframe
    cases frame with
    | task => cases hworking
    | message => cases hworking
    | artifactUpdate => cases hworking
    | statusUpdate update =>
      have hstate : update.status.state = .working := by
        simpa [isWorkingUpdate] using hworking
      simp [frameCloses, hstate, isDispatchClosed, TaskState.isTerminal]

end TranscriptReopens

/-! ## Stores -/

/-- A requested cancellation has a live outbox row; one that the receiver answered has a
leased or delivered one. -/
def IntentFits (d : Dispatch) : Prop :=
  ∀ intent ∈ d.intent,
    match intent.state with
    | .requested => d.active = true
    | .receiverCanceled _ => d.state = .leased ∨ d.state = .delivered

/-- The columns an outbox row is admitted with. -/
def Dispatch.identityBytes (d : Dispatch) : Nat :=
  d.dispatchId.utf8ByteSize + d.tenantScope.utf8ByteSize + d.taskId.utf8ByteSize +
    d.payloadDigest.utf8ByteSize

/-- What the three checks need of the dispatches. -/
structure Reopens (dispatches : List Dispatch) : Prop where
  intents : ∀ d ∈ dispatches, IntentFits d
  transcripts : ∀ d ∈ dispatches, ∀ t ∈ d.transcript, TranscriptReopens d t
  inboxBytes : (dispatches.map Dispatch.inboxBytes).sum ≤ maxStoreJsonBytes
  streamBytes : (dispatches.map Dispatch.streamBytes).sum ≤ maxStoreJsonBytes
  identityBytes : (dispatches.map Dispatch.identityBytes).sum ≤ maxStoreJsonBytes

theorem Reopens.empty : Reopens [] :=
  ⟨fun _ hd => absurd hd List.not_mem_nil, fun _ hd => absurd hd List.not_mem_nil,
    Nat.zero_le _, Nat.zero_le _, Nat.zero_le _⟩

namespace Reopens

end Reopens

end SmeshDurable
