import SmeshDurable.Protocol.Reopen

/-!
# Changes that keep a database acceptable

Each change of the store keeps what the startup checks need, most of them under a condition
on the rows it concerns.
-/

namespace SmeshDurable

open Transaction

variable [ContentDigest] {cfg : Config} {s : Store} {now : Int} {d d' : Dispatch} {row : TaskRow}
  {o decoded : HashOrder} {t : TranscriptRow} {rows : List Dispatch}

/-! ## Sizes -/

omit [ContentDigest] in
theorem takeBytes_size (budget : Nat) (chars : List Char) :
    (String.ofList (takeBytes budget chars)).utf8ByteSize ≤ budget := by
  induction chars generalizing budget with
  | nil => exact Nat.zero_le _
  | cons c rest ih =>
    rw [takeBytes]
    by_cases hfits : c.utf8Size ≤ budget
    · rw [if_pos hfits, String.ofList_cons, String.utf8ByteSize_append,
        String.utf8ByteSize_singleton]
      have hrest := ih (budget - c.utf8Size)
      omega
    · rw [if_neg hfits]
      exact Nat.zero_le _

omit [ContentDigest] in
theorem interruptionError_size (error : String) :
    (interruptionError error).utf8ByteSize ≤ maxAtomicTextBytes := by
  have hpre : streamInterruptionPrefix.utf8ByteSize ≤ maxAtomicTextBytes := by decide
  rw [interruptionError, String.utf8ByteSize_append]
  have htaken := takeBytes_size (maxAtomicTextBytes - streamInterruptionPrefix.utf8ByteSize)
    error.toList
  omega

/-! ## Transcripts -/

namespace TranscriptReopens

theorem openTranscript {task : Task} (hnamed : d.taskId.isEmpty = false)
    (hmessage : d.messageId.isEmpty = false ∧ d.messageId.utf8ByteSize ≤ maxAtomicTextBytes)
    (hsize : (StreamResponse.task task).jsonBytes ≤ maxAtomicJsonBytes)
    (hfree : (StreamResponse.task task).orderFree = true) :
    TranscriptReopens d (openTranscript o task now) := by
  refine ⟨hnamed, hmessage, Nat.zero_le _, Nat.one_le_iff_ne_zero.mpr (by decide),
    Nat.one_pos, ?_, ?_, fun _ hstate => by cases hstate⟩
  · intro i row hrow
    cases i with
    | zero =>
      obtain rfl := Option.some.inj hrow
      exact .ofFrame 0 hsize hfree
    | succ i => cases hrow
  · refine congrArg textDigest (encodeFrames_orderFree .sorted ?_)
    intro frame hframe
    rwa [List.mem_singleton.mp hframe]

/-- A transcript with more frames, in a dispatch that keeps its identity. -/
theorem extend {t' : TranscriptRow} {extra : List FrameRow} (h : TranscriptReopens d t)
    (hidentity : SameIdentity d d') (hframes : t'.frames = t.frames ++ extra)
    (hextra : ∀ i row, extra[i]? = some row → FrameIntact row (t.frames.length + i))
    (hcount : t'.frames.length ≤ maxStreamFrames)
    (hdiagnostic : optionalBytes t'.state.interruption ≤ maxAtomicTextBytes)
    (hdigest : t'.transcriptDigest =
      textDigest (encodeFrames .sorted (t'.frames.map FrameRow.frame)))
    (hfinal : ∀ terminalSeq, t'.state = .terminal terminalSeq →
      ∃ task, d'.record.finalResult = some (.task task)) :
    TranscriptReopens d' t' := by
  refine ⟨hidentity.taskId ▸ h.named, hidentity.messageId ▸ h.message, hdiagnostic, hcount, ?_, ?_,
    hdigest, hfinal⟩
  · rw [hframes, List.length_append]
    exact Nat.add_pos_left h.positive _
  · intro i row hrow
    rw [hframes] at hrow
    by_cases hi : i < t.frames.length
    · rw [List.getElem?_append_left hi] at hrow
      exact h.rows i row hrow
    · rw [List.getElem?_append_right (Nat.le_of_not_lt hi)] at hrow
      have hintact := hextra _ row hrow
      rwa [Nat.add_sub_cancel' (Nat.le_of_not_lt hi)] at hintact

/-- A transcript interrupted, or as it was. -/
theorem interrupt {error : String} (h : TranscriptReopens d t) (hidentity : SameIdentity d d')
    (hfinal : t.state ≠ .open → d'.record.finalResult = d.record.finalResult) :
    TranscriptReopens d' (t.interrupt error now) := by
  rw [TranscriptRow.interrupt]
  by_cases hopen : t.state = .open
  · rw [if_pos hopen]
    refine h.extend hidentity (List.append_nil _).symm (fun i row hrow => by cases hrow) h.count_le
      (interruptionError_size error) h.digest (fun _ hstate => by cases hstate)
  · rw [if_neg hopen]
    exact h.extend hidentity (List.append_nil _).symm (fun i row hrow => by cases hrow) h.count_le
      h.diagnostic h.digest (hfinal hopen ▸ h.final)

/-- A frame appended, and the transcript perhaps closed with it. -/
theorem append {frame : StreamResponse} {state : TranscriptState} (h : TranscriptReopens d t)
    (hidentity : SameIdentity d d') (hsize : frame.jsonBytes ≤ maxAtomicJsonBytes)
    (hfree : frame.orderFree = true) (hcount : t.frames.length + 1 ≤ maxStreamFrames)
    (hdiagnostic : optionalBytes state.interruption ≤ maxAtomicTextBytes)
    (hfinal : ∀ terminalSeq, state = .terminal terminalSeq →
      ∃ task, d'.record.finalResult = some (.task task)) :
    TranscriptReopens d'
      { t.append o decoded (t.frames.map FrameRow.frame) frame now with state } := by
  have hframes : (t.append o decoded (t.frames.map FrameRow.frame) frame now).frames =
      t.frames ++ [FrameRow.ofFrame o (t.frames.length + 1) frame now] := by
    simp [TranscriptRow.append]
  refine h.extend hidentity hframes ?_ ?_ hdiagnostic ?_ hfinal
  · intro i row hrow
    cases i with
    | zero =>
      obtain rfl := Option.some.inj hrow
      exact .ofFrame _ hsize hfree
    | succ i => cases hrow
  · show (t.append o decoded (t.frames.map FrameRow.frame) frame now).frames.length ≤ _
    rw [hframes, List.length_append]
    exact hcount
  · have hencode : (t.frames.map FrameRow.frame).map (StreamResponse.toJson decoded) ++
        [frame.toJson o] =
        ((t.frames.map FrameRow.frame) ++ [frame]).map (StreamResponse.toJson .sorted) := by
      rw [List.map_append, List.map_singleton, frame.toJson_orderFree o .sorted hfree]
      congr 1
      exact List.map_congr_left fun x hx => x.toJson_orderFree decoded .sorted (h.orderFree x hx)
    show textDigest _ = _
    rw [hencode, Change.append_frames]
    rfl

/-- The transcript closed by a delivery that continues it. -/
theorem deliver {frames : List StreamResponse} (h : TranscriptReopens d t)
    (hidentity : SameIdentity d d') (hvalid : TranscriptValid d t)
    (hpre : t.frames.map FrameRow.frame <+: frames) (hcount : frames.length ≤ maxStreamFrames)
    (hsizes : ∀ frame ∈ frames, frame.jsonBytes ≤ maxAtomicJsonBytes)
    (hfree : ∀ frame ∈ frames, frame.orderFree = true)
    (hfinal : ∃ task, d'.record.finalResult = some (.task task)) :
    TranscriptReopens d' (t.deliver o frames now) := by
  have hframes : (t.deliver o frames now).frames.map FrameRow.frame = frames :=
    Change.deliver_frames hvalid.count hpre
  refine h.extend hidentity rfl ?_ ?_ (Nat.zero_le _) ?_ (fun _ _ => hfinal)
  · intro i row hrow
    rw [List.getElem?_map, Option.map_eq_some_iff] at hrow
    obtain ⟨⟨frame, index⟩, hentry, rfl⟩ := hrow
    rw [List.getElem?_drop, hvalid.count] at hentry
    obtain ⟨hframe, rfl⟩ : frames[t.frames.length + i]? = some frame ∧
        t.frames.length + i = index := by
      simpa [List.getElem?_zipIdx, and_comm] using hentry
    have hmem := List.mem_of_getElem? hframe
    exact .ofFrame _ (hsizes frame hmem) (hfree frame hmem)
  · have hlength := congrArg List.length hframes
    rw [List.length_map] at hlength
    rw [hlength]
    exact hcount
  · rw [hframes]
    exact congrArg textDigest (encodeFrames_orderFree .sorted hfree)

end TranscriptReopens

/-! ## Replacing and adding a dispatch -/

omit [ContentDigest] in
theorem sum_put_of_eq {f : Dispatch → Nat} (hunique : Keyed.Unique Dispatch.outboxId rows)
    (hd : d ∈ rows) (hid : d'.outboxId = d.outboxId) (hf : f d' = f d) :
    ((Keyed.put Dispatch.outboxId rows d').map f).sum = (rows.map f).sum := by
  have hsum := Keyed.sum_put (f := f) hunique hd hid
  omega

namespace Reopens

/-- A dispatch put back. -/
theorem put (h : Reopens rows) (hunique : Keyed.Unique Dispatch.outboxId rows) (hd : d ∈ rows)
    (hidentity : SameIdentity d d') (hpayload : d'.payloadDigest = d.payloadDigest)
    (hfits : IntentFits d') (htranscript : ∀ t ∈ d'.transcript, TranscriptReopens d' t)
    (hinbox : ((Keyed.put Dispatch.outboxId rows d').map Dispatch.inboxBytes).sum ≤
      maxStoreJsonBytes)
    (hstream : ((Keyed.put Dispatch.outboxId rows d').map Dispatch.streamBytes).sum ≤
      maxStoreJsonBytes) :
    Reopens (Keyed.put Dispatch.outboxId rows d') := by
  refine ⟨?_, ?_, hinbox, hstream, ?_⟩
  · intro x hx
    rcases (Keyed.mem_put_of_mem hd hidentity.outboxId).mp hx with rfl | ⟨hx, -⟩
    · exact hfits
    · exact h.intents x hx
  · intro x hx
    rcases (Keyed.mem_put_of_mem hd hidentity.outboxId).mp hx with rfl | ⟨hx, -⟩
    · exact htranscript
    · exact h.transcripts x hx
  · rw [sum_put_of_eq hunique hd hidentity.outboxId]
    · exact h.identityBytes
    · rw [Dispatch.identityBytes, Dispatch.identityBytes, hidentity.dispatchId,
        hidentity.tenantScope, hidentity.taskId, hpayload]

/-- A dispatch put back with its transcript and result as they were. -/
theorem putInbox (h : Reopens rows) (hunique : Keyed.Unique Dispatch.outboxId rows) (hd : d ∈ rows)
    (hidentity : SameIdentity d d') (hpayload : d'.payloadDigest = d.payloadDigest)
    (hfits : IntentFits d') (htranscript : d'.transcript = d.transcript)
    (hfinal : d'.record.finalResult = d.record.finalResult)
    (hinbox : ((Keyed.put Dispatch.outboxId rows d').map Dispatch.inboxBytes).sum ≤
      maxStoreJsonBytes) :
    Reopens (Keyed.put Dispatch.outboxId rows d') := by
  refine h.put hunique hd hidentity hpayload hfits ?_ hinbox ?_
  · intro t ht
    rw [htranscript] at ht
    have hreopens := h.transcripts d hd t ht
    exact
      { hreopens with
        named := hidentity.taskId ▸ hreopens.named
        message := hidentity.messageId ▸ hreopens.message
        final := hfinal ▸ hreopens.final }
  · rw [sum_put_of_eq hunique hd hidentity.outboxId]
    · exact h.streamBytes
    · rw [Dispatch.streamBytes, Dispatch.streamBytes, htranscript, hidentity.tenantScope,
        hidentity.messageId, hidentity.dispatchId, hidentity.taskId]

omit [ContentDigest] in
theorem inboxBytes_put (hunique : Keyed.Unique Dispatch.outboxId rows) (hd : d ∈ rows)
    (hidentity : SameIdentity d d') (hinbox : d'.inbox = d.inbox) :
    ((Keyed.put Dispatch.outboxId rows d').map Dispatch.inboxBytes).sum =
      (rows.map Dispatch.inboxBytes).sum := by
  refine sum_put_of_eq hunique hd hidentity.outboxId ?_
  rw [Dispatch.inboxBytes, Dispatch.inboxBytes, hinbox, hidentity.tenantScope, hidentity.dispatchId]

/-- A dispatch added. -/
theorem enqueue (h : Reopens rows) (hfits : d.intent = none) (hinbox : d.inbox = none)
    (htranscript : ∀ t ∈ d.transcript, TranscriptReopens d t)
    (hstream : ((rows ++ [d]).map Dispatch.streamBytes).sum ≤ maxStoreJsonBytes)
    (houtbox : ((rows ++ [d]).map Dispatch.outboxBytes).sum ≤ maxStoreJsonBytes) :
    Reopens (rows ++ [d]) := by
  refine ⟨?_, ?_, ?_, hstream, ?_⟩
  · intro x hx
    rw [List.mem_append, List.mem_singleton] at hx
    rcases hx with hx | rfl
    · exact h.intents x hx
    · simp [IntentFits, hfits]
  · intro x hx
    rw [List.mem_append, List.mem_singleton] at hx
    rcases hx with hx | rfl
    · exact h.transcripts x hx
    · exact htranscript
  · have hnone : d.inboxBytes = 0 := by rw [Dispatch.inboxBytes, hinbox, Option.elim_none]
    simpa [hnone] using h.inboxBytes
  · refine le_trans (List.sum_le_sum fun x _ => ?_) houtbox
    rw [Dispatch.identityBytes, Dispatch.outboxBytes]
    omega

/-! ## Changes -/

variable {auth : Option Authorization} {digest : String} {payload : MeshRequest}
  {command : SendMessageAdmission} {task : Task} {attempts : List AttemptRow}

theorem messageIdentity_isEmpty {messageId : String} (h : messageId.isEmpty = false) :
    (messageIdentity cfg auth messageId).isEmpty = false := by
  cases auth with
  | none => exact h
  | some a => exact contentDigest_isEmpty _

/-- The dispatch of a new message, if its stream can be reopened. -/
theorem newDispatch {dispatches : List Dispatch} {revision : Nat} {result : SendMessageResponse}
    (h : Reopens dispatches)
    (hadmissible : Change.Admissible cfg auth digest payload command task now s)
    (hsafe : command.streaming = true → task.id.isEmpty = false ∧
      (StreamResponse.task task).jsonBytes ≤ maxAtomicJsonBytes ∧
      (StreamResponse.task task).orderFree = true)
    (hstream : ((dispatches ++ [s.newDispatch cfg o auth digest revision payload command task
      result]).map Dispatch.streamBytes).sum ≤ maxStoreJsonBytes)
    (houtbox : ((dispatches ++ [s.newDispatch cfg o auth digest revision payload command task
      result]).map Dispatch.outboxBytes).sum ≤ maxStoreJsonBytes) :
    Reopens (dispatches ++
      [s.newDispatch cfg o auth digest revision payload command task result]) := by
  refine h.enqueue rfl rfl ?_ hstream houtbox
  intro t ht
  simp only [Store.newDispatch, admittedDispatch, Option.mem_def] at ht
  by_cases hstreaming : command.streaming = true
  · rw [if_pos hstreaming] at ht
    obtain rfl := Option.some.inj ht
    obtain ⟨hnamed, hsize, hfree⟩ := hsafe hstreaming
    exact .openTranscript hnamed
      ⟨messageIdentity_isEmpty hadmissible.named, hadmissible.identity⟩ hsize hfree
  · rw [if_neg hstreaming] at ht
    cases ht

omit [ContentDigest] in
theorem outboxBytes_of_atomicFits (h : s.atomicFits = true) :
    (s.dispatches.map Dispatch.outboxBytes).sum ≤ maxStoreJsonBytes := by
  simp only [Store.atomicFits, Bool.and_eq_true, decide_eq_true_eq] at h
  exact h.1.2

theorem admission (h : Reopens s.dispatches)
    (henabled : (Change.admission o auth digest payload command).Enabled cfg now s)
    (hsafe : command.streaming = true → command.task.id.isEmpty = false ∧
      (StreamResponse.task command.task).orderFree = true) :
    Reopens ((Change.admission o auth digest payload command).run cfg now s).dispatches := by
  obtain ⟨hc, hstream, hatomic⟩ := henabled
  have hcanonical := hc.canonical
  simp only [admissionMatchesRequest, Bool.and_eq_true, beq_iff_eq] at hcanonical
  obtain ⟨⟨⟨-, hmessage⟩, -⟩, hresult⟩ := hcanonical
  refine newDispatch h hc.toAdmissible ?_ hstream (outboxBytes_of_atomicFits hatomic)
  intro hstreaming
  refine ⟨(hsafe hstreaming).1, ?_, (hsafe hstreaming).2⟩
  -- a submitted task carries no message, so its admission result is the task
  have hsize := hc.sizes.1
  cases hresponse : command.originalResult with
  | task original =>
    rw [hresponse] at hresult hsize
    obtain rfl : original = command.task := by simpa [finalResultMatchesTask] using hresult
    exact hsize
  | message m =>
    rw [hresponse] at hresult
    simp [finalResultMatchesTask, Option.isNone_iff_eq_none.mp hmessage] at hresult

theorem resume (h : Reopens s.dispatches)
    (henabled : (Change.resume o auth digest payload command row).Enabled cfg now s)
    (hsafe : command.streaming = true → row.task.id.isEmpty = false ∧
      (StreamResponse.task (continuedTask row.task command.request.message now)).jsonBytes ≤
        maxAtomicJsonBytes ∧
      (StreamResponse.task (continuedTask row.task command.request.message now)).orderFree =
        true) :
    Reopens ((Change.resume o auth digest payload command row).run cfg now s).dispatches := by
  obtain ⟨hc, hstream, hatomic⟩ := henabled
  exact newDispatch h hc.toAdmissible hsafe hstream (outboxBytes_of_atomicFits hatomic)

theorem lease {owner token : String} {leaseUntil : Int} (h : Reopens s.dispatches)
    (hinv : Inv s now) (henabled : (Change.lease d owner token leaseUntil).Enabled cfg now s) :
    Reopens ((Change.lease d owner token leaseUntil).run cfg now s).dispatches := by
  have hidentity : SameIdentity d (d.lease owner token leaseUntil now) :=
    ⟨rfl, rfl, rfl, rfl, rfl, rfl⟩
  refine h.putInbox hinv.outboxIds henabled.1 hidentity rfl ?_ rfl rfl ?_
  · intro intent _
    cases intent.state with
    | requested => rfl
    | receiverCanceled => exact .inl rfl
  · rw [inboxBytes_put hinv.outboxIds henabled.1 hidentity rfl]
    exact h.inboxBytes

theorem release {owner token : String} {leaseUntil : Int} (h : Reopens s.dispatches)
    (hinv : Inv s now) (henabled : (Change.release d owner token leaseUntil).Enabled cfg now s) :
    Reopens ((Change.release d owner token leaseUntil).run cfg now s).dispatches := by
  have hidentity : SameIdentity d (d.release owner token leaseUntil now) :=
    ⟨rfl, rfl, rfl, rfl, rfl, rfl⟩
  refine h.putInbox hinv.outboxIds henabled.1 hidentity rfl (h.intents d henabled.1) rfl rfl ?_
  rw [inboxBytes_put hinv.outboxIds henabled.1 hidentity rfl]
  exact h.inboxBytes

/-- A retry returns the row to the queue, where an intent that the receiver answered has no
place. -/
theorem retry {error : String} {availableAt : Int} (h : Reopens s.dispatches) (hinv : Inv s now)
    (henabled : (Change.retry d attempts error availableAt).Enabled cfg now s)
    (hsafe : ∀ intent ∈ d.intent, intent.state = .requested) :
    Reopens ((Change.retry d attempts error availableAt).run cfg now s).dispatches := by
  have hidentity : SameIdentity d
      { d.settle .pending (some error) now with attempts, availableAt } :=
    ⟨rfl, rfl, rfl, rfl, rfl, rfl⟩
  refine h.putInbox hinv.outboxIds henabled.1 hidentity rfl ?_ rfl rfl ?_
  · intro intent hintent
    rw [hsafe intent hintent]
    rfl
  · rw [inboxBytes_put hinv.outboxIds henabled.1 hidentity rfl]
    exact h.inboxBytes

theorem request (h : Reopens s.dispatches) (hinv : Inv s now)
    (henabled : (Change.request d).Enabled cfg now s) :
    Reopens ((Change.request d).run cfg now s).dispatches := by
  have hidentity : SameIdentity d
      { d with intent := some { state := .requested, requestedAt := now } } :=
    ⟨rfl, rfl, rfl, rfl, rfl, rfl⟩
  refine h.putInbox hinv.outboxIds henabled.mem hidentity rfl ?_ rfl rfl ?_
  · intro intent hintent
    obtain rfl := Option.some.inj hintent
    exact henabled.active
  · rw [inboxBytes_put hinv.outboxIds henabled.mem hidentity rfl]
    exact h.inboxBytes

theorem accept {inbox : InboxRow} (h : Reopens s.dispatches) (hinv : Inv s now)
    (henabled : (Change.accept d inbox).Enabled cfg now s) :
    Reopens ((Change.accept d inbox).run cfg now s).dispatches :=
  h.putInbox hinv.outboxIds henabled.mem ⟨rfl, rfl, rfl, rfl, rfl, rfl⟩ rfl
    (h.intents d henabled.mem) rfl rfl henabled.capacity

/-- A reclaimed row must still fit the receiver's limit: nothing checks it. -/
theorem reclaim {old inbox : InboxRow} (h : Reopens s.dispatches) (hinv : Inv s now)
    (henabled : (Change.reclaim d old inbox).Enabled cfg now s)
    (hsafe : s.inboxBytes + inbox.leaseBytes ≤ maxStoreJsonBytes + old.leaseBytes) :
    Reopens ((Change.reclaim d old inbox).run cfg now s).dispatches := by
  refine h.putInbox hinv.outboxIds henabled.mem ⟨rfl, rfl, rfl, rfl, rfl, rfl⟩ rfl
    (h.intents d henabled.mem) rfl rfl ?_
  have hsum : ((Keyed.put Dispatch.outboxId s.dispatches { d with inbox := some inbox }).map
      Dispatch.inboxBytes).sum + d.inboxBytes = _ :=
    Keyed.sum_put hinv.outboxIds henabled.mem rfl
  have hbytes : ({ d with inbox := some inbox } : Dispatch).inboxBytes + old.leaseBytes =
      d.inboxBytes + inbox.leaseBytes := by
    obtain ⟨hdigest, hpayload, -, hframes, heffect⟩ := henabled.kept
    simp only [Dispatch.inboxBytes, henabled.inbox_eq, Option.elim_some, hdigest, hpayload,
      heffect, InboxRow.frameBytes, hframes]
    omega
  rw [Store.inboxBytes] at hsafe
  omega

/-- A canceled completion answers the intent, which then needs a leased row. -/
theorem complete {inbox : InboxRow} {kind : CompletionKind} {events : List MeshEvent}
    {termination : DurableReceiverTermination} (h : Reopens s.dispatches) (hinv : Inv s now)
    (henabled : (Change.complete d inbox kind events termination).Enabled cfg now s)
    (hsafe : kind = .canceled → d.state = .leased) :
    Reopens ((Change.complete d inbox kind events termination).run cfg now s).dispatches := by
  refine h.putInbox hinv.outboxIds henabled.mem ⟨rfl, rfl, rfl, rfl, rfl, rfl⟩ rfl ?_ rfl rfl
    henabled.capacity
  intro intent hintent
  by_cases hkind : kind = .canceled
  · simp only [Dispatch.answeredIntent, if_pos hkind, Option.mem_map] at hintent
    obtain ⟨before, -, rfl⟩ := hintent
    exact .inl (hsafe hkind)
  · simp only [Dispatch.answeredIntent, if_neg hkind] at hintent
    exact h.intents d henabled.mem intent hintent

theorem progress {frame : StreamResponse} (h : Reopens s.dispatches) (hinv : Inv s now)
    (henabled : (Change.progress o decoded d t frame).Enabled cfg now s)
    (hsize : frame.jsonBytes ≤ maxAtomicJsonBytes) (hfree : frame.orderFree = true) :
    Reopens ((Change.progress o decoded d t frame).run cfg now s).dispatches := by
  obtain ⟨hc, hstream⟩ := henabled
  have hidentity : SameIdentity d { d with transcript := some (t.append o decoded
      (t.frames.map FrameRow.frame) frame now) } := ⟨rfl, rfl, rfl, rfl, rfl, rfl⟩
  refine h.put hinv.outboxIds hc.mem hidentity rfl (h.intents d hc.mem) ?_ ?_ hstream
  · intro t' ht'
    obtain rfl := Option.some.inj ht'
    have hreopens := h.transcripts d hc.mem t hc.transcript_eq
    exact hreopens.append hidentity hsize hfree hc.count hreopens.diagnostic
      (fun _ hstate => by rw [hc.unclosed] at hstate; cases hstate)
  · rw [inboxBytes_put hinv.outboxIds hc.mem hidentity rfl]
    exact h.inboxBytes

/-- A delivery leaves no place for an unanswered intent, and a stream needs a task as its
result. -/
theorem deliver {result : SendMessageResponse} {frames : List StreamResponse}
    (h : Reopens s.dispatches) (hinv : Inv s now)
    (henabled : (Change.deliver o decoded row d attempts task result frames).Enabled cfg now s)
    (hanswered : d.cancellationRequested = false)
    (hsafe : d.transcript.isSome = true →
      (∃ task, result = .task task) ∧ ∀ frame ∈ frames, frame.orderFree = true) :
    Reopens ((Change.deliver o decoded row d attempts task result frames).run cfg now
      s).dispatches := by
  obtain ⟨hc, hstream⟩ := henabled
  have hvalid := hinv.dispatches d hc.mem_dispatches
  have hactive : d.active = true := Dispatch.active_iff.mpr (.inr hc.leased)
  have hrecord := Change.complete_record hvalid hactive result
  have hidentity : SameIdentity d
      { d.settle .delivered d.lastError now with
        record := d.record.complete result now
        transcript := d.transcript.map (·.deliver o frames now)
        attempts } := ⟨rfl, rfl, rfl, rfl, rfl, rfl⟩
  refine h.put hinv.outboxIds hc.mem_dispatches hidentity rfl ?_ ?_ ?_ hstream
  · intro intent hintent
    have hstate : intent.state ≠ .requested := by
      intro hrequested
      simp [Dispatch.cancellationRequested, show d.intent = some intent from hintent,
        hrequested] at hanswered
    cases hs : intent.state with
    | requested => exact absurd hs hstate
    | receiverCanceled => exact .inr rfl
  · intro t' ht'
    obtain ⟨t, ht, rfl⟩ := Option.mem_map.mp ht'
    obtain ⟨⟨final, rfl⟩, hfree⟩ := hsafe (Option.isSome_iff_exists.mpr ⟨t, ht⟩)
    have hcount : frames.length ≤ maxStreamFrames := by
      have hterminal := hc.terminal
      simp only [validateTerminalPublicTranscript, Bool.and_eq_true, decide_eq_true_eq] at hterminal
      exact hterminal.1
    exact (h.transcripts d hc.mem_dispatches t ht).deliver hidentity (hvalid.transcript t ht)
      (hc.continues t ht).2 hcount (by simpa using hc.sizes.2) hfree ⟨final, hrecord.2⟩
  · show ((Keyed.put Dispatch.outboxId s.dispatches _).map Dispatch.inboxBytes).sum ≤ _
    rw [inboxBytes_put hinv.outboxIds hc.mem_dispatches hidentity rfl]
    exact h.inboxBytes

theorem deadLetter {error messageId : String} (h : Reopens s.dispatches) (hinv : Inv s now)
    (henabled : (Change.deadLetter row d attempts error messageId).Enabled cfg now s) :
    Reopens ((Change.deadLetter row d attempts error messageId).run cfg now s).dispatches := by
  obtain ⟨hc, hstream⟩ := henabled
  have hvalid := hinv.dispatches d hc.mem_dispatches
  have hidentity : SameIdentity d
      { (d.deadLetter (.task (deadLetteredTask row.task error messageId now)) error now).settle
          .dead (some error) now with attempts } := ⟨rfl, rfl, rfl, rfl, rfl, rfl⟩
  refine h.put hinv.outboxIds hc.mem_dispatches hidentity rfl ?_ ?_ ?_ hstream
  · -- nobody accepted the dispatch, so nobody was asked to cancel it
    intro intent hintent
    obtain ⟨inbox, hinbox, -⟩ := hvalid.intent intent hintent
    rw [hc.unaccepted] at hinbox
    cases hinbox
  · intro t' ht'
    obtain ⟨t, ht, rfl⟩ := Option.mem_map.mp ht'
    refine (h.transcripts d hc.mem_dispatches t ht).interrupt hidentity fun hclosed => ?_
    exact absurd ((hvalid.transcript t ht).open_of_active
      (Dispatch.active_iff.mpr (.inr hc.leased))) hclosed
  · show ((Keyed.put Dispatch.outboxId s.dispatches _).map Dispatch.inboxBytes).sum ≤ _
    rw [inboxBytes_put hinv.outboxIds hc.mem_dispatches hidentity rfl]
    exact h.inboxBytes

theorem statusFrame_canceledTask_orderFree (task : Task) (dispatchId : String) :
    (statusFrame (canceledTask task dispatchId now)).orderFree = true := by
  simp [statusFrame, canceledTask, StreamResponse.orderFree, TaskStatus.orderFree,
    Message.orderFree, Part.orderFree, Part.ofText, Metadata.orderFree, Metadata.empty]

/-- The stream of a canceled task is closed by a status that fits and has one encoding. -/
theorem cancelTranscript {f : Task} (h : TranscriptReopens d t) (hinv : Inv s now)
    (hc : Change.CancelEnabled decoded row d now s) (hactive : d.active = true)
    (ht : d.transcript = some t) (hidentity : SameIdentity d d')
    (hfinal : d'.record.finalResult = some (.task f)) :
    TranscriptReopens d' (t.cancel decoded (canceledTask row.task d.dispatchId now) now) := by
  have hvalid := (hinv.dispatches d hc.mem_dispatches).transcript t ht
  have hcoherent := hinv.coherent_of_taskId hc.mem_dispatches hc.mem_tasks hc.taskId_eq
  have hsize : (statusFrame (canceledTask row.task d.dispatchId now)).jsonBytes ≤
      maxAtomicJsonBytes := by
    obtain ⟨message, earlier, hhistory⟩ := hcoherent.messages hactive
    have hcanceled : (canceledTask row.task d.dispatchId now).history =
        some (message :: earlier) := hhistory
    exact (statusFrame_jsonBytes_le hcanceled).trans hc.size
  have hcount : t.frames.length + 1 ≤ maxStreamFrames := by
    have hterminal := (hc.intact hactive t ht).2
    simp only [validateTerminalPublicTranscript, Bool.and_eq_true, decide_eq_true_eq,
      List.length_append, List.length_map, List.length_singleton] at hterminal
    exact hterminal.1
  rw [TranscriptRow.cancel, if_pos (hvalid.open_of_active hactive)]
  exact h.append hidentity hsize (statusFrame_canceledTask_orderFree _ _) hcount (Nat.zero_le _)
    (fun _ _ => ⟨f, hfinal⟩)

/-- A canceled dispatch is superseded, where no intent has a place. -/
theorem cancel (h : Reopens s.dispatches) (hinv : Inv s now)
    (henabled : (Change.cancel decoded row d).Enabled cfg now s) (hsafe : d.intent = none) :
    Reopens ((Change.cancel decoded row d).run cfg now s).dispatches := by
  obtain ⟨hc, hstream⟩ := henabled
  have hvalid := hinv.dispatches d hc.mem_dispatches
  have hdead : d.state ≠ .dead := by
    intro hdead
    rcases hc.serves with hactive | hdelivered
    · rcases Dispatch.active_iff.mp hactive with hstate | hstate <;> simp [hdead] at hstate
    · simp [hdead] at hdelivered
  have hidentity : SameIdentity d (d.supersede (.task (canceledTask row.task d.dispatchId now))
      (d.transcript.map (·.cancel decoded (canceledTask row.task d.dispatchId now) now)) now) := by
    rw [Change.supersede_eq hdead]
    exact ⟨rfl, rfl, rfl, rfl, rfl, rfl⟩
  have hinbox : (d.supersede (.task (canceledTask row.task d.dispatchId now))
      (d.transcript.map (·.cancel decoded (canceledTask row.task d.dispatchId now) now))
      now).inbox = d.inbox := by
    rw [Change.supersede_eq hdead]
  refine h.put hinv.outboxIds hc.mem_dispatches hidentity ?_ ?_ ?_ ?_ hstream
  · rw [Change.supersede_eq hdead]
  · intro intent hintent
    rw [Change.supersede_eq hdead, hsafe] at hintent
    cases hintent
  · intro t' ht'
    obtain ⟨t, ht, rfl⟩ := Option.mem_map.mp ht'
    have hreopens := h.transcripts d hc.mem_dispatches t ht
    by_cases hactive : d.active = true
    · refine cancelTranscript hreopens hinv hc hactive ht hidentity
        (f := canceledTask row.task d.dispatchId now) ?_
      rw [Change.supersede_eq hdead]
      simp only [if_pos (hvalid.final.mpr (hvalid.record.mpr hactive))]
      exact (Change.complete_record hvalid hactive _).2
    · -- the delivery has closed the stream and bound the result
      have hclosed : t.state ≠ .open := by
        intro hopen
        have hstate := (hvalid.transcript t ht).state
        rw [hopen] at hstate
        exact hactive hstate
      have hbound : d.record.finalResult ≠ none := fun hnone =>
        hactive (hvalid.record.mp (hvalid.final.mp hnone))
      rw [TranscriptRow.cancel, if_neg hclosed]
      refine hreopens.extend hidentity (List.append_nil _).symm (fun i row hrow => by cases hrow)
        hreopens.count_le hreopens.diagnostic hreopens.digest ?_
      rw [Change.supersede_eq hdead]
      simp only [if_neg hbound]
      exact hreopens.final
  · show ((Keyed.put Dispatch.outboxId s.dispatches _).map Dispatch.inboxBytes).sum ≤ _
    rw [inboxBytes_put hinv.outboxIds hc.mem_dispatches hidentity hinbox]
    exact h.inboxBytes

end Reopens

end SmeshDurable
