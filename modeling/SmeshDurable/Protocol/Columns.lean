import SmeshDurable.Protocol.Runs
import SmeshDurable.Protocol.Sizes

/-!
# Lengths of the JSON columns

Every validator bounds a JSON column by one mebibyte. The invariant bounds the tasks, the
events and the receiver's columns; the columns of a dispatch are bounded exactly if each
change that wrote them stored a document within the limit. The changes that can store a
longer one wrap a task that was only checked bare.
-/

namespace SmeshDurable

def RecordRow.jsonFits (record : RecordRow) : Bool :=
  record.admissionResultJson.utf8ByteSize ≤ maxAtomicJsonBytes &&
    record.finalBytes ≤ maxAtomicJsonBytes

def TranscriptRow.jsonFits (transcript : TranscriptRow) : Bool :=
  transcript.frames.all fun row => row.frameJson.utf8ByteSize ≤ maxAtomicJsonBytes

/-- The record, the payload and the stream frames of a dispatch are within the limit. -/
def Dispatch.jsonFits (d : Dispatch) : Bool :=
  d.record.jsonFits && d.payload.jsonBytes ≤ maxAtomicJsonBytes &&
    d.transcript.all TranscriptRow.jsonFits

def InboxRow.jsonFits (inbox : InboxRow) : Bool :=
  inbox.payload.jsonBytes ≤ maxAtomicJsonBytes &&
    inbox.frames.all fun row => row.event.jsonBytes ≤ maxAtomicJsonBytes

def TaskRow.jsonFits (row : TaskRow) : Bool :=
  row.task.jsonBytes ≤ maxTaskJsonBytes &&
    row.events.all fun event => event.eventTask.jsonBytes ≤ maxAtomicJsonBytes

/-- Every JSON column of the store has a length that the validators accept. -/
def Store.jsonFits (s : Store) : Bool :=
  s.tasks.all TaskRow.jsonFits && s.dispatches.all Dispatch.jsonFits &&
    s.dispatches.all fun d => d.inbox.all InboxRow.jsonFits

section

variable [ContentDigest]

/-- The documents a change stores without having checked them are within the limit. -/
def Change.writesFit (now : Int) : Change → Bool
  | resume _ _ _ _ command row =>
    (SendMessageResponse.task
      (continuedTask row.task command.request.message now)).jsonBytes ≤ maxAtomicJsonBytes
  | deadLetter row _ _ error messageId =>
    (SendMessageResponse.task
      (deadLetteredTask row.task error messageId now)).jsonBytes ≤ maxAtomicJsonBytes
  | progress _ _ _ _ frame => frame.jsonBytes ≤ maxAtomicJsonBytes
  | deliver _ _ _ _ _ _ result _ => result.jsonBytes ≤ maxAtomicJsonBytes
  | cancel _ row d =>
    -- the result of a delivery that the cancellation follows is kept
    !d.active || (SendMessageResponse.task
      (canceledTask row.task d.dispatchId now)).jsonBytes ≤ maxAtomicJsonBytes
  | _ => true

variable {cfg : Config} {s s' : Store} {now : Int} {d d' : Dispatch} {row : TaskRow}
  {o decoded : HashOrder}

/-! ## What the invariant bounds -/

omit [ContentDigest] in
theorem RowValid.jsonFits (h : RowValid row) : row.jsonFits = true := by
  simp only [TaskRow.jsonFits, Bool.and_eq_true, decide_eq_true_eq, List.all_eq_true]
  exact ⟨h.task_size, fun event hevent => (h.events event hevent).2.2.2⟩

theorem loadReceiverFrames_sizes {frames : List ReceiverFrameRow} {frameCount : Nat}
    {transcriptDigest : String} {events : List MeshEvent}
    (h : loadReceiverFrames frames frameCount transcriptDigest = .ok events) :
    ∀ frame ∈ frames, frame.event.jsonBytes ≤ maxAtomicJsonBytes := by
  simp only [loadReceiverFrames, Transaction.bind_eq_ok, Transaction.require_eq_ok,
    exists_const, List.all_eq_true] at h
  intro frame hframe
  obtain ⟨index, hindex⟩ := List.mem_iff_getElem?.mp hframe
  have hrow := h.1 (frame, index) (List.mem_zipIdx_iff_getElem?.mpr hindex)
  simp only [Bool.and_eq_true, decide_eq_true_eq] at hrow
  exact hrow.2

theorem InboxValid.jsonFits {inbox : InboxRow} (h : InboxValid d inbox) :
    inbox.jsonFits = true := by
  have hrow := h.row
  simp only [inboxRowValid, Bool.and_eq_true] at hrow
  obtain ⟨⟨⟨⟨-, hrequest⟩, -⟩, -⟩, hstate⟩ := hrow
  simp only [receiverRequestIsValid, Bool.and_eq_true, decide_eq_true_eq] at hrequest
  simp only [InboxRow.jsonFits, Bool.and_eq_true, decide_eq_true_eq, List.all_eq_true]
  refine ⟨hrequest.1.1.1.1.1.1.1, ?_⟩
  cases hcompleted : inbox.state with
  | processing owner token leaseUntil =>
    have hidle : inbox.frames = [] := h.idle (by rw [hcompleted]; rfl)
    simp [hidle]
  | completed termination frameCount transcriptDigest completedAt =>
    simp only [hcompleted] at hstate
    split at hstate
    case h_1 events hload => exact loadReceiverFrames_sizes hload
    case h_2 => cases hstate

/-- The columns fit as soon as those of the dispatches do. -/
theorem Inv.jsonFits_iff (hinv : Inv s now) :
    s.jsonFits = true ↔ ∀ d ∈ s.dispatches, d.jsonFits = true := by
  simp only [Store.jsonFits, Bool.and_eq_true, List.all_eq_true]
  constructor
  · exact fun h => h.1.2
  · intro h
    refine ⟨⟨fun row hrow => (hinv.rows row hrow).jsonFits, h⟩, fun d hd => ?_⟩
    rw [Option.all_eq_true]
    exact fun inbox hinbox => ((hinv.dispatches d hd).inbox inbox hinbox).jsonFits

/-- The check that precedes every claim refuses a record that is too long. -/
theorem record_jsonFits_of_validateAtomicRecords (h : validateAtomicRecords s = true) :
    ∀ d ∈ s.dispatches, d.record.jsonFits = true := by
  intro d hd
  simp only [validateAtomicRecords, Bool.and_eq_true, List.all_eq_true] at h
  have hrecord := h.1.1.2 d hd
  simp only [recordValid, Bool.and_eq_true, decide_eq_true_eq] at hrecord
  obtain ⟨⟨⟨-, hadmission⟩, -⟩, hfinal⟩ := hrecord
  simp only [RecordRow.jsonFits, Bool.and_eq_true, decide_eq_true_eq]
  refine ⟨hadmission, ?_⟩
  unfold RecordRow.finalBytes
  cases hresult : d.record.finalResult with
  | none => exact Nat.zero_le _
  | some result =>
    rw [hresult, Option.all_some, Bool.and_eq_true, decide_eq_true_eq] at hfinal
    exact hfinal.1

/-! ## One dispatch -/

omit [ContentDigest] in
theorem RecordRow.jsonFits_complete {record : RecordRow} {result : SendMessageResponse}
    (hstate : record.state = .inProgress) (hnone : record.finalResult = none) :
    (record.complete result now).jsonFits = true ↔
      record.jsonFits = true ∧ result.jsonBytes ≤ maxAtomicJsonBytes := by
  simp [RecordRow.complete, hstate, RecordRow.jsonFits, RecordRow.finalBytes, hnone]

namespace TranscriptRow

variable {t : TranscriptRow} {frame : StreamResponse} {stored frames : List StreamResponse}

theorem frameJson_ofFrame (o : HashOrder) (frameSeq : Nat) (frame : StreamResponse) (now : Int) :
    (FrameRow.ofFrame o frameSeq frame now).frameJson.utf8ByteSize = frame.jsonBytes :=
  frame.size_toJson o

theorem jsonFits_append (o decoded : HashOrder) :
    (t.append o decoded stored frame now).jsonFits = true ↔
      t.jsonFits = true ∧ frame.jsonBytes ≤ maxAtomicJsonBytes := by
  simp [TranscriptRow.jsonFits, TranscriptRow.append, frameJson_ofFrame, List.all_append]

theorem jsonFits_deliver
    (hsizes : (frames.all fun frame => frame.jsonBytes ≤ maxAtomicJsonBytes) = true) :
    (t.deliver o frames now).jsonFits = t.jsonFits := by
  rw [Bool.eq_iff_iff]
  simp only [TranscriptRow.jsonFits, TranscriptRow.deliver, List.all_append, Bool.and_eq_true,
    and_iff_left_iff_imp]
  intro _
  simp only [List.all_map, List.all_eq_true, Function.comp_apply, frameJson_ofFrame]
  rintro ⟨frame, index⟩ hmem
  have hframe := (List.mem_zipIdx' (List.mem_of_mem_drop hmem)).2
  exact List.all_eq_true.mp hsizes frame (hframe ▸ List.getElem_mem _)

omit [ContentDigest] in
theorem jsonFits_interrupt {error : String} : (t.interrupt error now).jsonFits = t.jsonFits := by
  rw [TranscriptRow.interrupt]
  split <;> rfl

theorem jsonFits_cancel {task : Task}
    (hsize : t.state = .open → (statusFrame task).jsonBytes ≤ maxAtomicJsonBytes) :
    (t.cancel decoded task now).jsonFits = t.jsonFits := by
  rw [TranscriptRow.cancel]
  split
  case isTrue hopen =>
    rw [Bool.eq_iff_iff]
    exact (jsonFits_append decoded decoded).trans (and_iff_left (hsize hopen))
  case isFalse => rfl

end TranscriptRow

omit [ContentDigest] in
/-- A stream whose rows are changed one for one. -/
theorem all_jsonFits_map {transcript : Option TranscriptRow} {f : TranscriptRow → TranscriptRow}
    (h : ∀ t ∈ transcript, (f t).jsonFits = t.jsonFits) :
    (transcript.map f).all TranscriptRow.jsonFits = transcript.all TranscriptRow.jsonFits := by
  cases transcript with
  | none => rfl
  | some t => exact h t rfl

omit [ContentDigest] in
/-- A dispatch that binds its result. -/
theorem Dispatch.jsonFits_settled {result : SendMessageResponse}
    (hstate : d.record.state = .inProgress) (hnone : d.record.finalResult = none)
    (hrecord : d'.record = d.record.complete result now) (hpayload : d'.payload = d.payload)
    (htranscript : d'.transcript.all TranscriptRow.jsonFits =
      d.transcript.all TranscriptRow.jsonFits) :
    d'.jsonFits = true ↔ d.jsonFits = true ∧ result.jsonBytes ≤ maxAtomicJsonBytes := by
  simp only [Dispatch.jsonFits, hrecord, hpayload, htranscript, Bool.and_eq_true,
    RecordRow.jsonFits_complete hstate hnone]
  tauto

/-! ## One change -/

omit [ContentDigest] in
/-- Putting back one dispatch of the store. -/
theorem jsonFits_put {w : Prop} (hkeys : KeysValid s) (hd : d ∈ s.dispatches)
    (hid : d'.outboxId = d.outboxId) (h : d'.jsonFits = true ↔ d.jsonFits = true ∧ w) :
    (∀ x ∈ (s.putDispatch d').dispatches, x.jsonFits = true) ↔
      (∀ x ∈ s.dispatches, x.jsonFits = true) ∧ w := by
  have hput : (∀ x ∈ (s.putDispatch d').dispatches, x.jsonFits = true) ↔ d'.jsonFits = true ∧
      ∀ x ∈ s.dispatches, x ≠ d → x.jsonFits = true :=
    hkeys.outboxIds.forall_mem_put hd hid
  rw [hput, h]
  constructor
  · rintro ⟨⟨hfits, hw⟩, hothers⟩
    refine ⟨fun x hx => ?_, hw⟩
    by_cases hx' : x = d
    · exact hx' ▸ hfits
    · exact hothers x hx hx'
  · rintro ⟨hall, hw⟩
    exact ⟨⟨hall d hd, hw⟩, fun x hx _ => hall x hx⟩

/-- The columns of a new dispatch are within the limit if its result is. -/
theorem newDispatch_jsonFits {auth : Option Authorization} {digest : String} {revision : Nat}
    {payload : MeshRequest} {command : SendMessageAdmission} {task : Task}
    (hpayload : payload.jsonBytes ≤ maxAtomicJsonBytes) :
    (s.newDispatch cfg o auth digest revision payload command task (.task task)).jsonFits = true ↔
      (SendMessageResponse.task task).jsonBytes ≤ maxAtomicJsonBytes := by
  have hresult : (((SendMessageResponse.task task).toJson o).render).utf8ByteSize =
      (SendMessageResponse.task task).jsonBytes := SendMessageResponse.size_toJson o _
  simp only [Dispatch.jsonFits, RecordRow.jsonFits, RecordRow.finalBytes, Store.newDispatch,
    admittedDispatch, admissionRecord, hresult, Bool.and_eq_true, decide_eq_true_eq, hpayload]
  -- the opening frame of a stream is as long as the result
  cases command.streaming with
  | false => simp
  | true =>
    simp [TranscriptRow.jsonFits, openTranscript, TranscriptRow.frameJson_ofFrame]

namespace Change

theorem AdmitEnabled.originalResult_eq {auth : Option Authorization} {digest : String}
    {payload : MeshRequest} {command : SendMessageAdmission}
    (hc : AdmitEnabled cfg auth digest payload command now s) :
    command.originalResult = .task command.task := by
  have hcanonical := hc.canonical
  simp only [admissionMatchesRequest, Bool.and_eq_true] at hcanonical
  obtain ⟨⟨⟨-, hnone⟩, -⟩, hresult⟩ := hcanonical
  cases hcase : command.originalResult with
  | task task =>
    rw [hcase] at hresult
    rw [eq_of_beq hresult]
  | message message =>
    -- a new task has no status message that could be the result
    rw [hcase, finalResultMatchesTask, Option.isNone_iff_eq_none.mp hnone] at hresult
    simp at hresult

/-- Every document of an admission has been checked. -/
theorem AdmitEnabled.jsonFits {auth : Option Authorization} {digest : String}
    {payload : MeshRequest} {command : SendMessageAdmission}
    (hc : AdmitEnabled cfg auth digest payload command now s) :
    (s.newDispatch cfg o auth digest 1 payload command command.task
      command.originalResult).jsonFits = true := by
  rw [hc.originalResult_eq]
  apply (newDispatch_jsonFits hc.sizes.2).mpr
  rw [← hc.originalResult_eq]
  exact hc.sizes.1

/-- A continuation checks its task without the wrapper of the result and of the frame. -/
theorem ResumeEnabled.jsonFits {auth : Option Authorization} {digest : String}
    {payload : MeshRequest} {command : SendMessageAdmission} {revision : Nat}
    (hc : ResumeEnabled cfg auth digest payload command row now s) :
    (s.newDispatch cfg o auth digest revision payload command
        (continuedTask row.task command.request.message now)
        (.task (continuedTask row.task command.request.message now))).jsonFits = true ↔
      (SendMessageResponse.task
        (continuedTask row.task command.request.message now)).jsonBytes ≤ maxAtomicJsonBytes := by
  apply newDispatch_jsonFits
  exact (fromA2a_jsonBytes_le rfl hc.payload_eq).trans hc.size

theorem deadLetter_jsonFits {attempts : List AttemptRow} {error messageId : String}
    (hinv : Inv s now) (hc : DeadLetterEnabled row d attempts error messageId now s) :
    (∀ x ∈ ((deadLetter row d attempts error messageId).run cfg now s).dispatches,
        x.jsonFits = true) ↔
      (∀ x ∈ s.dispatches, x.jsonFits = true) ∧
        (SendMessageResponse.task
          (deadLetteredTask row.task error messageId now)).jsonBytes ≤ maxAtomicJsonBytes := by
  have hvalid := hinv.dispatches d hc.mem_dispatches
  have hrecord := hvalid.record.mpr (Dispatch.active_iff.mpr (.inr hc.leased))
  refine jsonFits_put (s := s) hinv.toKeysValid hc.mem_dispatches rfl ?_
  refine Dispatch.jsonFits_settled hrecord (hvalid.final.mpr hrecord) rfl rfl ?_
  exact all_jsonFits_map fun t _ => t.jsonFits_interrupt

theorem progress_jsonFits {transcript : TranscriptRow} {frame : StreamResponse}
    (hinv : Inv s now) (hc : ProgressEnabled decoded d transcript frame s) :
    (∀ x ∈ ((progress o decoded d transcript frame).run cfg now s).dispatches,
        x.jsonFits = true) ↔
      (∀ x ∈ s.dispatches, x.jsonFits = true) ∧ frame.jsonBytes ≤ maxAtomicJsonBytes := by
  refine jsonFits_put (s := s) hinv.toKeysValid hc.mem rfl ?_
  simp only [Dispatch.jsonFits, hc.transcript_eq, Option.all_some, Bool.and_eq_true,
    TranscriptRow.jsonFits_append]
  tauto

theorem deliver_jsonFits {attempts : List AttemptRow} {task : Task}
    {result : SendMessageResponse} {frames : List StreamResponse} (hinv : Inv s now)
    (hc : DeliverEnabled o decoded row d attempts task result frames now s) :
    (∀ x ∈ ((deliver o decoded row d attempts task result frames).run cfg now s).dispatches,
        x.jsonFits = true) ↔
      (∀ x ∈ s.dispatches, x.jsonFits = true) ∧ result.jsonBytes ≤ maxAtomicJsonBytes := by
  have hvalid := hinv.dispatches d hc.mem_dispatches
  have hrecord := hvalid.record.mpr (Dispatch.active_iff.mpr (.inr hc.leased))
  refine jsonFits_put (s := s) hinv.toKeysValid hc.mem_dispatches rfl ?_
  refine Dispatch.jsonFits_settled hrecord (hvalid.final.mpr hrecord) rfl rfl ?_
  exact all_jsonFits_map fun t _ => t.jsonFits_deliver hc.sizes.2

theorem cancel_jsonFits (hinv : Inv s now) (hc : CancelEnabled decoded row d now s) :
    (∀ x ∈ ((cancel decoded row d).run cfg now s).dispatches, x.jsonFits = true) ↔
      (∀ x ∈ s.dispatches, x.jsonFits = true) ∧ (d.active = true →
        (SendMessageResponse.task
          (canceledTask row.task d.dispatchId now)).jsonBytes ≤ maxAtomicJsonBytes) := by
  have hvalid := hinv.dispatches d hc.mem_dispatches
  have hcoherent := hinv.coherent_of_taskId hc.mem_dispatches hc.mem_tasks hc.taskId_eq
  have hdead : d.state ≠ .dead := by
    intro hdead
    rcases hc.serves with hactive | hdelivered
    · rcases Dispatch.active_iff.mp hactive with hstate | hstate <;> simp [hdead] at hstate
    · simp [hdead] at hdelivered
  -- the status frame of the canceled task is shorter than the task
  have htranscript : (d.transcript.map
      (·.cancel decoded (canceledTask row.task d.dispatchId now) now)).all
        TranscriptRow.jsonFits = d.transcript.all TranscriptRow.jsonFits := by
    refine all_jsonFits_map fun t ht => t.jsonFits_cancel fun hopen => ?_
    have hstate := (hvalid.transcript t ht).state
    rw [hopen] at hstate
    obtain ⟨message, earlier, hhistory⟩ := hcoherent.messages hstate
    have hcanceled : (canceledTask row.task d.dispatchId now).history =
        some (message :: earlier) := hhistory
    exact (statusFrame_jsonBytes_le hcanceled).trans hc.size
  refine jsonFits_put (s := s) hinv.toKeysValid hc.mem_dispatches ?_ ?_
  · rw [supersede_eq hdead]
  · by_cases hactive : d.active = true
    · have hrecord := hvalid.record.mpr hactive
      have hnone := hvalid.final.mpr hrecord
      simp only [hactive, true_imp_iff]
      rw [supersede_eq hdead, if_pos hnone]
      exact Dispatch.jsonFits_settled hrecord hnone rfl rfl htranscript
    · have hsome : d.record.finalResult ≠ none := fun hnone =>
        hactive (hvalid.record.mp (hvalid.final.mp hnone))
      simp only [supersede_eq hdead, if_neg hsome, Dispatch.jsonFits, htranscript, hactive,
        Bool.false_eq_true, false_imp_iff, and_true]

/-- A change keeps the columns within the limit exactly if what it stores is. -/
theorem jsonFits_iff (cfg : Config) {change : Change} (hinv : Inv s now) (hc : change.Enabled cfg now s) :
    (∀ x ∈ (change.run cfg now s).dispatches, x.jsonFits = true) ↔
      (∀ x ∈ s.dispatches, x.jsonFits = true) ∧ change.writesFit now = true := by
  -- most changes leave the columns of the dispatches alone
  have hkeep : ∀ {d d' : Dispatch}, d ∈ s.dispatches → d'.outboxId = d.outboxId →
      d'.jsonFits = d.jsonFits →
      ((∀ x ∈ (s.putDispatch d').dispatches, x.jsonFits = true) ↔
        (∀ x ∈ s.dispatches, x.jsonFits = true) ∧ true = true) :=
    fun hd hid hsame => jsonFits_put hinv.toKeysValid hd hid (by simp [hsame])
  have hmap : ∀ {f : Dispatch → Dispatch}, (∀ d, (f d).jsonFits = d.jsonFits) →
      ((∀ x ∈ s.dispatches.map f, x.jsonFits = true) ↔
        (∀ x ∈ s.dispatches, x.jsonFits = true) ∧ true = true) := by
    intro f hf
    simp [hf]
  cases change with
  | admission o auth digest payload command =>
    simp [run, Store.enqueue, writesFit, or_imp, forall_and, hc.1.jsonFits]
  | resume o auth digest payload command row =>
    simp [run, Store.enqueue, writesFit, or_imp, forall_and, hc.1.jsonFits]
  | lease d owner token leaseUntil => exact hkeep hc.1 rfl rfl
  | release d owner token leaseUntil => exact hkeep hc.1 rfl rfl
  | retry d attempts error availableAt => exact hkeep hc.1 rfl rfl
  | deadLetter row d attempts error messageId =>
    rw [deadLetter_jsonFits hinv hc.1, writesFit, decide_eq_true_eq]
  | progress o decoded d transcript frame =>
    rw [progress_jsonFits hinv hc.1, writesFit, decide_eq_true_eq]
  | accept d inbox => exact hkeep hc.mem rfl rfl
  | reclaim d old inbox => exact hkeep hc.mem rfl rfl
  | complete d inbox kind events termination => exact hkeep hc.mem rfl rfl
  | deliver o decoded row d attempts task result frames =>
    rw [deliver_jsonFits hinv hc.1, writesFit, decide_eq_true_eq]
  | request d => exact hkeep hc.mem rfl rfl
  | cancel decoded row d =>
    rw [cancel_jsonFits hinv hc.1, writesFit]
    cases d.active <;> simp
  | audit decision => simp [run, writesFit]
  | voidLeases =>
    refine hmap fun d => ?_
    unfold Dispatch.voidLeases
    dsimp only
    split <;> rfl
  | abandon =>
    refine hmap fun d => ?_
    unfold Dispatch.abandon
    split <;> rfl

end Change

end

end SmeshDurable
