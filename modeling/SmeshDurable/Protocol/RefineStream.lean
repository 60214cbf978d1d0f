import SmeshDurable.Protocol.RefineReceiver

/-!
# Deliveries, progress and cancellations as changes

A delivery under a live lease publishes its outcome, a progress frame is appended once,
and a cancellation asks a live receiver, waits for a finished one, or cancels the task
itself.
-/

namespace SmeshDurable

open Transaction Relation

variable [ContentDigest] {cfg : Config} {s s' : Store} {now : Int} {d : Dispatch} {row : TaskRow}
  {o decoded : HashOrder}

/-! ## Stored frames -/

/-- What loading a transcript checks. -/
structure TranscriptIntact (o : HashOrder) (transcript : TranscriptRow)
    (final : Option SendMessageResponse) : Prop where
  diagnostic : optionalBytes transcript.state.interruption ≤ maxAtomicTextBytes
  count_le : transcript.frameCount ≤ maxStreamFrames
  positive : transcript.state.interruption = none → 0 < transcript.frameCount
  rows : (transcript.frames.zipIdx.all fun (row, index) =>
    row.frameSeq == index + 1 && row.frameDigest == textDigest row.frameJson &&
      row.frameJson.utf8ByteSize ≤ maxAtomicJsonBytes) = true
  count : (transcript.frames.map FrameRow.frame).length = transcript.frameCount
  size : (encodeFrames o (transcript.frames.map FrameRow.frame)).utf8ByteSize ≤ maxStoreJsonBytes
  digest : textDigest (encodeFrames o (transcript.frames.map FrameRow.frame)) =
    transcript.transcriptDigest
  closed : ∀ terminalSeq, transcript.state = .terminal terminalSeq →
    ∃ task, final = some (.task task) ∧
      validateTerminalPublicTranscript (transcript.frames.map FrameRow.frame) task = true
  unclosed : (∀ terminalSeq, transcript.state ≠ .terminal terminalSeq) →
    (transcript.frames.map FrameRow.frame).any frameCloses = false

theorem loadPublicStreamFrames_eq_ok {transcript : TranscriptRow}
    {final : Option SendMessageResponse} {frames : List StreamResponse} :
    loadPublicStreamFrames o transcript final = .ok frames ↔
      TranscriptIntact o transcript final ∧ transcript.frames.map FrameRow.frame = frames := by
  simp only [loadPublicStreamFrames, bind_eq_ok, require_eq_ok, exists_const]
  constructor
  · rintro ⟨⟨hdiagnostic, hle, hpositive⟩, hrows, hcount, ⟨hsize, hdigest⟩, h⟩
    cases hstate : transcript.state with
    | terminal terminalSeq =>
      simp only [hstate] at h
      split at h
      case h_1 task =>
        simp only [bind_eq_ok, require_eq_ok, exists_const, Except.ok.injEq] at h
        refine ⟨⟨hdiagnostic, hle, hpositive, hrows, hcount, hsize, hdigest, ?_, ?_⟩, h.2⟩
        · exact fun _ _ => ⟨task, rfl, h.1⟩
        · exact fun hne => absurd hstate (hne _)
      case h_2 => simp [bind, Except.bind] at h
    | «open» =>
      simp only [hstate, bind_eq_ok, require_eq_ok, exists_const, Except.ok.injEq] at h
      refine ⟨⟨hdiagnostic, hle, hpositive, hrows, hcount, hsize, hdigest, ?_, fun _ => h.1⟩, h.2⟩
      simp [hstate]
    | interrupted error =>
      simp only [hstate, bind_eq_ok, require_eq_ok, exists_const, Except.ok.injEq] at h
      refine ⟨⟨hdiagnostic, hle, hpositive, hrows, hcount, hsize, hdigest, ?_, fun _ => h.1⟩, h.2⟩
      simp [hstate]
  · rintro ⟨hintact, rfl⟩
    refine ⟨⟨hintact.diagnostic, hintact.count_le, hintact.positive⟩, hintact.rows, hintact.count,
      ⟨hintact.size, hintact.digest⟩, ?_⟩
    cases hstate : transcript.state with
    | terminal terminalSeq =>
      obtain ⟨task, rfl, hvalid⟩ := hintact.closed _ hstate
      simp [hvalid]
    | «open» =>
      have hany := hintact.unclosed (by simp [hstate])
      simp only [bind_eq_ok, require_eq_ok, exists_const, hany, true_and]
    | interrupted error =>
      have hany := hintact.unclosed (by simp [hstate])
      simp only [bind_eq_ok, require_eq_ok, exists_const, hany, true_and]

/-! ## Delivery -/

variable {lease : OutboxLease} {task : Task} {result : SendMessageResponse}
  {frames : List StreamResponse} {outcome : TransitionOutcome}

/-- Delivering under the held lease closes the open attempt. -/
theorem deliver_closes (hvalid : DispatchValid d now) (hheld : d.heldBy lease = true) :
    List.Forall₂ (AttemptRow.ClosesTo now) d.attempts (d.attempts.map fun attempt =>
      if attempt.attemptNo = lease.attemptNo then attempt.close .delivered none now
      else attempt) := by
  obtain ⟨-, -, -, -, -, -, hnumber, -⟩ := Dispatch.heldBy_iff.mp hheld
  refine hvalid.attempts.closesTo_map ?_ ?_
  · intro attempt hclosed
    simp [AttemptRow.close, hclosed]
  · intro attempt hmem hopen hattempt _
    rw [if_pos (hattempt.trans hnumber)]
    exact AttemptRow.close_closesTo (hvalid.attempts.rows attempt hmem) (Nat.zero_le _)

/-- The transcript of an active dispatch is closed by a delivery that continues it. -/
theorem deliverTranscript_spec (hvalid : DispatchValid d now) (hactive : d.active = true)
    {transcript : Option TranscriptRow}
    (h : deliverTranscript o decoded d frames now = .ok transcript) :
    transcript = d.transcript.map (·.deliver o frames now) ∧ ∀ stored ∈ d.transcript,
      loadPublicStreamFrames decoded stored d.record.finalResult =
          .ok (stored.frames.map FrameRow.frame) ∧
        stored.frames.map FrameRow.frame <+: frames := by
  unfold deliverTranscript at h
  cases htranscript : d.transcript with
  | none =>
    simp only [htranscript] at h
    obtain rfl := Except.ok.inj h
    exact ⟨rfl, nofun⟩
  | some stored =>
    simp only [htranscript, (hvalid.transcript stored htranscript).open_of_active hactive,
      if_true, bind_eq_ok, require_eq_ok, exists_const] at h
    obtain ⟨persisted, hload, ⟨-, hpre⟩, h⟩ := h
    obtain rfl := Except.ok.inj h
    obtain rfl := (loadPublicStreamFrames_eq_ok.mp hload).2
    refine ⟨rfl, ?_⟩
    rintro x ⟨⟩
    exact ⟨hload, hpre ▸ List.take_prefix _ _⟩

/-- What committing an outcome does. -/
theorem commitDelivery_spec (cfg : Config) (hinv : Inv s now)
    (h : commitDelivery o decoded lease task result frames now s = .ok (outcome, s')) :
    (outcome = .stale ∧ s' = s ∧
        ∀ x ∈ s.dispatches, x.heldBy lease = true → lease.leaseUntil ≤ now) ∨
      ∃ row d attempts, d.heldBy lease = true ∧ now < lease.leaseUntil ∧ outcome = .applied ∧
        (Change.deliver o decoded row d attempts task result frames).Enabled cfg now s ∧
        s' = (Change.deliver o decoded row d attempts task result frames).run cfg now s := by
  simp only [commitDelivery, bind_eq_ok, require_eq_ok, encodeTask_eq_ok, exists_const] at h
  obtain ⟨⟨htask, hclosed, hfinal⟩, hsize, hterminal, ⟨-, hsizes⟩, h⟩ := h
  split at h
  case h_1 hnone =>
    obtain ⟨rfl, rfl⟩ := Prod.mk.inj (Except.ok.inj h)
    exact .inl ⟨rfl, rfl, fun x hx hheld =>
      absurd hheld (by simpa using List.find?_eq_none.mp hnone x hx)⟩
  case h_2 d hfind =>
    have hd := List.mem_of_find?_eq_some hfind
    have hheld : d.heldBy lease = true := by simpa using List.find?_some hfind
    obtain ⟨-, hleased, -, -, -, htaskId, -⟩ := Dispatch.heldBy_iff.mp hheld
    have hactive : d.active = true := Dispatch.active_iff.mpr (.inr hleased)
    split at h
    case isTrue hexpired =>
      obtain ⟨rfl, rfl⟩ := Prod.mk.inj (Except.ok.inj h)
      exact .inl ⟨rfl, rfl, fun _ _ _ => hexpired⟩
    case isFalse hlive =>
      simp only [bind_eq_ok, require_eq_ok, expect_eq_ok, exists_const] at h
      obtain ⟨-, row, hrow, h⟩ := h
      have hfound := List.find?_some hrow
      simp only [decide_eq_true_eq] at hfound
      have hmem := List.mem_of_find?_eq_some hrow
      have hcoherent := hinv.coherent_of_taskId hd hmem (hfound.2.trans htaskId.symm)
      split at h
      case isTrue hmoved => exact absurd (hcoherent.current.mp hactive).symm hmoved
      case isFalse hcurrent =>
        simp only [bind_eq_ok, nextRevision_eq_ok, ensureAtomicCapacity_eq_ok,
          ensureStreamCapacity_eq_ok, exists_const, Except.ok.injEq, Prod.mk.injEq] at h
        obtain ⟨transcript, htranscript, revision, ⟨-, rfl⟩, -, hstream, rfl, rfl⟩ := h
        have hvalid := hinv.dispatches d hd
        obtain ⟨rfl, hcontinues⟩ := deliverTranscript_spec hvalid hactive htranscript
        refine .inr ⟨row, d, _, hheld, by omega, rfl, ⟨⟨⟨hmem, hd,
          hfound.2.trans htaskId.symm⟩, hleased, not_not.mp hcurrent,
          deliver_closes hvalid hheld, htask.trans hfound.2.symm, hclosed, hfinal, hsize,
          hterminal, hsizes, hcontinues⟩, hstream⟩, rfl⟩

/-! ## Progress -/

omit [ContentDigest] in
theorem Dispatch.openTranscript?_eq_some {transcript : TranscriptRow} :
    d.openTranscript? = some transcript ↔
      d.transcript = some transcript ∧ transcript.state = .open := by
  simp [Dispatch.openTranscript?, Option.filter_eq_some_iff]

/-- What appending a progress frame does. -/
theorem appendStreamProgress_spec (cfg : Config) {tenantScope dispatchId : String}
    {frame : StreamResponse} {shown : Option StreamResponse} (hinv : Inv s now)
    (h : appendStreamProgress o decoded tenantScope dispatchId frame now s = .ok (shown, s')) :
    (s' = s ∧ ∀ x ∈ s.dispatches, x.tenantScope = tenantScope → x.dispatchId = dispatchId →
        ∀ t ∈ x.openTranscript?, (t.frames.map FrameRow.frame).any isWorkingUpdate = true) ∨
      ∃ d transcript, d.tenantScope = tenantScope ∧ d.dispatchId = dispatchId ∧
      (Change.progress o decoded d transcript frame).Enabled cfg now s ∧
      s' = (Change.progress o decoded d transcript frame).run cfg now s := by
  simp only [appendStreamProgress, bind_eq_ok, require_eq_ok, exists_const] at h
  obtain ⟨hworking, h⟩ := h
  split at h
  case h_1 hnone =>
    refine .inl ⟨(Prod.mk.inj (Except.ok.inj h)).2.symm, fun x hx htenant hid t ht => ?_⟩
    have hclosed := List.find?_eq_none.mp hnone x hx
    simp [htenant, hid, Option.mem_def.mp ht] at hclosed
  case h_2 d hfind =>
    have hd := List.mem_of_find?_eq_some hfind
    have hfound := List.find?_some hfind
    simp only [decide_eq_true_eq] at hfound
    split at h
    case h_1 hnone => simp [hnone] at hfound
    case h_2 transcript htranscript =>
      simp only [bind_eq_ok] at h
      obtain ⟨stored, hload, h⟩ := h
      split at h
      case h_1 existing hexisting =>
        refine .inl ⟨(Prod.mk.inj (Except.ok.inj h)).2.symm, fun x hx _ hid t ht => ?_⟩
        obtain rfl := hinv.dispatchIds.eq_of_key hx hd (hid.trans hfound.2.1.symm)
        obtain rfl := Option.some.inj (ht.symm.trans htranscript)
        obtain rfl := (loadPublicStreamFrames_eq_ok.mp hload).2
        exact List.any_eq_true.mpr
          ⟨existing, List.mem_of_find?_eq_some hexisting, List.find?_some hexisting⟩
      case h_2 hfirst =>
        simp only [bind_eq_ok, require_eq_ok, ensureStreamCapacity_eq_ok, exists_const,
          Except.ok.injEq, Prod.mk.injEq] at h
        obtain ⟨hcount, hstream, -, rfl⟩ := h
        obtain rfl := (loadPublicStreamFrames_eq_ok.mp hload).2
        obtain ⟨htranscript, hopen⟩ := Dispatch.openTranscript?_eq_some.mp htranscript
        refine .inr ⟨d, transcript, hfound.1, hfound.2.1, ⟨⟨hd,
          htranscript, hopen, hworking, hfirst, hload, by simpa using hcount⟩, hstream⟩, rfl⟩

/-! ## Cancellation -/

/-- The dispatch a cancellation acts on serves the unfinished task. -/
theorem cancellationTarget?_serves (hinv : Inv s now) (hrow : row ∈ s.tasks)
    (hopen : row.task.status.state.isTerminal = false)
    (h : cancellationTarget? s row.tenantScope row.task.id = some d) :
    d ∈ s.dispatches ∧ row.task.id = d.taskId ∧ d.serves row.task.status.state := by
  have hmem := List.argmax_mem h
  simp only [List.mem_filter, decide_eq_true_eq] at hmem
  obtain ⟨hd, -, htask⟩ := hmem
  refine ⟨hd, htask.symm, ?_⟩
  obtain ⟨x, hx, hxtask, hserves⟩ := hinv.served row hrow hopen
  have hxcoherent := hinv.coherent_of_taskId hx hrow hxtask.symm
  have hcancelable : x.state.cancelable = true := by
    rcases hserves with hactive | ⟨hdelivered, -⟩
    · rcases Dispatch.active_iff.mp hactive with hstate | hstate <;> rw [hstate] <;> rfl
    · rw [hdelivered]
      rfl
  have hle : toLex (x.state.cancelable, x.outboxId) ≤ toLex (d.state.cancelable, d.outboxId) :=
    List.le_of_mem_argmax (f := fun d : Dispatch => toLex (d.state.cancelable, d.outboxId))
      (List.mem_filter.mpr ⟨hx, by simp [hxtask, hxcoherent.tenant]⟩) h
  rw [hcancelable, Prod.Lex.toLex_le_toLex] at hle
  have hdcancelable : d.state.cancelable = true := by
    rcases hle with hlt | ⟨heq, -⟩
    · exact absurd hlt (not_lt.mpr (Bool.le_true _))
    · exact heq.symm
  rcases hserves with hactive | ⟨hdelivered, hwaiting⟩
  · -- the active dispatch is the newest one
    have hnewest : x.outboxId ≤ d.outboxId := by simpa [hdcancelable] using hle
    rcases hnewest.lt_or_eq with hlt | heq
    · have hrevision := hinv.ordered x hx d hd (hxtask.trans htask.symm) hlt
      have hcurrent := hxcoherent.current.mp hactive
      have hle := (hinv.coherent_of_taskId hd hrow htask.symm).causative_le
      omega
    · exact .inl (hinv.outboxIds.eq_of_key hx hd heq ▸ hactive)
  · cases hstate : d.state with
    | pending => exact .inl (Dispatch.active_iff.mpr (.inl hstate))
    | leased => exact .inl (Dispatch.active_iff.mpr (.inr hstate))
    | delivered => exact .inr ⟨hstate, hwaiting⟩
    | dead => simp [hstate, OutboxState.cancelable] at hdcancelable
    | superseded => simp [hstate, OutboxState.cancelable] at hdcancelable

omit [ContentDigest] in
theorem recordCancellation_eq_ok {audit : Option AuthorizationAuditInput} {reason : String}
    (h : recordCancellation audit reason s = .ok s') :
    ∃ decisions, s' = { s with decisions := s.decisions ++ decisions } := by
  cases audit with
  | none =>
    obtain rfl := Except.ok.inj h
    exact ⟨[], by simp⟩
  | some audit => exact ⟨_, insertAuthorizationAudit_eq_ok h⟩

/-- A cancellation of the dispatch is left to its receiver. -/
def Dispatch.awaitsReceiver (d : Dispatch) (now : Int) : Bool :=
  d.active && d.inbox.any fun inbox => inbox.state.isCompleted || inbox.live now

theorem Change.CancelEnabled.awaitsReceiver_eq_false
    (hc : Change.CancelEnabled decoded row d now s) : d.awaitsReceiver now = false := by
  cases hactive : d.active with
  | false => simp [Dispatch.awaitsReceiver, hactive]
  | true =>
    cases hinbox : d.inbox with
    | none => simp [Dispatch.awaitsReceiver, hinbox]
    | some inbox => simp [Dispatch.awaitsReceiver, hinbox, hc.idle hactive inbox hinbox]

/-- What a successful cancellation of a dispatch does. -/
inductive CancelEffect (cfg : Config) (decoded : HashOrder) (d : Dispatch) (now : Int)
    (s : Store) : CancellationOutcome → Store → Prop
  | awaited (inbox : InboxRow) (decisions : List AuthorizationAuditInput)
      (hd : d ∈ s.dispatches) (hactive : d.active = true)
      (hinbox : d.inbox = some inbox) (hasked : inbox.live now = false ∨ d.intent ≠ none)
      (hbusy : inbox.state.isCompleted = true ∨ inbox.live now = true) :
      CancelEffect cfg decoded d now s
        (.awaitReceiver d.messageId inbox.senderAttemptNo inbox.leaseEpoch)
        { s with decisions := s.decisions ++ decisions }
  | requested (inbox : InboxRow) (decisions : List AuthorizationAuditInput)
      (hinbox : d.inbox = some inbox) (henabled : (Change.request d).Enabled cfg now s) :
      CancelEffect cfg decoded d now s
        (.awaitReceiver d.messageId inbox.senderAttemptNo inbox.leaseEpoch)
        { (Change.request d).run cfg now s with decisions := s.decisions ++ decisions }
  | canceled (row : TaskRow) (decisions : List AuthorizationAuditInput)
      (henabled : (Change.cancel decoded row d).Enabled cfg now s) :
      CancelEffect cfg decoded d now s (.canceled (canceledTask row.task d.dispatchId now))
        { (Change.cancel decoded row d).run cfg now s with decisions := s.decisions ++ decisions }

variable {audit : Option AuthorizationAuditInput} {answer : CancellationOutcome}

theorem awaitReceiver_spec {inbox : InboxRow} (hd : d ∈ s.dispatches) (hactive : d.active = true)
    (hinbox : d.inbox = some inbox)
    (hbusy : inbox.state.isCompleted = true ∨ inbox.live now = true)
    (h : awaitReceiver d inbox audit now s = .ok (answer, s')) :
    CancelEffect cfg decoded d now s answer s' := by
  simp only [awaitReceiver, bind_eq_ok, require_eq_ok, exists_const, Except.ok.injEq,
    Prod.mk.injEq] at h
  obtain ⟨-, recorded, hrecorded, rfl, rfl⟩ := h
  obtain ⟨decisions, rfl⟩ := recordCancellation_eq_ok hrecorded
  split
  case isTrue hask =>
    exact .requested inbox decisions hinbox ⟨hd, hactive, hask.2, inbox, hinbox, hask.1⟩
  case isFalse hasked =>
    refine .awaited inbox decisions hd hactive hinbox ?_ hbusy
    rw [not_and_or] at hasked
    exact hasked.imp_left (by simp)

/-- The stream of a dispatch that is canceled without its receiver. -/
theorem appendCanceledPublicTerminal_spec {transcript : Option TranscriptRow}
    (hvalid : DispatchValid d now)
    (h : appendCanceledPublicTerminal decoded d task now = .ok transcript) :
    transcript = d.transcript.map (·.cancel decoded task now) ∧
      (d.active = true → ∀ stored ∈ d.transcript,
        loadPublicStreamFrames decoded stored d.record.finalResult =
            .ok (stored.frames.map FrameRow.frame) ∧
          validateTerminalPublicTranscript
            (stored.frames.map FrameRow.frame ++ [statusFrame task]) task = true) := by
  unfold appendCanceledPublicTerminal at h
  split at h
  case h_1 hclosed =>
    obtain rfl := Except.ok.inj h
    cases htranscript : d.transcript with
    | none => exact ⟨rfl, fun _ => nofun⟩
    | some stored =>
      have hne : stored.state ≠ .open := fun hopen => by
        simp [Dispatch.openTranscript?_eq_some.mpr ⟨htranscript, hopen⟩] at hclosed
      refine ⟨by rw [Option.map_some, TranscriptRow.cancel, if_neg hne], fun hactive => ?_⟩
      exact absurd ((hvalid.transcript stored htranscript).open_of_active hactive) hne
  case h_2 stored hstored =>
    obtain ⟨htranscript, hopen⟩ := Dispatch.openTranscript?_eq_some.mp hstored
    simp only [bind_eq_ok, require_eq_ok, exists_const, Except.ok.injEq] at h
    obtain ⟨persisted, hload, hterminal, rfl⟩ := h
    obtain rfl := (loadPublicStreamFrames_eq_ok.mp hload).2
    rw [htranscript]
    refine ⟨by rw [Option.map_some, TranscriptRow.cancel, if_pos hopen]; rfl, fun _ => ?_⟩
    rintro x ⟨⟩
    exact ⟨hload, hterminal⟩

theorem cancelDirectly_spec (hinv : Inv s now) (hrow : row ∈ s.tasks) (hd : d ∈ s.dispatches)
    (hid : row.task.id = d.taskId) (hopen : row.task.status.state.isTerminal = false)
    (hserves : d.serves row.task.status.state)
    (hidle : d.active = true → ∀ inbox ∈ d.inbox,
      inbox.state.isCompleted = false ∧ inbox.live now = false)
    (h : cancelDirectly decoded row d audit now s = .ok (answer, s')) :
    CancelEffect cfg decoded d now s answer s' := by
  simp only [cancelDirectly, bind_eq_ok, encodeTask_eq_ok, nextRevision_eq_ok,
    ensureAtomicCapacity_eq_ok, ensureStreamCapacity_eq_ok, exists_const, Except.ok.injEq,
    Prod.mk.injEq] at h
  obtain ⟨hsize, revision, ⟨-, rfl⟩, transcript, htranscript, recorded, hrecorded, -, hstream, rfl,
    rfl⟩ := h
  obtain ⟨decisions, rfl⟩ := recordCancellation_eq_ok hrecorded
  obtain ⟨rfl, hintact⟩ := appendCanceledPublicTerminal_spec (hinv.dispatches d hd) htranscript
  exact .canceled row decisions
    ⟨⟨⟨hrow, hd, hid⟩, hopen, hserves, hidle, hsize, hintact⟩, hstream⟩

/-- What a cancellation does. -/
theorem requestCancellation_spec (cfg : Config) {scope : CancellationScope} {taskId : String}
    (hinv : Inv s now)
    (h : requestCancellation decoded scope taskId now s = .ok (answer, s')) :
    ∃ d, cancellationTarget? s scope.tenantScope taskId = some d ∧ d.taskId = taskId ∧
      CancelEffect cfg decoded d now s answer s' := by
  simp only [requestCancellation, bind_eq_ok, require_eq_ok, expect_eq_ok, decodeTask_eq_ok,
    exists_const] at h
  obtain ⟨-, row, hfind, d, htarget, task, ⟨-, rfl⟩, hopen, h⟩ := h
  have hrow := List.mem_of_find?_eq_some hfind
  have hfound := List.find?_some hfind
  simp only [decide_eq_true_eq] at hfound
  obtain ⟨htenant, rfl, -⟩ := hfound
  rw [← htenant] at htarget ⊢
  obtain ⟨hd, hid, hserves⟩ := cancellationTarget?_serves hinv hrow hopen htarget
  have hcoherent := hinv.coherent_of_taskId hd hrow hid
  refine ⟨d, htarget, hid.symm, ?_⟩
  split at h
  case h_1 inbox hinbox =>
    split at h
    case isTrue hwait =>
      have hactive : d.active = true := by
        rcases hserves with hactive | ⟨-, hwaiting⟩
        · exact hactive
        · rcases hwaiting with hstate | hstate <;> simp [hstate] at hwait
      exact awaitReceiver_spec hd hactive hinbox hwait.2 h
    case isFalse hdirect =>
      refine cancelDirectly_spec hinv hrow hd hid hopen hserves ?_ h
      intro hactive x hx
      obtain rfl := Option.some.inj (hinbox.symm.trans hx)
      rw [not_and, not_or] at hdirect
      simpa using hdirect (hcoherent.working hactive)
  case h_2 hinbox =>
    refine cancelDirectly_spec hinv hrow hd hid hopen hserves ?_ h
    simp [hinbox]

end SmeshDurable
