import SmeshDurable.Driver.Outcome
import SmeshDurable.Protocol.Evolve

/-!
# Cancellation and completion

A cancellation request and the completion of the receiver race for a dispatch. Whichever is
stored first decides what the driver may commit: an outcome stored under a request is the
canceled one, and a request that finds an outcome changes nothing. What the driver commits
is canceled exactly when the outcome it folds reports the summary of a cancellation, which a
receiver can report that nobody asked to cancel.
-/

namespace SmeshDurable

open Transaction

/-- The outcome reads like that of a canceled dispatch. -/
def reportsCanceled (outcome : List MeshEvent × DurableReceiverTermination) : Prop :=
  outcome.2 = .success ∧ completedSummary outcome.1 = some durableCanceledSummary

instance (outcome : List MeshEvent × DurableReceiverTermination) :
    Decidable (reportsCanceled outcome) := inferInstanceAs (Decidable (_ ∧ _))

theorem reportsCanceled_canceledEvents : reportsCanceled (canceledEvents, .success) := by
  decide +kernel

/-- The state of the task that a delivery published as the result of its dispatch. -/
def Dispatch.deliveredState? (d : Dispatch) : Option TaskState :=
  match d.state, d.record.finalResult with
  | .delivered, some (.task task) => some task.status.state
  | _, _ => none

section Outcomes

variable {d d' : Dispatch}

theorem Dispatch.outcome?_eq_none_iff :
    d.outcome? = none ↔ ∀ inbox ∈ d.inbox, inbox.state.isCompleted = false := by
  unfold Dispatch.outcome?
  cases d.inbox with
  | none => simp
  | some inbox =>
    simp only [Option.bind_some, Option.mem_def, Option.some.injEq, forall_eq']
    cases inbox.state with
    | processing => simp [InboxState.isCompleted]
    | completed => simp [InboxState.isCompleted]

theorem receiverFrames_events [ContentDigest] (events : List MeshEvent) (now : Int) :
    (receiverFrames events now).map ReceiverFrameRow.event = events := by
  unfold receiverFrames
  rw [List.map_map]
  exact List.zipIdx_map_fst 0 events

/-- A dispatch later in a run: a request stays, an outcome stays, and after an outcome no
request is recorded. -/
structure Dispatch.Follows (d d' : Dispatch) : Prop where
  outboxId : d'.outboxId = d.outboxId
  intent : d.intent.isSome = true → d'.intent.isSome = true
  outcome : ∀ outcome, d.outcome? = some outcome →
    d'.outcome? = some outcome ∧ d'.intent.isSome = d.intent.isSome

theorem Dispatch.Follows.refl (d : Dispatch) : d.Follows d := ⟨rfl, fun h => h, fun _ h => ⟨h, rfl⟩⟩

theorem Dispatch.Follows.trans {d'' : Dispatch} (h : d.Follows d') (h' : d'.Follows d'') :
    d.Follows d'' := by
  refine ⟨h'.outboxId.trans h.outboxId, fun hintent => h'.intent (h.intent hintent), ?_⟩
  intro outcome houtcome
  obtain ⟨hkept, hintent⟩ := h.outcome outcome houtcome
  obtain ⟨hkept', hintent'⟩ := h'.outcome outcome hkept
  exact ⟨hkept', hintent'.trans hintent⟩

/-- The dispatch was neither completed nor delivered. -/
structure Dispatch.Rests (d d' : Dispatch) : Prop extends d.Follows d' where
  same_outcome : d'.outcome? = d.outcome?
  delivered : d'.state = .delivered → d.state = .delivered ∧ d'.record = d.record

theorem Dispatch.Rests.refl (d : Dispatch) : d.Rests d := ⟨.refl d, rfl, fun h => ⟨h, rfl⟩⟩

/-- A dispatch whose receiver row and request are as they were. -/
theorem Dispatch.Rests.of_eq (hid : d'.outboxId = d.outboxId) (hinbox : d'.inbox = d.inbox)
    (hintent : d'.intent = d.intent)
    (hdelivered : d'.state = .delivered → d.state = .delivered ∧ d'.record = d.record) :
    d.Rests d' := by
  have houtcome : d'.outcome? = d.outcome? := by rw [Dispatch.outcome?, Dispatch.outcome?, hinbox]
  refine ⟨⟨hid, ?_, ?_⟩, houtcome, hdelivered⟩
  · rw [hintent]
    exact fun h => h
  · rw [houtcome, hintent]
    exact fun _ h => ⟨h, rfl⟩

/-- A dispatch that the receiver has not completed and that only gained a request. -/
theorem Dispatch.Rests.of_uncompleted (hid : d'.outboxId = d.outboxId)
    (hbefore : d.outcome? = none) (hafter : d'.outcome? = none)
    (hintent : d.intent.isSome = true → d'.intent.isSome = true)
    (hstate : d'.state = d.state) (hrecord : d'.record = d.record) : d.Rests d' := by
  refine ⟨⟨hid, hintent, ?_⟩, hafter.trans hbefore.symm, fun h => ⟨hstate ▸ h, hrecord⟩⟩
  rw [hbefore]
  exact fun _ h => nomatch h

end Outcomes

section Changes

variable [ContentDigest] {cfg : Config} {s s' : Store} {now : Int} {d d' : Dispatch}

omit [ContentDigest] in
/-- The rows of a change that puts back one dispatch. -/
theorem Store.rests_put (hkeys : KeysValid s) (hd : d ∈ s.dispatches) (hrests : d.Rests d') :
    ∀ x ∈ s.dispatches, ∃ x' ∈ Keyed.put Dispatch.outboxId s.dispatches d', x.Rests x' :=
  hkeys.outboxIds.relates_put hd hrests.outboxId Dispatch.Rests.refl hrests

omit [ContentDigest] in
theorem Store.follows_put (hkeys : KeysValid s) (hd : d ∈ s.dispatches) (hfollows : d.Follows d') :
    ∀ x ∈ s.dispatches, ∃ x' ∈ Keyed.put Dispatch.outboxId s.dispatches d', x.Follows x' :=
  hkeys.outboxIds.relates_put hd hfollows.outboxId Dispatch.Follows.refl hfollows

omit [ContentDigest] in
theorem outcome?_voidLease (d : Dispatch) (now : Int) : (d.voidLeases now).outcome? = d.outcome? := by
  have hinbox : (d.voidLeases now).inbox = d.inbox.map (·.voidLease now) := by
    unfold Dispatch.voidLeases
    dsimp only
    split <;> rfl
  unfold Dispatch.outcome?
  rw [hinbox]
  cases d.inbox with
  | none => rfl
  | some inbox =>
    simp only [Option.map_some, Option.bind_some, InboxRow.voidLease]
    cases hstate : inbox.state with
    | processing => rfl
    | completed => simp only [hstate]

omit [ContentDigest] in
theorem Change.RequestEnabled.outcome?_eq_none (hc : Change.RequestEnabled d now s) :
    d.outcome? = none := by
  obtain ⟨inbox, hinbox, hlive⟩ := hc.live
  rw [Dispatch.outcome?_eq_none_iff]
  intro x hx
  obtain rfl := Option.some.inj (hinbox.symm.trans hx)
  cases hstate : inbox.state with
  | processing => rfl
  | completed => simp [InboxRow.live, hstate, InboxState.leaseUntil?] at hlive

/-- A change that stores nothing of a worker completes and delivers nothing. -/
theorem Change.rests {change : Change} (hinv : Inv s now) (hordinary : change.ordinary = true)
    (hc : change.Enabled cfg now s) :
    ∀ d ∈ s.dispatches, ∃ d' ∈ (change.run cfg now s).dispatches, d.Rests d' := by
  have hkeys := hinv.toKeysValid
  cases change with
  | progress | complete | deliver => cases hordinary
  | admission => exact fun d hd => ⟨d, List.mem_append_left _ hd, .refl d⟩
  | resume => exact fun d hd => ⟨d, List.mem_append_left _ hd, .refl d⟩
  | audit => exact fun d hd => ⟨d, hd, .refl d⟩
  | lease d =>
    apply Store.rests_put hkeys hc.1
    exact .of_eq rfl rfl rfl (by rintro ⟨⟩)
  | release d =>
    apply Store.rests_put hkeys hc.1
    exact .of_eq rfl rfl rfl fun hstate => ⟨hstate, rfl⟩
  | retry d =>
    apply Store.rests_put hkeys hc.1
    exact .of_eq rfl rfl rfl (by rintro ⟨⟩)
  | deadLetter row d =>
    apply Store.rests_put hkeys hc.1.mem_dispatches
    exact .of_eq rfl rfl rfl (by rintro ⟨⟩)
  | accept d inbox =>
    apply Store.rests_put hkeys hc.mem
    refine .of_uncompleted rfl ?_ ?_ (fun h => h) rfl rfl
    · simp [Dispatch.outcome?_eq_none_iff, hc.unaccepted]
    · simp [Dispatch.outcome?_eq_none_iff, hc.idle.1]
  | reclaim d old inbox =>
    apply Store.rests_put hkeys hc.mem
    refine .of_uncompleted rfl ?_ ?_ (fun h => h) rfl rfl
    · obtain ⟨owner, token, leaseUntil, hstate, -⟩ := hc.expired
      simp [Dispatch.outcome?_eq_none_iff, hc.inbox_eq, hstate, InboxState.isCompleted]
    · simp [Dispatch.outcome?_eq_none_iff, hc.idle]
  | request d =>
    apply Store.rests_put hkeys hc.mem
    have hnone := Change.RequestEnabled.outcome?_eq_none hc
    exact .of_uncompleted rfl hnone hnone (fun _ => rfl) rfl rfl
  | cancel decoded row d =>
    have hdead : d.state ≠ .dead := by
      rcases hc.1.serves with hactive | ⟨hdelivered, -⟩
      · rcases Dispatch.active_iff.mp hactive with hstate | hstate <;> simp [hstate]
      · simp [hdelivered]
    apply Store.rests_put hkeys hc.1.mem_dispatches
    rw [Change.supersede_eq hdead]
    exact .of_eq rfl rfl rfl (by rintro ⟨⟩)
  | voidLeases =>
    intro d hd
    have hrest : (d.voidLeases now).outboxId = d.outboxId ∧
        (d.voidLeases now).intent = d.intent ∧ (d.voidLeases now).state = d.state ∧
        (d.voidLeases now).record = d.record := by
      unfold Dispatch.voidLeases
      dsimp only
      split <;> exact ⟨rfl, rfl, rfl, rfl⟩
    obtain ⟨hid, hintent, hstate, hrecord⟩ := hrest
    have houtcome := outcome?_voidLease d now
    refine ⟨d.voidLeases now, List.mem_map_of_mem hd, ⟨hid, ?_, ?_⟩, houtcome, ?_⟩
    · rw [hintent]
      exact fun h => h
    · rw [houtcome, hintent]
      exact fun _ h => ⟨h, rfl⟩
    · rw [hstate]
      exact fun h => ⟨h, hrecord⟩
  | abandon =>
    intro d hd
    refine ⟨d.abandon now, List.mem_map_of_mem hd, ?_⟩
    unfold Dispatch.abandon
    split
    · exact .of_eq rfl rfl rfl (by rintro ⟨⟩)
    · exact .refl d

omit [ContentDigest] in
theorem answeredIntent_isSome (d : Dispatch) (kind : CompletionKind) (now : Int) :
    (d.answeredIntent kind now).isSome = d.intent.isSome := by
  unfold Dispatch.answeredIntent
  split
  · rw [Option.isSome_map]
  · rfl

theorem Change.CompleteEnabled.outcome?_eq_none {inbox : InboxRow} {kind : CompletionKind}
    {events : List MeshEvent} {termination : DurableReceiverTermination}
    (hc : Change.CompleteEnabled d inbox kind events termination now s) : d.outcome? = none := by
  obtain ⟨owner, token, leaseUntil, hstate, -⟩ := hc.live
  simp [Dispatch.outcome?_eq_none_iff, hc.inbox_eq, hstate, InboxState.isCompleted]

/-- What is stored first stays: a change withdraws no request, replaces no outcome, and records
no request for a dispatch with an outcome. -/
theorem Change.follows {change : Change} (hinv : Inv s now) (hc : change.Enabled cfg now s) :
    ∀ d ∈ s.dispatches, ∃ d' ∈ (change.run cfg now s).dispatches, d.Follows d' := by
  have hkeys := hinv.toKeysValid
  cases hordinary : change.ordinary with
  | true =>
    intro d hd
    obtain ⟨d', hd', hrests⟩ := change.rests hinv hordinary hc d hd
    exact ⟨d', hd', hrests.toFollows⟩
  | false =>
    cases change with
    | progress o decoded d transcript frame =>
      apply Store.follows_put hkeys hc.1.mem
      exact ⟨rfl, fun h => h, fun _ h => ⟨h, rfl⟩⟩
    | complete d inbox kind events termination =>
      apply Store.follows_put hkeys hc.mem
      refine ⟨rfl, ?_, ?_⟩
      · rw [answeredIntent_isSome]
        exact fun h => h
      · rw [Change.CompleteEnabled.outcome?_eq_none hc]
        exact fun _ h => nomatch h
    | deliver o decoded row d attempts task result frames =>
      apply Store.follows_put hkeys hc.1.mem_dispatches
      exact ⟨rfl, fun h => h, fun _ h => ⟨h, rfl⟩⟩
    | _ => cases hordinary

end Changes

/-! ## Runs of the driver -/

section Runs

variable [ContentDigest] {cfg : Config} {s s' : Store} {t now : Int} {d d' : Dispatch}
  {allowed : Store → Operation → Prop}

theorem follows_of_run (hinv : Inv s t) (hrun : (system cfg).Run allowed s t s' now)
    (hd : d ∈ s.dispatches) (hd' : d' ∈ s'.dispatches) (hid : d'.outboxId = d.outboxId) :
    d.Follows d' := by
  let Rel (a b : Store) : Prop := ∀ d ∈ a.dispatches, ∃ d' ∈ b.dispatches, d.Follows d'
  have htrans : ∀ a b c, Rel a b → Rel b c → Rel a c := by
    intro a b c hab hbc d hd
    obtain ⟨d', hd', hfollows⟩ := hab d hd
    obtain ⟨d'', hd'', hfollows'⟩ := hbc d' hd'
    exact ⟨d'', hd'', hfollows.trans hfollows'⟩
  have hrel : Rel s s' := relates_of_changes (fun _ d hd => ⟨d, hd, .refl d⟩) htrans
    (fun _ _ _ hinv hc => Change.follows hinv hc) hinv hrun
  obtain ⟨x, hx, hfollows⟩ := hrel d hd
  obtain rfl := (hinv.run hrun).outboxIds.eq_of_key hx hd' (hfollows.outboxId.trans hid.symm)
  exact hfollows

/-- What the driver keeps of a dispatch: an outcome stored under a request is the canceled one,
and what is delivered is canceled exactly if the outcome reports it. -/
structure Dispatch.Decided (d : Dispatch) : Prop where
  answered : ∀ outcome, d.outcome? = some outcome → d.intent.isSome = true →
    outcome = (canceledEvents, .success)
  delivered : d.state = .delivered → ∃ outcome state, d.outcome? = some outcome ∧
    d.deliveredState? = some state ∧ (state = .canceled ↔ reportsCanceled outcome)

omit [ContentDigest] in
theorem Dispatch.Decided.rests (h : d.Decided) (hrests : d.Rests d') : d'.Decided := by
  constructor
  · intro outcome houtcome hintent
    rw [hrests.same_outcome] at houtcome
    rw [(hrests.outcome outcome houtcome).2] at hintent
    exact h.answered outcome houtcome hintent
  · intro hstate
    obtain ⟨hwas, hrecord⟩ := hrests.delivered hstate
    obtain ⟨outcome, state, houtcome, hdelivered, hiff⟩ := h.delivered hwas
    refine ⟨outcome, state, hrests.same_outcome.trans houtcome, ?_, hiff⟩
    rw [← hdelivered, Dispatch.deliveredState?, Dispatch.deliveredState?, hstate, hwas, hrecord]

omit [ContentDigest] in
theorem Dispatch.decided_of_pending (hstate : d.state = .pending) (hinbox : d.inbox = none) :
    d.Decided := by
  constructor
  · simp [Dispatch.outcome?, hinbox]
  · simp [hstate]

/-- An outcome is stored: under a request only the canceled one. -/
theorem Dispatch.Decided.complete {inbox : InboxRow} {kind : CompletionKind}
    {events : List MeshEvent} {termination : DurableReceiverTermination} (h : d.Decided)
    (hvalid : DispatchValid d now)
    (hc : Change.CompleteEnabled d inbox kind events termination now s)
    (hcanceled : kind = .canceled → (events, termination) = (canceledEvents, .success)) :
    Dispatch.Decided { d with inbox := some (inbox.complete events termination kind now),
                              intent := d.answeredIntent kind now } := by
  have hnone := hc.outcome?_eq_none
  constructor
  · intro outcome houtcome hintent
    have hstored : outcome = (events, termination) := by
      simpa [Dispatch.outcome?, InboxRow.complete, receiverFrames_events, eq_comm] using houtcome
    rw [hstored]
    apply hcanceled
    by_contra hkind
    -- a dispatch that is being received and was asked to cancel has a requested intent
    rw [answeredIntent_isSome] at hintent
    obtain ⟨intent, hsome⟩ := Option.isSome_iff_exists.mp hintent
    obtain ⟨x, hx, hrequested⟩ := hvalid.intent intent hsome
    have hopen := Dispatch.outcome?_eq_none_iff.mp hnone x hx
    have hasked := hc.requested
    simp [Dispatch.cancellationRequested, hsome, hrequested.mpr hopen, hkind] at hasked
  · intro hstate
    obtain ⟨outcome, -, houtcome, -⟩ := h.delivered hstate
    rw [hnone] at houtcome
    cases houtcome

variable [ArtifactCodec]

omit [ContentDigest] [ArtifactCodec] in
theorem terminalStatus_canceled {events : List MeshEvent}
    {termination : DurableReceiverTermination} {state : TaskState} {summary : String} {keep : Bool}
    (h : terminalStatus events termination = .ok (state, summary, keep)) :
    state = .canceled ↔ reportsCanceled (events, termination) := by
  cases termination with
  | success =>
    simp only [terminalStatus, bind_eq_ok, expect_eq_ok] at h
    obtain ⟨reported, hreported, h⟩ := h
    simp only [reportsCanceled, hreported, true_and, Option.some.injEq]
    split at h
    · rename_i hcanceled
      cases h
      simp [hcanceled]
    · rename_i hcompleted
      cases h
      simp [hcompleted]
  | inputRequired message =>
    cases h
    simp [reportsCanceled]
  | authRequired message =>
    cases h
    simp [reportsCanceled]

theorem driverDelivery_state {dispatchId : String} {admitted task : Task}
    {events : List MeshEvent} {termination : DurableReceiverTermination}
    {shown : Option StreamResponse} {foldedAt shownAt : Int} {frames : List StreamResponse}
    (h : driverDelivery dispatchId admitted events termination shown foldedAt shownAt =
      .ok (task, frames)) :
    task.status.state = .canceled ↔ reportsCanceled (events, termination) := by
  simp only [driverDelivery, applyTerminalEvents, bind_eq_ok, Except.ok.injEq, Prod.mk.injEq] at h
  obtain ⟨final, ⟨artifacts, -, ⟨state, summary, keep⟩, hstatus, rfl⟩, rfl, -⟩ := h
  exact terminalStatus_canceled hstatus

omit [ArtifactCodec] in
theorem Dispatch.Decided.deliver {o decoded : HashOrder} {row : TaskRow}
    {attempts : List AttemptRow} {task : Task} {frames : List StreamResponse}
    {outcome : List MeshEvent × DurableReceiverTermination} (h : d.Decided)
    (hvalid : DispatchValid d now)
    (hc : Change.DeliverEnabled o decoded row d attempts task (.task task) frames now s)
    (houtcome : d.outcome? = some outcome)
    (hstate : task.status.state = .canceled ↔ reportsCanceled outcome) :
    Dispatch.Decided { d.settle .delivered d.lastError now with
      record := d.record.complete (.task task) now
      transcript := d.transcript.map (·.deliver o frames now)
      attempts } := by
  constructor
  · exact h.answered
  · intro _
    refine ⟨outcome, task.status.state, houtcome, ?_, hstate⟩
    have hprogress : d.record.state = .inProgress :=
      hvalid.record.mpr (Dispatch.active_iff.mpr (.inr hc.leased))
    simp [Dispatch.deliveredState?, Dispatch.settle, RecordRow.complete, hprogress]

/-- Every operation of the driver keeps dispatches decided. -/
theorem decided_preserved :
    Preserved cfg Driven fun s => ∀ d ∈ s.dispatches, d.Decided := by
  constructor
  · intro change s now hinv hordinary hc hdecided x hx
    have hforward : ∀ d ∈ s.dispatches, ∃ d' ∈ (change.run cfg now s).dispatches,
        d'.outboxId = d.outboxId ∧ d.Rests d' := by
      intro d hd
      obtain ⟨d', hd', hrests⟩ := change.rests hinv hordinary hc d hd
      exact ⟨d', hd', hrests.outboxId, hrests⟩
    rcases Change.origin_of hinv hc hforward x hx with ⟨hstate, hinbox⟩ | ⟨d, hd, hrests⟩
    · exact Dispatch.decided_of_pending hstate hinbox
    · exact (hdecided d hd).rests hrests
  · intro s op s' hinv hdriven heffect hdecided x hx
    cases heffect with
    | none => exact hdecided x hx
    | progress o decoded d transcript frame now hc =>
      rcases Store.mem_putDispatch hx hc.1.mem rfl with rfl | ⟨hx, -⟩
      · exact (hdecided d hc.1.mem).rests (.of_eq rfl rfl rfl fun hstate => ⟨hstate, rfl⟩)
      · exact hdecided x hx
    | complete _ d inbox kind events termination hop hc =>
      rcases Store.mem_putDispatch hx hc.mem rfl with rfl | ⟨hx, -⟩
      · apply (hdecided d hc.mem).complete (hinv.dispatches d hc.mem) hc
        rintro rfl
        cases op with
        | completeCanceledReceive lease stored now =>
          obtain ⟨-, -, -, hevents, htermination⟩ := hop
          rw [hevents, htermination, show stored = canceledEvents from hdriven]
        | completeReceive => simp [Operation.completes] at hop
        | completeLoopbackOutcome => simp [Operation.completes] at hop
        | _ => exact hop.elim
      · exact hdecided x hx
    | deliver o decoded row d attempts lease task result frames now hheld hc =>
      rcases Store.mem_commit hx hc.1.mem_dispatches rfl with rfl | ⟨hx, -⟩
      · obtain ⟨y, hy, -, hid, events, termination, admitted, shown, foldedAt, shownAt, houtcome,
          -, -, hdelivery, rfl⟩ := hdriven
        obtain ⟨-, -, -, -, hheldId, -⟩ := Dispatch.heldBy_iff.mp hheld
        obtain rfl := hinv.dispatchIds.eq_of_key hy hc.1.mem_dispatches (hid.trans hheldId.symm)
        exact (hdecided y hy).deliver (hinv.dispatches y hy) hc.1 houtcome
          (driverDelivery_state hdelivery)
      · exact hdecided x hx

omit [ArtifactCodec] in
/-- A cancellation that finds the outcome of the receiver changes no task and no dispatch. -/
theorem requestCancellation_of_outcome (cfg : Config) {decoded : HashOrder} {scope : CancellationScope}
    {answer : CancellationOutcome} (hinv : Inv s now) (hd : d ∈ s.dispatches)
    (hactive : d.active = true) (houtcome : d.outcome? ≠ none)
    (h : requestCancellation decoded scope d.taskId now s = .ok (answer, s')) :
    s'.tasks = s.tasks ∧ s'.dispatches = s.dispatches := by
  obtain ⟨target, -, htask, heffect⟩ := requestCancellation_spec cfg hinv h
  cases heffect with
  | awaited inbox decisions => exact ⟨rfl, rfl⟩
  | requested inbox decisions hinbox hc =>
    -- the receiver of the active dispatch is not at work any more
    obtain rfl := hinv.active_unique hc.mem hd htask hc.active hactive
    exact absurd (Change.RequestEnabled.outcome?_eq_none hc) houtcome
  | canceled row decisions hc =>
    have hrow : row.task.id = d.taskId := hc.1.taskId_eq.trans htask
    have hworking := (hinv.coherent_of_taskId hd hc.1.mem_tasks hrow).working hactive
    rcases hc.1.serves with hserves | ⟨-, hwaiting⟩
    · obtain rfl := hinv.active_unique hc.1.mem_dispatches hd htask hserves hactive
      have hnone : target.outcome? = none := Dispatch.outcome?_eq_none_iff.mpr
        fun inbox hinbox => (hc.1.idle hactive inbox hinbox).1
      exact absurd hnone houtcome
    · rcases hwaiting with hstate | hstate <;> simp [hstate] at hworking

omit [ArtifactCodec] in
theorem requestCancellation_terminal {decoded : HashOrder} {scope : CancellationScope}
    {answer : CancellationOutcome} (hinv : Inv s now) {row : TaskRow} (hrow : row ∈ s.tasks)
    (hterminal : row.task.status.state.isTerminal = true) :
    requestCancellation decoded scope row.task.id now s ≠ .ok (answer, s') := by
  intro h
  simp only [requestCancellation, bind_eq_ok, require_eq_ok, expect_eq_ok, decodeTask_eq_ok] at h
  obtain ⟨-, -, found, hfind, -, -, task, ⟨-, rfl⟩, -, hopen, -⟩ := h
  have hfound := List.find?_some hfind
  simp only [decide_eq_true_eq] at hfound
  obtain rfl := hinv.taskIds.eq_of_key (List.mem_of_find?_eq_some hfind) hrow hfound.2.1
  simp [hterminal] at hopen

/-- The race of a cancellation with the receiver's completion has one winner. For a dispatch at
any point of a run of the driver and at any later point:

* if a request was recorded and no outcome was, only a canceled outcome is delivered later;
* if an outcome was stored and no request was recorded, none is recorded later, the outcome
  stays, and a cancellation changes neither a task nor a dispatch while the dispatch is
  outstanding, and is refused once the task is terminal (in between, a task that waits for its
  client may be canceled, and a continued one has a dispatch of its own);
* a delivered dispatch ends canceled exactly if a request was recorded, as long as and only if
  its receiver did not report the summary of a cancellation that nobody requested. -/
theorem cancellation_or_completion_wins (h : ReachableBy cfg Driven s t)
    (hrun : (system cfg).Run Driven s t s' now) (hd : d ∈ s.dispatches)
    (hd' : d' ∈ s'.dispatches) (hid : d'.outboxId = d.outboxId) :
    (d.intent.isSome = true → d.outcome? = none → d'.state = .delivered →
      d'.deliveredState? = some .canceled) ∧
    (∀ outcome, d.outcome? = some outcome → d.intent = none →
      d'.intent = none ∧ d'.outcome? = some outcome ∧
        ∀ decoded scope answer s'', d'.active = true →
          requestCancellation decoded scope d'.taskId now s' = .ok (answer, s'') →
            s''.tasks = s'.tasks ∧ s''.dispatches = s'.dispatches) ∧
    (∀ row ∈ s'.tasks, row.task.id = d'.taskId → row.task.status.state.isTerminal = true →
      ∀ decoded scope answer s'',
        requestCancellation decoded scope d'.taskId now s' ≠ .ok (answer, s'')) ∧
    (d'.state = .delivered →
      ((d'.deliveredState? = some .canceled ↔ d'.intent.isSome = true) ↔
        (d'.intent = none → ∀ outcome, d'.outcome? = some outcome →
          ¬ reportsCanceled outcome))) := by
  have hinv := h.inv
  have hinv' := hinv.run hrun
  have hfollows := follows_of_run hinv hrun hd hd' hid
  have hdecided : d'.Decided := by
    have hempty : ∀ d ∈ Store.empty.dispatches, d.Decided := fun _ hd => nomatch hd
    exact decided_preserved.run hinv hrun (decided_preserved.reachable hempty h) d' hd'
  refine ⟨?_, ?_, ?_, ?_⟩
  · intro hintent hnone hstate
    obtain ⟨outcome, state, houtcome, hdelivered, hiff⟩ := hdecided.delivered hstate
    rw [hdecided.answered outcome houtcome (hfollows.intent hintent)] at hiff
    rw [hdelivered, hiff.mpr reportsCanceled_canceledEvents]
  · intro outcome houtcome hintent
    obtain ⟨hkept, hsame⟩ := hfollows.outcome outcome houtcome
    rw [hintent, Option.isSome_none, Option.isSome_eq_false_iff, Option.isNone_iff_eq_none] at hsame
    refine ⟨hsame, hkept, ?_⟩
    intro decoded scope answer s'' hactive hcancel
    exact requestCancellation_of_outcome cfg hinv' hd' hactive (by simp [hkept]) hcancel
  · intro row hrow hid hterminal decoded scope answer s''
    rw [← hid]
    exact requestCancellation_terminal hinv' hrow hterminal
  · intro hstate
    obtain ⟨outcome, state, houtcome, hdelivered, hiff⟩ := hdecided.delivered hstate
    have hstored : ∀ other, d'.outcome? = some other ↔ other = outcome := by
      intro other
      rw [houtcome, Option.some.injEq, eq_comm]
    simp only [hdelivered, Option.some.injEq, hiff, hstored, forall_eq]
    cases hintent : d'.intent with
    | none => simp
    | some intent =>
        have hreports : reportsCanceled outcome := by
          rw [hdecided.answered outcome houtcome (by rw [hintent]; rfl)]
          exact reportsCanceled_canceledEvents
        simp [hreports]

end Runs

/-! ## A dispatch that reports a cancellation nobody requested -/

/-- Decodes no artifact. -/
@[reducible] def plainCodec : ArtifactCodec where
  readPayload _ := none
  readArtifact _ := none

attribute [local instance] checksumDigest plainCodec

/-- The sample dispatch completed by its receiver at instant 3. -/
def sampleOutcome (events : List MeshEvent) : List Operation :=
  sampleAccepted false ++ [.completeReceive sampleReceiverLease events 3]

/-- What the driver commits for it at instant 4. -/
def sampleFolded (events : List MeshEvent) : Task × List StreamResponse :=
  ((driverDelivery sampleLease.dispatchId sampleTask events .success none 4 4).toOption).getD
    (sampleTask, [])

def sampleCommit (events : List MeshEvent) : Operation :=
  .commitDelivery .sorted .sorted sampleLease (sampleFolded events).1
    (.task (sampleFolded events).1) (sampleFolded events).2 4

/-- The commit is one of the driver. -/
theorem sampleCommit_driven (events : List MeshEvent)
    (hfold : (driverDelivery sampleLease.dispatchId sampleTask events .success none 4 4).isOk = true)
    (hstored : ∃ d ∈ (sampleStore (sampleOutcome events)).dispatches,
      d.tenantScope = sampleLease.tenantScope ∧ d.dispatchId = sampleLease.dispatchId ∧
        d.outcome? = some (events, .success) ∧ d.transcript = none ∧
        ∃ row ∈ (sampleStore (sampleOutcome events)).tasks, row.task.id = d.taskId ∧
          ∃ event ∈ row.events, d.causativeRevision ≤ event.taskRevision ∧
            event.eventTask = sampleTask) :
    Driven (sampleStore (sampleOutcome events)) (sampleCommit events) := by
  obtain ⟨d, hd, htenant, hid, houtcome, htranscript, hread⟩ := hstored
  refine ⟨d, hd, htenant, hid, events, .success, sampleTask, none, 4, 4, houtcome, hread, ?_, ?_,
    rfl⟩
  · rw [Dispatch.ShownProgress, htranscript]
  · rw [hid, sampleFolded]
    cases hresult : driverDelivery sampleLease.dispatchId sampleTask events .success none 4 4 with
    | ok result => rfl
    | error => rw [hresult] at hfold; cases hfold

theorem sampleCommit_reachable {events : List MeshEvent}
    (hdriven : Driven (sampleStore (sampleOutcome events)) (sampleCommit events)) :
    ReachableBy sampleConfig Driven (sampleStore (sampleOutcome events)) 3 ∧
      (system sampleConfig).Run Driven (sampleStore (sampleOutcome events)) 3
        (sampleStore (sampleOutcome events ++ [sampleCommit events])) 4 := by
  constructor
  · have hpermits : (system sampleConfig).Permits Driven Store.empty (sampleOutcome events) :=
      ⟨trivial, trivial, trivial, trivial, trivial⟩
    refine ⟨0, ?_⟩
    apply Clocked.Run.foldl (sampleOutcome events) _ _ hpermits
    · simp [sampleOutcome, sampleAccepted, sampleClaimed, system, Operation.now, sampleAdmission]
    · simp [sampleOutcome, sampleAccepted, sampleClaimed, system, Operation.now, sampleAdmission]
  · rw [sampleStore, sampleStore, List.foldl_append]
    exact Clocked.Run.refl.step (show (3 : Int) ≤ 4 by decide) hdriven

/-- The sample dispatch ends completed, and nobody requested a cancellation. -/
theorem sampleCommit_decided :
    ∃ d ∈ (sampleStore (sampleOutcome [.completed "done"])).dispatches,
      ∃ d' ∈ (sampleStore (sampleOutcome [.completed "done"] ++
          [sampleCommit [.completed "done"]])).dispatches,
        d'.deliveredState? = some .completed ∧
          ((d'.deliveredState? = some .canceled ↔ d'.intent.isSome = true) ↔
            (d'.intent = none → ∀ outcome, d'.outcome? = some outcome →
              ¬ reportsCanceled outcome)) := by
  have hdriven := sampleCommit_driven [.completed "done"] (by decide +kernel) (by decide +kernel)
  obtain ⟨hreachable, hrun⟩ := sampleCommit_reachable hdriven
  have hrows : ∃ d ∈ (sampleStore (sampleOutcome [.completed "done"])).dispatches,
      ∃ d' ∈ (sampleStore (sampleOutcome [.completed "done"] ++
          [sampleCommit [.completed "done"]])).dispatches,
        d'.outboxId = d.outboxId ∧ d'.state = .delivered ∧
          d'.deliveredState? = some .completed := by
    decide +kernel
  obtain ⟨d, hd, d', hd', hid, hstate, hcompleted⟩ := hrows
  have hwins := cancellation_or_completion_wins hreachable hrun hd hd' hid
  exact ⟨d, hd, d', hd', hcompleted, hwins.2.2.2 hstate⟩

/-- A receiver that was not asked to cancel completes with the summary of a cancellation, and
its task ends canceled. -/
theorem uncancelled_task_ends_canceled :
    ∃ s t, ReachableBy sampleConfig Driven s t ∧
      ∃ d ∈ s.dispatches, d.intent = none ∧ d.deliveredState? = some .canceled := by
  have hdriven := sampleCommit_driven [.completed durableCanceledSummary] (by decide +kernel)
    (by decide +kernel)
  obtain ⟨⟨start, hreachable⟩, hrun⟩ := sampleCommit_reachable hdriven
  exact ⟨_, 4, ⟨start, hreachable.trans hrun⟩, by decide +kernel⟩

end SmeshDurable
