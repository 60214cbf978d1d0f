import SmeshDurable.Protocol.Evolve

/-!
# Accepted work

Once a receiver has accepted a dispatch, its row is never dead-lettered, and as long as the
outcome is neither committed nor canceled, a claim that accepts its arguments and finds the
store within its checks leases the row again when its turn comes. A dispatch is completed at
most once, under the newest execution lease, and a lease that ran out or was superseded
changes nothing.
-/

namespace SmeshDurable

open Transaction

/-- The row a claim acts on: an expired lease that needs no new attempt, or else work for one. -/
def Store.picks (s : Store) (now : Int) : Option Dispatch :=
  (expiredFinal? s now).or (claimable? s now)

/-- A claim can pick the row up: it is queued and due, or its lease ran out after the receiver
accepted it, and no receiver is at work. -/
def Dispatch.offered (d : Dispatch) (now : Int) : Bool :=
  (d.state == .pending && d.availableAt ≤ now && d.attemptCount < d.maxAttempts) ||
    (d.leaseExpired now && d.receiverAccepted && !d.inbox.any fun inbox => inbox.live now)

/-- The sender's lease is not the current one of its row: another token or another attempt. -/
def Store.supersedes (s : Store) (lease : OutboxLease) : Prop :=
  ∀ d ∈ s.dispatches, d.outboxId = lease.outboxId →
    d.leaseToken ≠ some lease.leaseToken ∨ d.attemptCount ≠ lease.attemptNo

/-- The execution lease is not the current one of its dispatch: another epoch or another token. -/
def Store.supersedesReceiver (s : Store) (lease : ReceiverLease) : Prop :=
  ∀ d ∈ s.dispatches, d.tenantScope = lease.tenantScope → d.dispatchId = lease.dispatchId →
    ∀ inbox, d.inbox = some inbox → inbox.leaseEpoch ≠ lease.leaseEpoch ∨
      ∀ owner leaseUntil, inbox.state ≠ .processing owner lease.leaseToken leaseUntil

variable {s s' : Store} {now t : Int} {d : Dispatch} {inbox : InboxRow}

theorem Dispatch.receiverAccepted_iff : d.receiverAccepted = true ↔
    ∃ inbox, d.inbox = some inbox ∧ inbox.payloadDigest = d.payloadDigest := by
  cases hinbox : d.inbox <;> simp [Dispatch.receiverAccepted, hinbox]

section

variable [ContentDigest]

/-- The dead letter of a row's expired attempt fits: the failed task and its revision, and the
streams and rows of the store it would leave. -/
def Store.deadLetterFits (s : Store) (d : Dispatch) (now : Int) (messageId : String) : Bool :=
  (s.taskRow? d.taskId).any fun row =>
    let failed := deadLetteredTask row.task expiredFinalError messageId now
    let s' := s.commit (row.append (row.revision + 1) .deadLettered failed now)
      { (d.deadLetter (.task failed) expiredFinalError now).settle .dead (some expiredFinalError)
          now with
        attempts := d.attempts.map (AttemptRow.close .dead (some expiredFinalError) now) }
    failed.jsonBytes ≤ maxTaskJsonBytes && (row.revision : Int) + 1 ≤ i64Max &&
      s'.streamBytes ≤ maxStoreJsonBytes && s'.atomicFits

/-- A new lease of a row has an end the column can hold, and the store has room for it. -/
def Store.leaseFits (s : Store) (leased : Dispatch) (now duration : Int) : Bool :=
  now + duration ≤ i64Max && (s.putDispatch leased).atomicFits

/-- An expired lease can be reconciled: its receiver is at work, or there is room for a new
lease of an accepted row or for the dead letter of another. -/
def Store.reconcileFits (s : Store) (d : Dispatch) (owner : String) (now duration : Int)
    (entropy : List UInt8) (messageId : String) : Bool :=
  match d.inbox with
  | some inbox => inbox.live now || s.leaseFits
      (d.release owner (claimToken d.dispatchId owner now entropy) (now + duration) now) now
      duration
  | none => s.deadLetterFits d now messageId

/-- The store accepts a claim: the arguments are valid, its records pass their checks, and the
row whose turn it is can be reconciled or leased. -/
def Store.acceptsClaim (s : Store) (owner : String) (now duration : Int) (entropy : List UInt8)
    (messageId : String) : Bool :=
  !owner.isEmpty && owner.utf8ByteSize ≤ maxAtomicTextBytes && 0 < duration &&
    validateAtomicRecords s &&
    match expiredFinal? s now with
    | some d => s.reconcileFits d owner now duration entropy messageId
    | none => (claimable? s now).all fun d => s.leaseFits
        (d.lease owner (claimToken d.dispatchId owner now entropy) (now + duration) now) now
        duration

variable {cfg : Config} {owner messageId : String} {duration : Int} {entropy : List UInt8}

theorem reconcileExpired_ok_iff (cfg : Config) (hinv : Inv s now) (hfirst : expiredFinal? s now = some d) :
    (∃ result, reconcileExpired d owner now duration entropy messageId s = .ok result) ↔
      s.reconcileFits d owner now duration entropy messageId = true := by
  obtain ⟨hd, hexpired, -⟩ := expiredFinal?_eq_some hfirst
  unfold reconcileExpired Store.reconcileFits
  cases hinbox : d.inbox with
  | some inbox =>
    have hdigest := ((hinv.dispatches d hd).inbox inbox hinbox).payloadDigest
    cases hlive : inbox.live now <;> simp [bind_eq_ok, hdigest, hlive, Store.leaseFits]
  | none =>
    obtain ⟨row, hmem, hid, -⟩ := hinv.coherent d hd
    have hrow : s.taskRow? d.taskId = some row := hinv.taskIds.get?_eq_some hmem hid
    have hleased := Dispatch.leased_of_leaseExpired hexpired
    obtain ⟨-, hopen⟩ := working_of_leased hinv hd hleased hrow
    have hok := expired_deadLetter_ok cfg expiredFinalError messageId hinv hd hleased hrow
    simp only [bind_eq_ok, expect_eq_ok, hrow, Option.some.injEq, exists_eq_left', hopen,
      Bool.false_eq_true, if_false, ensureAtomicCapacity_eq_ok, exists_const, Store.deadLetterFits,
      Option.any_some, Bool.and_eq_true, decide_eq_true_eq]
    constructor
    · rintro ⟨result, failed, hfailed, hfits, -⟩
      obtain ⟨-, hrun⟩ := expired_deadLetter cfg hinv hd hleased hinbox hrow (by decide)
        hfailed
      obtain ⟨hsize, hrevision, hstream⟩ := hok.mp ⟨failed, hfailed⟩
      exact ⟨⟨⟨hsize, hrevision⟩, hstream⟩, (congrArg Store.atomicFits hrun).trans hfits⟩
    · rintro ⟨⟨⟨hsize, hrevision⟩, hstream⟩, hfits⟩
      obtain ⟨failed, hfailed⟩ := hok.mpr ⟨hsize, hrevision, hstream⟩
      obtain ⟨-, hrun⟩ := expired_deadLetter cfg hinv hd hleased hinbox hrow (by decide)
        hfailed
      exact ⟨_, failed, hfailed, (congrArg Store.atomicFits hrun).symm.trans hfits, rfl⟩

/-- When a claim is accepted, in terms of its arguments and the state before. -/
theorem claimOutbox_ok_iff (cfg : Config) (hinv : Inv s now) :
    (∃ result, claimOutbox owner now duration entropy messageId s = .ok result) ↔
      s.acceptsClaim owner now duration entropy messageId = true := by
  simp only [claimOutbox, Store.acceptsClaim, bind_eq_ok, require_eq_ok, exists_const,
    Bool.and_eq_true, Bool.not_eq_true', decide_eq_true_eq, exists_and_left, and_assoc]
  refine and_congr_right fun _ => and_congr_right fun _ => and_congr_right fun _ =>
    and_congr_right fun _ => ?_
  cases hfinal : expiredFinal? s now with
  | some d => exact reconcileExpired_ok_iff cfg hinv hfinal
  | none => cases claimable? s now <;> simp [bind_eq_ok, Store.leaseFits]

/-- A claim that acts on an offered row leases it. -/
theorem claimOutbox_offered {claimed : Option OutboxLease} (cfg : Config) (hinv : Inv s now) (hpicks : s.picks now = some d)
    (hoffered : d.offered now = true)
    (h : claimOutbox owner now duration entropy messageId s = .ok (claimed, s')) :
    ∃ lease, claimed = some lease ∧ lease.outboxId = d.outboxId := by
  cases claimOutbox_spec cfg hinv h with
  | busy x inbox hfirst hinbox hlive =>
    rw [Store.picks, hfirst, Option.some_or, Option.some_inj] at hpicks
    subst hpicks
    have hleased := Dispatch.leased_of_leaseExpired (expiredFinal?_eq_some hfirst).2.1
    simp [Dispatch.offered, hleased, hinbox, hlive] at hoffered
  | idle hfinal hnone =>
    rw [Store.picks, hfinal, hnone] at hpicks
    cases hpicks
  | leased x owner token leaseUntil hfinal hfirst henabled =>
    rw [Store.picks, hfinal, Option.none_or, hfirst, Option.some_inj] at hpicks
    subst hpicks
    exact ⟨_, rfl, rfl⟩
  | released x owner token leaseUntil hfirst haccepted hidle henabled =>
    rw [Store.picks, hfirst, Option.some_or, Option.some_inj] at hpicks
    subst hpicks
    exact ⟨_, rfl, rfl⟩
  | deadLettered row x attempts hfirst henabled =>
    rw [Store.picks, hfirst, Option.some_or, Option.some_inj] at hpicks
    subst hpicks
    -- a dead letter is for rows that nobody accepted
    have hleased := henabled.1.leased
    have hunaccepted := henabled.1.unaccepted
    simp [Dispatch.offered, hleased, Dispatch.receiverAccepted, hunaccepted] at hoffered

/-- Exactly when a claim leases an offered row: it is the row's turn and the claim is accepted. -/
theorem claimOutbox_leases_iff (cfg : Config) (hinv : Inv s now) (hd : d ∈ s.dispatches)
    (hoffered : d.offered now = true) :
    (∃ lease s', claimOutbox owner now duration entropy messageId s = .ok (some lease, s') ∧
        lease.outboxId = d.outboxId) ↔
      s.picks now = some d ∧ s.acceptsClaim owner now duration entropy messageId = true := by
  rw [← claimOutbox_ok_iff cfg hinv]
  constructor
  · rintro ⟨lease, s', hclaim, hid⟩
    refine ⟨?_, _, hclaim⟩
    cases claimOutbox_spec cfg hinv hclaim with
    | leased x owner token leaseUntil hfinal hfirst henabled =>
      rw [Store.picks, hfinal, Option.none_or, hfirst,
        hinv.outboxIds.eq_of_key (claimable?_eq_some hfirst).1 hd hid]
    | released x owner token leaseUntil hfirst haccepted hidle henabled =>
      rw [Store.picks, hfirst, Option.some_or,
        hinv.outboxIds.eq_of_key (expiredFinal?_eq_some hfirst).1 hd hid]
  · rintro ⟨hpicks, ⟨claimed, s'⟩, hclaim⟩
    obtain ⟨lease, rfl, hid⟩ := claimOutbox_offered cfg hinv hpicks hoffered hclaim
    exact ⟨lease, s', hclaim, hid⟩

/-- An accepted row that still owes its outcome is offered from some instant on. -/
theorem DispatchValid.eventually_offered (hvalid : DispatchValid d now) (hactive : d.active = true)
    (haccepted : d.receiverAccepted = true) : ∃ due, ∀ later ≥ due, d.offered later = true := by
  obtain ⟨inbox, hinbox, -⟩ := Dispatch.receiverAccepted_iff.mp haccepted
  rcases Dispatch.active_iff.mp hactive with hpending | hleased
  · refine ⟨d.availableAt, fun later hlater => ?_⟩
    simp [Dispatch.offered, hpending, hvalid.attemptCount_lt hpending, hlater.le]
  · obtain ⟨leaseUntil, hlease⟩ := Option.isSome_iff_exists.mp (hvalid.leased hleased).2.2
    -- the sender's lease and the receiver's both have an end
    obtain ⟨receiverUntil, hreceiver⟩ : ∃ receiverUntil, ∀ later ≥ receiverUntil,
        inbox.live later = false := by
      cases hstate : inbox.state with
      | processing owner token until_ =>
        refine ⟨until_, fun later hlater => ?_⟩
        simpa [InboxRow.live, hstate, InboxState.leaseUntil?] using hlater
      | completed => exact ⟨0, fun _ _ => by simp [InboxRow.live, hstate, InboxState.leaseUntil?]⟩
    refine ⟨max leaseUntil receiverUntil, fun later hlater => ?_⟩
    have hexpired : leaseUntil ≤ later := (le_max_left _ _).trans hlater
    have hidle := hreceiver later ((le_max_right _ _).trans hlater)
    simp [Dispatch.offered, Dispatch.leaseExpired, hleased, hlease, hexpired, haccepted, hinbox,
      hidle]

omit [ContentDigest] in
/-- The receiver's acceptance stays. -/
theorem Dispatch.Evolves.receiverAccepted {d' : Dispatch} (h : d.Evolves d')
    (haccepted : d.receiverAccepted = true) : d'.receiverAccepted = true := by
  obtain ⟨inbox, hinbox, hdigest⟩ := Dispatch.receiverAccepted_iff.mp haccepted
  obtain ⟨inbox', hinbox', hevolves⟩ := h.inbox inbox hinbox
  refine Dispatch.receiverAccepted_iff.mpr ⟨inbox', hinbox', ?_⟩
  rw [hevolves.payloadDigest, hdigest, h.payloadDigest]

/-- No dead letter of an accepted dispatch is in the log of its task. -/
theorem Inv.settling_event_of_accepted (hinv : Inv s now) (hd : d ∈ s.dispatches)
    (haccepted : d.receiverAccepted = true) {row : TaskRow} (hrow : row ∈ s.tasks)
    (hid : row.task.id = d.taskId) {event : EventRow} (hevent : event ∈ row.events)
    (hrevision : event.taskRevision = d.causativeRevision + 1) :
    event.eventKind ≠ .deadLettered := by
  have hvalid := hinv.dispatches d hd
  have hcoherent := hinv.coherent_of_taskId hd hrow hid
  obtain ⟨inbox, hinbox, -⟩ := Dispatch.receiverAccepted_iff.mp haccepted
  cases hactive : d.active with
  | true =>
    -- the log ends with the event that caused the dispatch
    have hle := (hinv.rows row hrow).taskRevision_le hevent
    have hcurrent := hcoherent.current.mp hactive
    omega
  | false =>
    obtain ⟨settling, hmem, hby⟩ := hcoherent.settled hactive
    have hsame := (hinv.rows row hrow).event_unique hevent hmem (hrevision.trans hby.revision.symm)
    intro hkind
    have hdead := hby.dead.mpr (hsame ▸ hkind)
    rw [hvalid.dead hdead] at hinbox
    cases hinbox

/-- A dispatch whose payload a receiver has accepted, in every later state: it is not dead, no
dead letter of it is in the log of its task, and unless its outcome is delivered or the task
was canceled there is an instant from which on it is offered to claims, and a claim leases it
exactly if it is the row's turn and the store accepts the claim. -/
theorem accepted_never_dead (h : Reachable cfg s t)
    (hrun : (system cfg).Run (fun _ _ => True) s t s' now) (hd : d ∈ s.dispatches)
    (hinbox : d.inbox = some inbox) (hdigest : inbox.payloadDigest = d.payloadDigest) :
    ∃ d' ∈ s'.dispatches, SameIdentity d d' ∧ d'.state ≠ .dead ∧
      (∀ row ∈ s'.tasks, row.task.id = d'.taskId → ∀ event ∈ row.events,
        event.taskRevision = d'.causativeRevision + 1 → event.eventKind ≠ .deadLettered) ∧
      (d'.state = .delivered ∨ d'.state = .superseded ∨
        ∃ due, ∀ later ≥ due, d'.offered later = true ∧
          (now ≤ later → ∀ owner duration entropy messageId,
            (∃ lease s'', claimOutbox owner later duration entropy messageId s' =
                .ok (some lease, s'') ∧ lease.outboxId = d'.outboxId) ↔
              s'.picks later = some d' ∧
                s'.acceptsClaim owner later duration entropy messageId = true)) := by
  have hinv := ReachableBy.inv h
  have hinv' := hinv.run hrun
  have haccepted := Dispatch.receiverAccepted_iff.mpr ⟨inbox, hinbox, hdigest⟩
  obtain ⟨d', hd', hevolves⟩ := (hinv.evolves_of_run hrun).dispatches d hd
  have haccepted' := hevolves.receiverAccepted haccepted
  have hvalid' := hinv'.dispatches d' hd'
  have halive : d'.state ≠ .dead := by
    intro hdead
    obtain ⟨inbox', hinbox', -⟩ := Dispatch.receiverAccepted_iff.mp haccepted'
    rw [hvalid'.dead hdead] at hinbox'
    cases hinbox'
  refine ⟨d', hd', hevolves.identity, halive, fun row hrow hid event hevent hrevision =>
    hinv'.settling_event_of_accepted hd' haccepted' hrow hid hevent hrevision, ?_⟩
  cases hactive : d'.active with
  | false =>
      have hstates := Dispatch.active_eq_false.mp hactive
      cases hstate : d'.state with
      | delivered => exact .inl rfl
      | superseded => exact .inr (.inl rfl)
      | pending => exact absurd hstate hstates.1
      | leased => exact absurd hstate hstates.2
      | dead => exact absurd hstate halive
  | true =>
      obtain ⟨due, hoffered⟩ := hvalid'.eventually_offered hactive haccepted'
      refine .inr (.inr ⟨due, fun later hlater => ⟨hoffered later hlater, ?_⟩⟩)
      intro hle owner duration entropy messageId
      exact claimOutbox_leases_iff cfg (hinv'.mono hle) hd' (hoffered later hlater)

/-! ## Completions -/

section Completion

variable {kind : CompletionKind} {lease : ReceiverLease} {events : List MeshEvent}
  {termination : DurableReceiverTermination} {envelope : DurableDispatchEnvelope}
  {owner : String} {duration : Int} {entropy : List UInt8}

/-- A successful completion leaves its outcome in the row of its dispatch. -/
theorem completeReceiveInner_completed {u : Unit} (cfg : Config)
    (h : completeReceiveInner kind lease events termination now s = .ok (u, s')) (hinv : Inv s now) :
    ∃ d ∈ s'.dispatches, d.tenantScope = lease.tenantScope ∧ d.dispatchId = lease.dispatchId ∧
      ∃ inbox digest completedAt, d.inbox = some inbox ∧
        inbox.state = .completed termination events.length digest completedAt ∧
        replayOutcome inbox termination events.length digest = .ok (events, termination) := by
  obtain ⟨d, inbox, htenant, hdispatch, -, henabled, rfl⟩ := completeReceiveInner_spec cfg h
  have hmem : { d with inbox := some (inbox.complete events termination kind now)
                       intent := d.answeredIntent kind now } ∈
      ((Change.complete d inbox kind events termination).run cfg now s).dispatches :=
    Store.mem_putDispatch_self henabled.mem (by rfl)
  refine ⟨_, hmem, htenant, hdispatch, inbox.complete events termination kind now, textDigest (encodeEvents events), now, rfl, rfl, ?_⟩
  have hvalid := (henabled.inboxValid ((hinv.dispatches d henabled.mem).inbox inbox
    henabled.inbox_eq)).row
  have hload : loadReceiverFrames (receiverFrames events now) events.length
      (textDigest (encodeEvents events)) = .ok events :=
    Change.loadReceiverFrames_receiverFrames henabled.sizes.2
  simp only [inboxRowValid, InboxRow.complete, hload, Bool.and_eq_true] at hvalid
  simp [replayOutcome, InboxRow.complete, hload, hvalid.2.1, hvalid.2.2]

theorem completeLoopbackOutcome_of_exec
    (h : (Operation.completeLoopbackOutcome lease events termination now).exec cfg s = some s') :
    ∃ u, completeReceiveInner .loopback lease events termination now s = .ok (u, s') :=
  toOption_map_snd h

/-- A completed row stays as it is. -/
theorem Inv.completed_of_run {allowed : Store → Operation → Prop} (hinv : Inv s t)
    (hrun : (system cfg).Run allowed s t s' now) (hd : d ∈ s.dispatches)
    (hinbox : d.inbox = some inbox) (hcompleted : inbox.state.isCompleted = true) :
    ∃ d' ∈ s'.dispatches, SameIdentity d d' ∧ d'.inbox = some inbox := by
  obtain ⟨d', hd', hevolves⟩ := (hinv.evolves_of_run hrun).dispatches d hd
  obtain ⟨inbox', hinbox', hrow⟩ := hevolves.inbox inbox hinbox
  exact ⟨d', hd', hevolves.identity, hrow.completed hcompleted ▸ hinbox'⟩

/-- A completion needs a row under its lease. -/
theorem completeReceiveInner_held {result : Unit × Store} (cfg : Config)
    (h : completeReceiveInner kind lease events termination now s = .ok result) (hinv : Inv s now)
    (hd : d ∈ s.dispatches) (hid : d.dispatchId = lease.dispatchId) :
    ∃ inbox, d.inbox = some inbox ∧ inbox.heldBy lease now = true := by
  obtain ⟨x, inbox, -, hdispatch, hheld, henabled, -⟩ := completeReceiveInner_spec cfg h
  obtain rfl := hinv.dispatchIds.eq_of_key henabled.mem hd (hdispatch.trans hid.symm)
  exact ⟨inbox, henabled.inbox_eq, hheld⟩

/-- A completed dispatch is not completed again. -/
theorem completeReceiveInner_of_completed {result : Unit × Store} (cfg : Config) (hinv : Inv s now)
    (hd : d ∈ s.dispatches) (hid : d.dispatchId = lease.dispatchId) (hinbox : d.inbox = some inbox)
    (hcompleted : inbox.state.isCompleted = true) :
    completeReceiveInner kind lease events termination now s ≠ .ok result := by
  intro h
  obtain ⟨inbox', hinbox', hheld⟩ := completeReceiveInner_held cfg h hinv hd hid
  obtain rfl : inbox = inbox' := Option.some.inj (hinbox.symm.trans hinbox')
  rw [(InboxRow.heldBy_iff.mp hheld).2.2.1] at hcompleted
  cases hcompleted

/-- A granted execution lease is that of its envelope's dispatch. -/
theorem beginReceive_lease (h : beginReceive envelope owner now duration entropy s =
    .ok (.execute lease, s')) :
    lease.tenantScope = envelope.tenantScope ∧ lease.dispatchId = envelope.dispatchId := by
  simp only [beginReceive, bind_eq_ok, require_eq_ok, expect_eq_ok, exists_const] at h
  obtain ⟨-, d, -, h⟩ := h
  split at h
  · simp only [accept, bind_eq_ok, Except.ok.injEq, Prod.mk.injEq,
      ReceiverAdmission.execute.injEq] at h
    obtain ⟨_, _, _, _, rfl, _⟩ := h
    exact ⟨rfl, rfl⟩
  · simp only [bind_eq_ok, require_eq_ok, exists_const] at h
    obtain ⟨-, h⟩ := h
    split at h
    · simp only [bind_eq_ok, Except.ok.injEq, Prod.mk.injEq, reduceCtorEq, false_and, and_false,
        exists_false] at h
    · split at h
      · simp at h
      · simp only [reclaim, bind_eq_ok, Except.ok.injEq, Prod.mk.injEq,
          ReceiverAdmission.execute.injEq] at h
        obtain ⟨_, _, _, _, rfl, _⟩ := h
        exact ⟨rfl, rfl⟩

/-- A granted execution lease is the current one of its dispatch, and newer than the epoch the
dispatch had before. -/
theorem beginReceive_granted (cfg : Config) (hinv : Inv s now)
    (h : beginReceive envelope owner now duration entropy s = .ok (.execute lease, s')) :
    ∃ d' ∈ s'.dispatches, d'.tenantScope = lease.tenantScope ∧ d'.dispatchId = lease.dispatchId ∧
      (∃ inbox, d'.inbox = some inbox ∧ inbox.leaseEpoch = lease.leaseEpoch) ∧
      ∀ d ∈ s.dispatches, d.dispatchId = lease.dispatchId → ∀ inbox, d.inbox = some inbox →
        inbox.leaseEpoch < lease.leaseEpoch := by
  obtain ⟨htenant, hdispatch⟩ := beginReceive_lease h
  cases beginReceive_spec cfg hinv h with
  | accepted d inbox lease howns hlease henabled =>
    obtain ⟨howned, hid, -⟩ := Dispatch.ownsEnvelope_iff.mp howns
    have hmem : { d with inbox := some inbox } ∈ (s.putDispatch
        { d with inbox := some inbox }).dispatches :=
      Store.mem_putDispatch_self henabled.mem (by rfl)
    refine ⟨_, hmem, howned.trans htenant.symm, hid.trans hdispatch.symm, ⟨inbox, rfl, (InboxRow.heldBy_iff.mp hlease).2.1⟩, ?_⟩
    intro x hx hxid old hold
    obtain rfl := hinv.dispatchIds.eq_of_key hx henabled.mem
      (hxid.trans (hdispatch.trans hid.symm))
    rw [henabled.unaccepted] at hold
    cases hold
  | reclaimed d old inbox lease howns hlease hbytes henabled =>
    obtain ⟨howned, hid, -⟩ := Dispatch.ownsEnvelope_iff.mp howns
    have hmem : { d with inbox := some inbox } ∈ (s.putDispatch
        { d with inbox := some inbox }).dispatches :=
      Store.mem_putDispatch_self henabled.mem (by rfl)
    refine ⟨_, hmem, howned.trans htenant.symm, hid.trans hdispatch.symm, ⟨inbox, rfl, (InboxRow.heldBy_iff.mp hlease).2.1⟩, ?_⟩
    intro x hx hxid before hbefore
    obtain rfl := hinv.dispatchIds.eq_of_key hx henabled.mem
      (hxid.trans (hdispatch.trans hid.symm))
    obtain rfl : old = before := Option.some.inj (henabled.inbox_eq.symm.trans hbefore)
    have hepoch := henabled.epoch
    rw [← (InboxRow.heldBy_iff.mp hlease).2.1]
    omega

/-- A completed dispatch answers an envelope with its outcome while the sender holds the row,
and refuses it otherwise. -/
theorem beginReceive_of_completed {frameCount : Nat} {digest : String} {completedAt : Int}
    (hinv : Inv s now) (hd : d ∈ s.dispatches) (hid : d.dispatchId = envelope.dispatchId)
    (hinbox : d.inbox = some inbox)
    (hstate : inbox.state = .completed termination frameCount digest completedAt)
    (hreplay : replayOutcome inbox termination frameCount digest = .ok (events, termination)) :
    beginReceive envelope owner now duration entropy s =
      if envelopeValid envelope owner duration = true ∧ d.ownsEnvelope envelope = true then
        .ok (.replay events termination, s)
      else .error (.invalidParams "invalid durable receiver envelope") := by
  have honly : ∀ x ∈ s.dispatches, x.ownsEnvelope envelope = true → x = d := fun x hx howns =>
    hinv.dispatchIds.eq_of_key hx hd ((Dispatch.ownsEnvelope_iff.mp howns).2.1.trans hid.symm)
  by_cases hvalid : envelopeValid envelope owner duration = true
  · by_cases howns : d.ownsEnvelope envelope = true
    · have hfind := hinv.outboxIds.find?_eq_some hd howns fun x hx hx' => by rw [honly x hx hx']
      have hdigest : inbox.payloadDigest = envelope.payloadDigest :=
        ((hinv.dispatches d hd).inbox inbox hinbox).payloadDigest.trans
          (Dispatch.ownsEnvelope_iff.mp howns).2.2.2.1
      simp [beginReceive, require, expect, hvalid, howns, hfind, hinbox, hdigest, hstate, hreplay,
        bind, Except.bind]
    · have hfind : s.dispatches.find? (fun d => d.ownsEnvelope envelope) = none :=
        List.find?_eq_none.mpr fun x hx hx' => howns (honly x hx hx' ▸ hx')
      simp [beginReceive, require, expect, hvalid, howns, hfind, bind, Except.bind]
  · simp [beginReceive, require, hvalid, bind, Except.bind]

/-- After a completion, in every later state: no second one, and the dispatch is received again
only as a replay of this outcome, while the sender holds the row. -/
theorem completed_once {u : Unit} {s₁ s₂ : Store} {t₂ : Int} (hinv : Inv s now)
    (h : completeReceiveInner kind lease events termination now s = .ok (u, s₁))
    (hrun : (system cfg).Run (fun _ _ => True) s₁ now s₂ t₂) :
    ∃ d ∈ s₂.dispatches, d.tenantScope = lease.tenantScope ∧ d.dispatchId = lease.dispatchId ∧
      ∀ later ≥ t₂,
        (∀ kind lease' events termination result, lease'.dispatchId = lease.dispatchId →
          completeReceiveInner kind lease' events termination later s₂ ≠ .ok result) ∧
        ∀ envelope owner duration entropy, envelope.dispatchId = lease.dispatchId →
          beginReceive envelope owner later duration entropy s₂ =
            if envelopeValid envelope owner duration = true ∧ d.ownsEnvelope envelope = true then
              .ok (.replay events termination, s₂)
            else .error (.invalidParams "invalid durable receiver envelope") := by
  obtain ⟨d, hd, htenant, hid, inbox, digest, completedAt, hinbox, hstate, hreplay⟩ :=
    completeReceiveInner_completed cfg h hinv
  have hinv₁ : Inv s₁ now := by
    obtain ⟨x, row, -, -, -, henabled, rfl⟩ := completeReceiveInner_spec cfg h
    exact Change.inv hinv henabled
  have hcompleted : inbox.state.isCompleted = true := by
    rw [hstate]
    rfl
  obtain ⟨d', hd', hidentity, hinbox'⟩ := hinv₁.completed_of_run hrun hd hinbox hcompleted
  have hid' : d'.dispatchId = lease.dispatchId := hidentity.dispatchId.trans hid
  refine ⟨d', hd', hidentity.tenantScope.trans htenant, hid', fun later hlater => ?_⟩
  have hinv₂ := (hinv₁.run hrun).mono hlater
  constructor
  · intro kind lease' events termination result hsame
    exact completeReceiveInner_of_completed cfg hinv₂ hd' (hid'.trans hsame.symm) hinbox' hcompleted
  · intro envelope owner duration entropy hsame
    exact beginReceive_of_completed hinv₂ hd' (hid'.trans hsame.symm) hinbox' hstate hreplay

theorem beginReceive_inv {admission : ReceiverAdmission} (cfg : Config) (hinv : Inv s now)
    (h : beginReceive envelope owner now duration entropy s = .ok (admission, s')) :
    Inv s' now := by
  cases beginReceive_spec cfg hinv h with
  | busy => exact hinv
  | replayed => exact hinv
  | accepted d inbox lease _ _ henabled => exact Change.inv hinv henabled
  | reclaimed d old inbox lease _ _ _ henabled => exact Change.inv hinv henabled

/-- Once a newer execution lease is granted, the older one completes nothing. -/
theorem newest_epoch_completes {envelope' : DurableDispatchEnvelope} {owner' : String}
    {later duration' : Int} {entropy' : List UInt8} {lease' : ReceiverLease}
    {s₁ s₂ s₃ s₄ : Store} {t₂ t₄ last : Int} {result : Unit × Store} (hinv : Inv s now)
    (h : beginReceive envelope owner now duration entropy s = .ok (.execute lease, s₁))
    (hrun : (system cfg).Run (fun _ _ => True) s₁ now s₂ t₂) (hlater : t₂ ≤ later)
    (hsame : lease'.dispatchId = lease.dispatchId)
    (h' : beginReceive envelope' owner' later duration' entropy' s₂ = .ok (.execute lease', s₃))
    (hrun' : (system cfg).Run (fun _ _ => True) s₃ later s₄ t₄) (hlast : t₄ ≤ last) :
    lease.leaseEpoch < lease'.leaseEpoch ∧
      completeReceiveInner kind lease events termination last s₄ ≠ .ok result := by
  have hinv₁ := beginReceive_inv cfg hinv h
  have hinv₂ := (hinv₁.run hrun).mono hlater
  have hinv₃ := beginReceive_inv cfg hinv₂ h'
  obtain ⟨d, hd, -, hid, ⟨inbox, hinbox, hepoch⟩, -⟩ := beginReceive_granted cfg hinv h
  obtain ⟨d₂, hd₂, hevolves⟩ := (hinv₁.evolves_of_run hrun).dispatches d hd
  obtain ⟨inbox₂, hinbox₂, hrow⟩ := hevolves.inbox inbox hinbox
  obtain ⟨d₃, hd₃, -, hid₃, ⟨inbox₃, hinbox₃, hepoch₃⟩, hnewer⟩ := beginReceive_granted cfg hinv₂ h'
  have hlt : lease.leaseEpoch < lease'.leaseEpoch := by
    have hbefore := hrow.epoch
    have hafter := hnewer d₂ hd₂ (hevolves.identity.dispatchId.trans (hid.trans hsame.symm))
      inbox₂ hinbox₂
    omega
  refine ⟨hlt, fun hcomplete => ?_⟩
  obtain ⟨d₄, hd₄, hevolves₄⟩ := (hinv₃.evolves_of_run hrun').dispatches d₃ hd₃
  obtain ⟨inbox₄, hinbox₄, hrow₄⟩ := hevolves₄.inbox inbox₃ hinbox₃
  obtain ⟨held, hheld, hlease⟩ := completeReceiveInner_held cfg hcomplete
    ((hinv₃.run hrun').mono hlast) hd₄
    (hevolves₄.identity.dispatchId.trans (hid₃.trans hsame))
  obtain rfl : inbox₄ = held := Option.some.inj (hinbox₄.symm.trans hheld)
  have hepoch₄ := (InboxRow.heldBy_iff.mp hlease).2.1
  have hgrown := hrow₄.epoch
  omega

/-- An execution lease that ran out or was superseded completes nothing. -/
theorem fenced_complete {result : Unit × Store} (cfg : Config)
    (hfenced : lease.leaseUntil ≤ now ∨ s.supersedesReceiver lease) :
    completeReceiveInner kind lease events termination now s ≠ .ok result := by
  intro h
  obtain ⟨d, inbox, htenant, hdispatch, hheld, henabled, -⟩ := completeReceiveInner_spec cfg h
  obtain ⟨-, hepoch, hstate, hlive⟩ := InboxRow.heldBy_iff.mp hheld
  rcases hfenced with hexpired | hsuperseded
  · omega
  · rcases hsuperseded d henabled.mem htenant hdispatch inbox henabled.inbox_eq with hne | hne
    · exact hne hepoch
    · exact hne _ _ hstate

variable {sender : OutboxLease}

omit [ContentDigest] in
theorem Store.supersedes.not_held (h : s.supersedes sender) (hd : d ∈ s.dispatches) :
    d.heldBy sender ≠ true := by
  intro hheld
  obtain ⟨hid, -, htoken, -, -, -, hattempt, -⟩ := Dispatch.heldBy_iff.mp hheld
  rcases h d hd hid with hne | hne
  · exact hne htoken
  · exact hne hattempt

/-- A sender's lease that ran out or was superseded finishes nothing. -/
theorem fenced_finish {disposition : AttemptDisposition} {messageId : String} (hinv : Inv s now)
    (hfenced : sender.leaseUntil ≤ now ∨ s.supersedes sender) :
    (system cfg).next s (.finishOutboxAttempt sender disposition now entropy messageId) = s := by
  have hheld : ∀ x ∈ s.dispatches, ¬ FinishEnabled x sender now := by
    intro x hx hfinish
    rcases hfenced with hexpired | hsuperseded
    · have hlive := hfinish.live
      omega
    · exact hsuperseded.not_held hx hfinish.held
  show ((finishOutboxAttempt sender disposition now entropy messageId s).toOption.map
    Prod.snd).getD s = s
  cases h : finishOutboxAttempt sender disposition now entropy messageId s with
  | error => rfl
  | ok result =>
    obtain ⟨outcome, s'⟩ := result
    cases finishOutboxAttempt_spec cfg hinv h with
    | stale => rfl
    | released d token hfinish _ henabled => exact absurd hfinish (hheld d henabled.1)
    | retried d attempts error availableAt hfinish _ henabled =>
      exact absurd hfinish (hheld d henabled.1)
    | deadLettered row d attempts hfinish _ henabled =>
      exact absurd hfinish (hheld d henabled.1.mem_dispatches)

/-- A sender's lease that ran out or was superseded commits nothing. -/
theorem fenced_commit {o decoded : HashOrder} {task : Task} {result : SendMessageResponse}
    {frames : List StreamResponse} (hinv : Inv s now)
    (hfenced : sender.leaseUntil ≤ now ∨ s.supersedes sender) :
    (system cfg).next s (.commitDelivery o decoded sender task result frames now) = s := by
  show ((commitDelivery o decoded sender task result frames now s).toOption.map Prod.snd).getD s = s
  cases h : commitDelivery o decoded sender task result frames now s with
  | error => rfl
  | ok result =>
    rcases commitDelivery_spec cfg hinv h with ⟨-, hsame, -⟩ |
      ⟨row, d, attempts, hheld, hlive, -, henabled, -⟩
    · exact hsame
    · rcases hfenced with hexpired | hsuperseded
      · omega
      · exact absurd hheld (hsuperseded.not_held henabled.1.mem_dispatches)

/-- In every run: a dispatch is completed at most once, and is received again only as a replay
of that outcome; a lease completes nothing once a newer one was granted; and a lease that ran
out or was superseded leaves all tables as they are. -/
theorem receiver_completes_once (h : Reachable cfg s t) (htime : t ≤ now) :
    (∀ kind lease events termination u s₁,
      completeReceiveInner kind lease events termination now s = .ok (u, s₁) →
      ∀ s₂ t₂, (system cfg).Run (fun _ _ => True) s₁ now s₂ t₂ →
      ∃ d ∈ s₂.dispatches, d.tenantScope = lease.tenantScope ∧ d.dispatchId = lease.dispatchId ∧
        ∀ later ≥ t₂,
          (∀ kind lease' events termination result, lease'.dispatchId = lease.dispatchId →
            completeReceiveInner kind lease' events termination later s₂ ≠ .ok result) ∧
          ∀ envelope owner duration entropy, envelope.dispatchId = lease.dispatchId →
            beginReceive envelope owner later duration entropy s₂ =
              if envelopeValid envelope owner duration = true ∧ d.ownsEnvelope envelope = true then
                .ok (.replay events termination, s₂)
              else .error (.invalidParams "invalid durable receiver envelope")) ∧
    (∀ envelope owner duration entropy lease s₁,
      beginReceive envelope owner now duration entropy s = .ok (.execute lease, s₁) →
      ∀ s₂ t₂, (system cfg).Run (fun _ _ => True) s₁ now s₂ t₂ →
      ∀ envelope' owner' later duration' entropy' lease' s₃, t₂ ≤ later →
      lease'.dispatchId = lease.dispatchId →
      beginReceive envelope' owner' later duration' entropy' s₂ = .ok (.execute lease', s₃) →
      ∀ s₄ t₄, (system cfg).Run (fun _ _ => True) s₃ later s₄ t₄ →
      ∀ kind events termination last result, t₄ ≤ last →
        lease.leaseEpoch < lease'.leaseEpoch ∧
          completeReceiveInner kind lease events termination last s₄ ≠ .ok result) ∧
    (∀ lease : ReceiverLease, lease.leaseUntil ≤ now ∨ s.supersedesReceiver lease →
      ∀ kind events termination result,
        completeReceiveInner kind lease events termination now s ≠ .ok result) ∧
    ∀ lease : OutboxLease, lease.leaseUntil ≤ now ∨ s.supersedes lease →
      (∀ disposition entropy messageId,
        (system cfg).next s (.finishOutboxAttempt lease disposition now entropy messageId) = s) ∧
      ∀ o decoded task result frames,
        (system cfg).next s (.commitDelivery o decoded lease task result frames now) = s := by
  have hinv := (ReachableBy.inv h).mono htime
  refine ⟨?_, ?_, ?_, ?_⟩
  · intro kind lease events termination u s₁ hcomplete s₂ t₂ hrun
    exact completed_once hinv hcomplete hrun
  · intro envelope owner duration entropy lease s₁ hbegin s₂ t₂ hrun envelope' owner' later
      duration' entropy' lease' s₃ hlater hsame hbegin' s₄ t₄ hrun' kind events termination last
      result hlast
    exact newest_epoch_completes hinv hbegin hrun hlater hsame hbegin' hrun' hlast
  · intro lease hfenced kind events termination result
    exact fenced_complete cfg hfenced
  · intro lease hfenced
    exact ⟨fun _ _ _ => fenced_finish hinv hfenced, fun _ _ _ _ _ => fenced_commit hinv hfenced⟩

end Completion

end

attribute [local instance] checksumDigest

/-- The accepted sample dispatch, after its leases were voided by a restart. -/
theorem sampleAccepted_never_dead :
    ∃ d ∈ (sampleStore (sampleAccepted true)).dispatches, d.receiverAccepted = true ∧
      ∃ d' ∈ (sampleStore (sampleAccepted true ++
          [.recoverOrphanedTasks ⟨.ofMillis 20, fun _ => "r"⟩ 20])).dispatches,
        SameIdentity d d' ∧ d'.state ≠ .dead := by
  have haccepted : (sampleStore (sampleAccepted true)).dispatches.any Dispatch.receiverAccepted =
      true := by decide +kernel
  obtain ⟨d, hd, hd'⟩ := List.any_eq_true.mp haccepted
  obtain ⟨inbox, hinbox, hdigest⟩ := Dispatch.receiverAccepted_iff.mp hd'
  have hreachable := sampleStore_reachable (sampleAccepted true) 2 (by decide) rfl
  have hrun := sampleStore_run (sampleAccepted true)
    [.recoverOrphanedTasks ⟨.ofMillis 20, fun _ => "r"⟩ 20] 2 (by decide) (by decide)
  obtain ⟨d', hmem, hidentity, halive, -⟩ :=
    accepted_never_dead hreachable hrun hd hinbox hdigest
  exact ⟨d, hd, hd', d', hmem, hidentity, halive⟩

/-- A second local task, admitted at instant 3. -/
def secondAdmission : SendMessageAdmission :=
  let message := { sampleMessage with messageId := "m-2" }
  let task := { sampleTask with id := "t-2", history := some [message] }
  { request := { message, metadata := none }, streaming := false, task,
    originalResult := .task task, maxTextBytes := 1024, now := 3, maxAttempts := 2 }

/-- The first task is claimed for ten milliseconds, its receiver has the dispatch for a
hundred, and a second task is admitted. -/
def sampleBusy (duration : Int) : List Operation :=
  sampleClaimed false ++ [.beginReceive sampleEnvelope "receiver" 2 duration [],
    .admitSendMessage .sorted none secondAdmission]

/-- The envelope of the second task's dispatch. -/
def secondEnvelope : DurableDispatchEnvelope :=
  let request := { sampleRequest with taskId := "t-2" }
  { tenantScope := trustedSingleTenantScope
    dispatchId := dispatchIdentity trustedSingleTenantScope "m-2"
    payloadDigest := textDigest request.encode
    request }

/-- The second task is accepted by its receiver and not delivered; once the first task is
delivered under another context, every claim at any time is refused. -/
theorem accepted_row_never_leased_again :
    let s := sampleStore (sampleClaimed false ++
      [.admitSendMessage .sorted none secondAdmission, .claimOutbox "worker" 3 10 [] "dead-2",
        .beginReceive secondEnvelope "receiver" 4 8 [], elsewhereDelivery 5])
    Reachable sampleConfig s 5 ∧
      (s.dispatches.any fun d => d.taskId == "t-2" && d.receiverAccepted && d.state == .leased &&
        d.intent.isNone) = true ∧
      ∀ owner now duration entropy messageId result,
        claimOutbox owner now duration entropy messageId s ≠ .ok result := by
  intro s
  have hrun : (s.dispatches.any fun d => d.taskId == "t-2" && d.receiverAccepted &&
      d.state == .leased && d.intent.isNone) = true ∧ validateAtomicRecords s = false := by
    decide +kernel
  refine ⟨sampleStore_reachable _ 5 (by decide) rfl, hrun.1, ?_⟩
  intro owner now duration entropy messageId result hclaim
  cases hrun.2.symm.trans (validateAtomicRecords_of_claimOutbox hclaim)

/-- The sample dispatch completed at instant 3. -/
def sampleCompletion : Operation :=
  .completeLoopbackOutcome sampleReceiverLease [.completed "done"] .success 3

theorem sampleCompletion_exec :
    sampleCompletion.exec sampleConfig (sampleStore (sampleAccepted false)) =
      some (sampleStore (sampleAccepted false ++ [sampleCompletion])) :=
  sampleStore_exec (by decide +kernel)

theorem sampleCompletion_once :
    sampleCompletion.exec sampleConfig (sampleStore (sampleAccepted false)) =
        some (sampleStore (sampleAccepted false ++ [sampleCompletion])) ∧
      ∀ later ≥ 3, ∀ kind events termination result,
      completeReceiveInner kind sampleReceiverLease events termination later
        (sampleStore (sampleAccepted false ++ [sampleCompletion])) ≠ .ok result := by
  have hreachable := sampleStore_reachable (sampleAccepted false) 2 (by decide) rfl
  obtain ⟨u, hcomplete⟩ := completeLoopbackOutcome_of_exec sampleCompletion_exec
  have htime : (2 : Int) ≤ 3 := by decide
  obtain ⟨d, -, -, -, hlater⟩ := (receiver_completes_once hreachable htime).1 _ _ _ _ _ _ hcomplete
    _ 3 .refl
  refine ⟨sampleCompletion_exec, fun later hle kind events termination result => ?_⟩
  exact (hlater later hle).1 kind sampleReceiverLease events termination result rfl

/-- Once its outcome is delivered at instant 4, the dispatch is not received again: the same
envelope is refused, and the completed outcome not replayed. -/
theorem delivered_dispatch_is_not_replayed :
    let commit : Operation := .commitDelivery .sorted .sorted sampleLease (sampleCompleted "done")
      (.task (sampleCompleted "done")) [.task sampleTask, statusFrame (sampleCompleted "done")] 4
    let s₁ := sampleStore (sampleAccepted false ++ [sampleCompletion])
    let s₂ := sampleStore (sampleAccepted false ++ [sampleCompletion, commit])
    Reachable sampleConfig (sampleStore (sampleAccepted false)) 2 ∧
      sampleCompletion.exec sampleConfig (sampleStore (sampleAccepted false)) = some s₁ ∧
      (system sampleConfig).Run (fun _ _ => True) s₁ 3 s₂ 4 ∧
      beginReceive sampleEnvelope "receiver" 5 8 [] s₂ =
        .error (.invalidParams "invalid durable receiver envelope") := by
  intro commit s₁ s₂
  refine ⟨sampleStore_reachable (sampleAccepted false) 2 (by decide) rfl, sampleCompletion_exec,
    sampleStore_run (sampleAccepted false ++ [sampleCompletion]) [commit] 3 (by decide) (by decide),
    ?_⟩
  decide +kernel

end SmeshDurable
