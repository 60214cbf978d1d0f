import SmeshDurable.Protocol.Columns

/-!
# Calls that keep the JSON columns within their limit

`Operation.writesFit` says of a call, from its arguments and the state it is made in, that
the documents it would store are within the limit. A call that succeeds keeps the columns
within the limit exactly if it meets this. A delivery whose task has the greatest accepted
length does not: the stored result has the nine bytes of its wrapper more.
-/

namespace SmeshDurable

open Transaction

section

variable [ContentDigest]

/-- The result made of the current task is within the limit. -/
def Store.resultFits (s : Store) (taskId : String) (result : Task → Task) : Bool :=
  (s.taskRow? taskId).all fun row =>
    (SendMessageResponse.task (result row.task)).jsonBytes ≤ maxAtomicJsonBytes

namespace Operation

/-- The documents the call would store are within the limit. -/
def writesFit (cfg : Config) (s : Store) : Operation → Bool
  | admitContinuation _ auth command =>
    command.bound cfg auth s || (SendMessageResponse.task
      (continuedTask command.task command.request.message command.now)).jsonBytes ≤
        maxAtomicJsonBytes
  | claimOutbox _ now _ _ messageId =>
    (expiredFinal? s now).all fun d => d.inbox.isSome ||
      s.resultFits d.taskId fun task => deadLetteredTask task expiredFinalError messageId now
  | finishOutboxAttempt lease disposition now _ messageId =>
    s.dispatches.all fun d => !d.heldBy lease || d.maxAttempts != lease.maxAttempts ||
      lease.leaseUntil ≤ now || d.cancellationRequested ||
      !disposition.final (d.maxAttempts ≤ d.attemptCount) || d.inbox.isSome ||
      s.resultFits d.taskId fun task => deadLetteredTask task disposition.error messageId now
  | appendStreamProgress _ _ tenantScope dispatchId frame _ =>
    frame.jsonBytes ≤ maxAtomicJsonBytes ||
      s.dispatches.all fun d => d.tenantScope != tenantScope || d.dispatchId != dispatchId ||
        d.openTranscript?.all fun t => (t.frames.map FrameRow.frame).any isWorkingUpdate
  | commitDelivery _ _ lease _ result _ now =>
    result.jsonBytes ≤ maxAtomicJsonBytes ||
      s.dispatches.all fun d => !d.heldBy lease || lease.leaseUntil ≤ now
  | requestCancellation _ auth taskId now =>
    let scope := auth.elim (localCancellation cfg) authorizedCancellation
    (cancellationTarget? s scope.tenantScope taskId).all fun d =>
      !d.active || d.awaitsReceiver now ||
        s.resultFits taskId fun task => canceledTask task d.dispatchId now
  | recoverOrphanedTasks choices now =>
    s.dispatches.all fun d => !decide d.abandonedFinal ||
      s.resultFits d.taskId fun task =>
        deadLetteredTask task abandonedFinalError (choices.messageId d.taskId) now
  | _ => true

end Operation

variable {cfg : Config} {s s' : Store} {now : Int} {d : Dispatch} {row : TaskRow}

omit [ContentDigest] in
theorem KeysValid.resultFits_iff (hkeys : KeysValid s) (hrow : row ∈ s.tasks)
    (hid : row.task.id = d.taskId) {result : Task → Task} :
    s.resultFits d.taskId result = true ↔
      (SendMessageResponse.task (result row.task)).jsonBytes ≤ maxAtomicJsonBytes := by
  have hget : s.taskRow? d.taskId = some row := hkeys.taskIds.get?_eq_some hrow hid
  simp only [Store.resultFits, hget, Option.all_some, decide_eq_true_eq]

/-! ## Recovery -/

/-- The dead letters that recovery would write for the given rows are within the limit. -/
def Store.finalsFit (s : Store) (choices : RecoveryChoices) (now : Int) (outboxIds : List Nat) :
    Prop :=
  ∀ d ∈ s.dispatches, d.abandonedFinal → d.outboxId ∈ outboxIds →
    ∀ row ∈ s.tasks, row.task.id = d.taskId →
      (SendMessageResponse.task (deadLetteredTask row.task abandonedFinalError
        (choices.messageId d.taskId) now)).jsonBytes ≤ maxAtomicJsonBytes

/-- A dead letter leaves the rows of other dispatches to recover as they were. -/
theorem finalsFit_deadLetter (cfg : Config) {choices : RecoveryChoices} {attempts : List AttemptRow}
    {outboxIds : List Nat} (hinv : Inv s now)
    (hc : Change.DeadLetterEnabled row d attempts abandonedFinalError
      (choices.messageId d.taskId) now s) (hfinal : d.abandonedFinal) :
    s.finalsFit choices now (d.outboxId :: outboxIds) ↔
      (SendMessageResponse.task (deadLetteredTask row.task abandonedFinalError
          (choices.messageId d.taskId) now)).jsonBytes ≤ maxAtomicJsonBytes ∧
        ((Change.deadLetter row d attempts abandonedFinalError
          (choices.messageId d.taskId)).run cfg now s).finalsFit choices now outboxIds := by
  have hactive : d.active = true := Dispatch.active_iff.mpr (.inr hc.leased)
  -- another abandoned dispatch belongs to another task
  have hother : ∀ x ∈ s.dispatches, x.abandonedFinal → x.outboxId ≠ d.outboxId →
      x.taskId ≠ row.task.id := by
    intro x hx hx' hne htask
    have hactive' : x.active = true := Dispatch.active_iff.mpr (.inr hx'.1)
    apply hne
    rw [hinv.active_unique hx hc.mem_dispatches (htask.trans hc.taskId_eq) hactive' hactive]
  constructor
  · intro h
    refine ⟨h d hc.mem_dispatches hfinal List.mem_cons_self row hc.mem_tasks hc.taskId_eq, ?_⟩
    intro x hx hx' hmem r hr hid
    rcases Store.mem_commit hx hc.mem_dispatches rfl with rfl | ⟨hx, hne⟩
    · cases hx'.1
    · refine h x hx hx' (List.mem_cons_of_mem _ hmem) r ?_ hid
      rcases Store.mem_tasks_commit hr hc.mem_tasks rfl with rfl | ⟨hr, -⟩
      · exact absurd hid.symm (hother x hx hx' hne)
      · exact hr
  · rintro ⟨hd, h⟩ x hx hx' hmem r hr hid
    by_cases hsame : x.outboxId = d.outboxId
    · obtain rfl := hinv.outboxIds.eq_of_key hx hc.mem_dispatches hsame
      obtain rfl := hinv.taskIds.eq_of_key hr hc.mem_tasks (hid.trans hc.taskId_eq.symm)
      exact hd
    · refine h x (Store.mem_commit_of_ne hx hsame) hx'
        ((List.mem_cons.mp hmem).resolve_left hsame) r ?_ hid
      refine Store.mem_tasks_commit_of_ne hr fun hkey => ?_
      exact hother x hx hx' hsame (hid.symm.trans hkey)

theorem recoverExpiredFinals_jsonFits (cfg : Config) {choices : RecoveryChoices}
    {outboxIds : List Nat} (hinv : Inv s now)
    (h : recoverAll (recoverExpiredFinal choices now) outboxIds s = .ok s') :
    (∀ x ∈ s'.dispatches, x.jsonFits = true) ↔
      (∀ x ∈ s.dispatches, x.jsonFits = true) ∧ s.finalsFit choices now outboxIds := by
  induction outboxIds generalizing s with
  | nil =>
    obtain rfl := Except.ok.inj h
    simp [Store.finalsFit]
  | cons outboxId rest ih =>
    simp only [recoverAll, bind_eq_ok] at h
    obtain ⟨middle, hstep, hrest⟩ := h
    rcases recoverExpiredFinal_spec cfg hinv hstep with ⟨rfl, hnone⟩ |
      ⟨row, d, attempts, rfl, hfinal, henabled, rfl⟩
    · rw [ih hinv hrest]
      refine and_congr_right fun _ => forall₃_congr fun x hx hx' => ?_
      simp [hnone x hx hx']
    · rw [ih (Change.inv hinv henabled) hrest, Change.deadLetter_jsonFits hinv henabled.1,
        finalsFit_deadLetter cfg hinv henabled.1 hfinal, and_assoc]

omit [ContentDigest] in
theorem Dispatch.receiverAccepted_voidLeases :
    (d.voidLeases now).receiverAccepted = d.receiverAccepted := by
  unfold Dispatch.voidLeases
  cases hinbox : d.inbox with
  | none => split <;> simp [Dispatch.receiverAccepted, hinbox]
  | some inbox =>
    have hdigest : (inbox.voidLease now).payloadDigest = inbox.payloadDigest := by
      unfold InboxRow.voidLease
      split <;> rfl
    split <;> simp [Dispatch.receiverAccepted, hinbox, hdigest]

omit [ContentDigest] in
theorem Dispatch.abandonedFinal_voidLeases :
    (d.voidLeases now).abandonedFinal ↔ d.abandonedFinal := by
  have hcolumns : (d.voidLeases now).state = d.state ∧
      (d.voidLeases now).maxAttempts = d.maxAttempts ∧
      (d.voidLeases now).attemptCount = d.attemptCount := by
    unfold Dispatch.voidLeases
    dsimp only
    split <;> exact ⟨rfl, rfl, rfl⟩
  simp only [Dispatch.abandonedFinal, receiverAccepted_voidLeases, hcolumns]

omit [ContentDigest] in
theorem Dispatch.voidLeases_identity (d : Dispatch) : SameIdentity d (d.voidLeases now) := by
  unfold Dispatch.voidLeases
  dsimp only
  split <;> exact ⟨rfl, rfl, rfl, rfl, rfl, rfl⟩

theorem recoverOrphanedTasks_jsonFits (cfg : Config) {choices : RecoveryChoices}
    (hinv : Inv s now) (h : recoverOrphanedTasks choices now s = .ok s') :
    (∀ x ∈ s'.dispatches, x.jsonFits = true) ↔
      (∀ x ∈ s.dispatches, x.jsonFits = true) ∧
        (Operation.recoverOrphanedTasks choices now).writesFit cfg s = true := by
  obtain ⟨finals, hfinals, habandon, rfl⟩ := recoverOrphanedTasks_steps cfg hinv h
  have hvoided : Inv (s.voided now) now := Change.voidLeases_inv hinv
  obtain ⟨hchanges, -⟩ := recoverExpiredFinals_spec cfg hvoided hfinals
  have henabled : Change.voidLeases.Enabled cfg now s := trivial
  have hvoid : (∀ x ∈ (s.voided now).dispatches, x.jsonFits = true) ↔
      (∀ x ∈ s.dispatches, x.jsonFits = true) ∧ Change.voidLeases.writesFit now = true :=
    Change.jsonFits_iff cfg hinv henabled
  rw [Change.jsonFits_iff cfg (hvoided.changes (OrdinaryChanges.changes hchanges)) habandon,
    recoverExpiredFinals_jsonFits cfg hvoided hfinals, hvoid]
  simp only [Change.writesFit, and_true]
  refine and_congr_right fun _ => ?_
  simp only [Operation.writesFit, List.all_eq_true, Bool.or_eq_true, Bool.not_eq_true',
    decide_eq_false_iff_not, ← imp_iff_not_or]
  -- the voided rows are those of the store, and so are its tasks
  have hrows : ∀ x ∈ s.dispatches, ((∀ row ∈ s.tasks, row.task.id = x.taskId →
      (SendMessageResponse.task (deadLetteredTask row.task abandonedFinalError
        (choices.messageId x.taskId) now)).jsonBytes ≤ maxAtomicJsonBytes) ↔
      s.resultFits x.taskId (fun task =>
        deadLetteredTask task abandonedFinalError (choices.messageId x.taskId) now) = true) := by
    intro x hx
    obtain ⟨row, hrow, hid, -⟩ := hinv.coherent x hx
    rw [hinv.toKeysValid.resultFits_iff hrow hid]
    constructor
    · exact fun hall => hall row hrow hid
    · intro hfits r hr hid'
      rwa [hinv.taskIds.eq_of_key hr hrow (hid'.trans hid.symm)]
  constructor
  · intro hfits x hx hx'
    rw [← hrows x hx]
    have hvoided := hfits _ (List.mem_map_of_mem hx) (Dispatch.abandonedFinal_voidLeases.mpr hx')
    rw [x.voidLeases_identity.outboxId, x.voidLeases_identity.taskId] at hvoided
    exact hvoided (List.mem_map_of_mem hx)
  · rintro hfits y hy hy' -
    obtain ⟨x, hx, rfl⟩ := List.mem_map.mp hy
    rw [x.voidLeases_identity.taskId]
    exact (hrows x hx).mpr (hfits x hx (Dispatch.abandonedFinal_voidLeases.mp hy'))

/-! ## The other operations -/

omit [ContentDigest] in
/-- A call that leaves the dispatches alone. -/
theorem jsonFits_iff_of_same {w : Bool} (h : w = true) (hsame : s'.dispatches = s.dispatches) :
    (∀ x ∈ s'.dispatches, x.jsonFits = true) ↔
      (∀ x ∈ s.dispatches, x.jsonFits = true) ∧ w = true := by
  rw [hsame, h, and_iff_left rfl]

/-- A call that makes a change. -/
theorem jsonFits_iff_of_change {change : Change} {w : Bool} (hinv : Inv s now)
    (henabled : change.Enabled cfg now s) (h : w = change.writesFit now) :
    (∀ x ∈ (change.run cfg now s).dispatches, x.jsonFits = true) ↔
      (∀ x ∈ s.dispatches, x.jsonFits = true) ∧ w = true := by
  rw [h]
  exact Change.jsonFits_iff cfg hinv henabled

namespace Operation

theorem admitContinuation_jsonFits {o : HashOrder} {auth : Option Authorization}
    {command : SendMessageAdmission} {outcome : AdmissionOutcome} (hinv : Inv s command.now)
    (h : SmeshDurable.admitContinuation o cfg auth command s = .ok (outcome, s')) :
    (∀ x ∈ s'.dispatches, x.jsonFits = true) ↔
      (∀ x ∈ s.dispatches, x.jsonFits = true) ∧
        (admitContinuation o auth command).writesFit cfg s = true := by
  rcases admitContinuation_spec h with ⟨d, decisions, hreplays, rfl⟩ |
    ⟨_, _, row, decisions, henabled, htask, -, rfl⟩
  · refine jsonFits_iff_of_same ?_ rfl
    have hbound : command.bound cfg auth s = true := by
      rw [SendMessageAdmission.bound, Store.dispatchOfMessage?, List.find?_isSome]
      exact ⟨d, hreplays.mem, by simp [hreplays.tenant, hreplays.message]⟩
    simp [writesFit, hbound]
  · refine jsonFits_iff_of_change hinv henabled ?_
    have hbound := SendMessageAdmission.bound_eq_false henabled.1.unbound
    simp [writesFit, Change.writesFit, hbound, htask]

theorem claimOutbox_jsonFits {owner messageId : String} {duration : Int} {entropy : List UInt8}
    {claimed : Option OutboxLease} (hinv : Inv s now)
    (h : SmeshDurable.claimOutbox owner now duration entropy messageId s = .ok (claimed, s')) :
    (∀ x ∈ s'.dispatches, x.jsonFits = true) ↔
      (∀ x ∈ s.dispatches, x.jsonFits = true) ∧
        (claimOutbox owner now duration entropy messageId).writesFit cfg s = true := by
  cases claimOutbox_spec cfg hinv h with
  | busy d inbox hfirst hinbox _ =>
    refine jsonFits_iff_of_same ?_ rfl
    simp [writesFit, hfirst, hinbox]
  | idle hfinal _ =>
    refine jsonFits_iff_of_same ?_ rfl
    simp [writesFit, hfinal]
  | leased d owner token leaseUntil hfinal _ henabled =>
    refine jsonFits_iff_of_change hinv henabled ?_
    simp [writesFit, Change.writesFit, hfinal]
  | released d owner token leaseUntil hfirst haccepted _ henabled =>
    refine jsonFits_iff_of_change hinv henabled ?_
    have hsome := (hinv.dispatches d henabled.1).receiverAccepted_iff.mp haccepted
    simp [writesFit, Change.writesFit, hfirst, hsome]
  | deadLettered row d attempts hfirst henabled =>
    refine jsonFits_iff_of_change hinv henabled ?_
    have hc := henabled.1
    rw [Bool.eq_iff_iff, writesFit, hfirst, Option.all_some, hc.unaccepted]
    simp [hinv.toKeysValid.resultFits_iff hc.mem_tasks hc.taskId_eq, Change.writesFit]

/-- A condition on the row a lease holds is a condition on that row alone. -/
theorem all_heldBy {lease : OutboxLease} {p : Dispatch → Bool} (hinv : Inv s now)
    (hd : d ∈ s.dispatches) (hheld : d.heldBy lease = true) :
    (s.dispatches.all fun x => !x.heldBy lease || p x) = p d := by
  rw [Bool.eq_iff_iff, List.all_eq_true]
  constructor
  · intro hall
    simpa [hheld] using hall d hd
  · intro hp x hx
    cases hx' : x.heldBy lease with
    | false => rfl
    | true => rw [hinv.heldBy_unique hx hd hx' hheld, hp, Bool.or_true]

theorem finishOutboxAttempt_jsonFits {lease : OutboxLease} {disposition : AttemptDisposition}
    {entropy : List UInt8} {messageId : String} {outcome : TransitionOutcome} (hinv : Inv s now)
    (h : SmeshDurable.finishOutboxAttempt lease disposition now entropy messageId s =
      .ok (outcome, s')) :
    (∀ x ∈ s'.dispatches, x.jsonFits = true) ↔
      (∀ x ∈ s.dispatches, x.jsonFits = true) ∧
        (finishOutboxAttempt lease disposition now entropy messageId).writesFit cfg s = true := by
  cases finishOutboxAttempt_spec cfg hinv h with
  | stale hfenced =>
    refine jsonFits_iff_of_same ?_ rfl
    rw [writesFit, List.all_eq_true]
    intro d hd
    cases hheld : d.heldBy lease with
    | false => rfl
    | true => rcases hfenced d hd hheld with h | h | h <;> simp [h]
  | released d token hfinish haccepted henabled =>
    refine jsonFits_iff_of_change hinv henabled ?_
    have hsome := (hinv.dispatches d henabled.1).receiverAccepted_iff.mp haccepted
    simp only [writesFit, Bool.or_assoc]
    rw [all_heldBy hinv henabled.1 hfinish.held]
    simp [hsome, Change.writesFit]
  | retried d attempts error availableAt hfinish hretry henabled =>
    refine jsonFits_iff_of_change hinv henabled ?_
    simp only [writesFit, Bool.or_assoc]
    rw [all_heldBy hinv henabled.1 hfinish.held]
    simp [hretry, Change.writesFit]
  | deadLettered row d attempts hfinish hdead henabled =>
    refine jsonFits_iff_of_change hinv henabled ?_
    have hc := henabled.1
    simp only [writesFit, Bool.or_assoc]
    rw [all_heldBy hinv hc.mem_dispatches hfinish.held, hdead, Bool.eq_iff_iff]
    simp [hfinish.maxAttempts, not_le.mpr hfinish.live, hfinish.unrequested, hc.unaccepted,
      hinv.toKeysValid.resultFits_iff hc.mem_tasks hc.taskId_eq, Change.writesFit]

theorem appendStreamProgress_jsonFits {o decoded : HashOrder} {tenantScope dispatchId : String}
    {frame : StreamResponse} {shown : Option StreamResponse} (hinv : Inv s now)
    (h : SmeshDurable.appendStreamProgress o decoded tenantScope dispatchId frame now s =
      .ok (shown, s')) :
    (∀ x ∈ s'.dispatches, x.jsonFits = true) ↔
      (∀ x ∈ s.dispatches, x.jsonFits = true) ∧
        (appendStreamProgress o decoded tenantScope dispatchId frame now).writesFit cfg s =
          true := by
  rcases appendStreamProgress_spec cfg hinv h with ⟨rfl, hshown⟩ |
    ⟨d, t, htenant, hid, henabled, rfl⟩
  · refine jsonFits_iff_of_same ?_ rfl
    rw [writesFit, Bool.or_eq_true]
    refine .inr (List.all_eq_true.mpr fun x hx => ?_)
    simp only [Bool.or_eq_true, bne_iff_ne, Option.all_eq_true]
    by_cases htenant : x.tenantScope = tenantScope
    · by_cases hid : x.dispatchId = dispatchId
      · exact .inr fun t ht => hshown x hx htenant hid t ht
      · exact .inl (.inr hid)
    · exact .inl (.inl htenant)
  · refine jsonFits_iff_of_change hinv henabled ?_
    have hopen : d.openTranscript? = some t :=
      Dispatch.openTranscript?_eq_some.mpr ⟨henabled.1.transcript_eq, henabled.1.unclosed⟩
    -- the stream the frame is appended to has no working frame yet
    have hfirst : (t.frames.map FrameRow.frame).any isWorkingUpdate = false := by
      simpa using List.find?_eq_none.mp henabled.1.first
    have hall : (s.dispatches.all fun d => d.tenantScope != tenantScope ||
        d.dispatchId != dispatchId || d.openTranscript?.all fun t =>
          (t.frames.map FrameRow.frame).any isWorkingUpdate) = false := by
      rw [List.all_eq_false]
      refine ⟨d, henabled.1.mem, ?_⟩
      simp only [htenant, hid, hopen, Option.all_some, hfirst]
      simp
    rw [writesFit, hall, Bool.or_false, Change.writesFit]

theorem commitDelivery_jsonFits {o decoded : HashOrder} {lease : OutboxLease} {task : Task}
    {result : SendMessageResponse} {frames : List StreamResponse} {outcome : TransitionOutcome}
    (hinv : Inv s now)
    (h : SmeshDurable.commitDelivery o decoded lease task result frames now s =
      .ok (outcome, s')) :
    (∀ x ∈ s'.dispatches, x.jsonFits = true) ↔
      (∀ x ∈ s.dispatches, x.jsonFits = true) ∧
        (commitDelivery o decoded lease task result frames now).writesFit cfg s = true := by
  rcases commitDelivery_spec cfg hinv h with ⟨-, rfl, hexpired⟩ |
    ⟨row, d, attempts, hheld, hlive, -, henabled, rfl⟩
  · refine jsonFits_iff_of_same ?_ rfl
    rw [writesFit, Bool.or_eq_true]
    refine .inr (List.all_eq_true.mpr fun x hx => ?_)
    cases hheld : x.heldBy lease with
    | false => rfl
    | true => simp [hexpired x hx hheld]
  · refine jsonFits_iff_of_change hinv henabled ?_
    rw [writesFit, all_heldBy hinv henabled.1.mem_dispatches hheld]
    simp [not_le.mpr hlive, Change.writesFit]

theorem requestCancellation_jsonFits {decoded : HashOrder} {auth : Option Authorization}
    {taskId : String} {answer : CancellationOutcome} (hinv : Inv s now)
    (h : SmeshDurable.requestCancellation decoded
      (auth.elim (localCancellation cfg) authorizedCancellation) taskId now s =
        .ok (answer, s')) :
    (∀ x ∈ s'.dispatches, x.jsonFits = true) ↔
      (∀ x ∈ s.dispatches, x.jsonFits = true) ∧
        (requestCancellation decoded auth taskId now).writesFit cfg s = true := by
  obtain ⟨d, htarget, rfl, heffect⟩ := requestCancellation_spec cfg hinv h
  cases heffect with
  | awaited inbox decisions hd hactive hinbox hasked hbusy =>
    refine jsonFits_iff_of_same ?_ rfl
    have hawaits : d.awaitsReceiver now = true := by
      simp [Dispatch.awaitsReceiver, hactive, hinbox, hbusy]
    simp [writesFit, htarget, hawaits]
  | requested inbox decisions hinbox henabled =>
    refine jsonFits_iff_of_change hinv henabled ?_
    obtain ⟨live, hmem, hlive⟩ := henabled.live
    have hawaits : d.awaitsReceiver now = true := by
      simp [Dispatch.awaitsReceiver, henabled.active, Option.mem_def.mp hmem, hlive]
    simp [writesFit, htarget, hawaits, Change.writesFit]
  | canceled row decisions henabled =>
    refine jsonFits_iff_of_change hinv henabled ?_
    have hc := henabled.1
    rw [Bool.eq_iff_iff]
    simp [writesFit, htarget, hc.awaitsReceiver_eq_false,
      hinv.toKeysValid.resultFits_iff hc.mem_tasks hc.taskId_eq, Change.writesFit]

/-- A call that succeeds keeps the columns within the limit exactly if what it stores is. -/
theorem jsonFits_iff {op : Operation} (hinv : Inv s op.now) (hexec : op.exec cfg s = some s') :
    (∀ x ∈ s'.dispatches, x.jsonFits = true) ↔
      (∀ x ∈ s.dispatches, x.jsonFits = true) ∧ op.writesFit cfg s = true := by
  cases op with
  | admitSendMessage o auth command =>
    obtain ⟨outcome, hexec⟩ := toOption_map_snd hexec
    rcases admitSendMessage_spec hexec with ⟨-, rfl⟩ | ⟨_, _, decisions, henabled, -, rfl⟩
    · exact jsonFits_iff_of_same rfl rfl
    · exact jsonFits_iff_of_change hinv henabled rfl
  | admitContinuation o auth command =>
    obtain ⟨outcome, hexec⟩ := toOption_map_snd hexec
    exact admitContinuation_jsonFits hinv hexec
  | replayAuthorized auth request streaming now =>
    obtain ⟨outcome, hexec⟩ := toOption_map_snd hexec
    rcases replayAuthorized_spec hexec with ⟨-, rfl⟩ | ⟨_, decisions, -, -, -, -, -, rfl⟩
    · exact jsonFits_iff_of_same rfl rfl
    · exact jsonFits_iff_of_same rfl rfl
  | claimOutbox owner now duration entropy messageId =>
    obtain ⟨claimed, hexec⟩ := toOption_map_snd hexec
    exact claimOutbox_jsonFits hinv hexec
  | finishOutboxAttempt lease disposition now entropy messageId =>
    obtain ⟨outcome, hexec⟩ := toOption_map_snd hexec
    exact finishOutboxAttempt_jsonFits hinv hexec
  | appendStreamProgress o decoded tenantScope dispatchId frame now =>
    obtain ⟨shown, hexec⟩ := toOption_map_snd hexec
    exact appendStreamProgress_jsonFits hinv hexec
  | beginReceive envelope owner now duration entropy =>
    obtain ⟨admission, hexec⟩ := toOption_map_snd hexec
    cases beginReceive_spec cfg hinv hexec with
    | busy => exact jsonFits_iff_of_same rfl rfl
    | replayed => exact jsonFits_iff_of_same rfl rfl
    | accepted d inbox lease _ _ henabled => exact jsonFits_iff_of_change hinv henabled rfl
    | reclaimed d old inbox lease _ _ _ henabled =>
      exact jsonFits_iff_of_change hinv henabled rfl
  | completeReceive lease events now =>
    obtain ⟨u, hexec⟩ := toOption_map_snd hexec
    obtain ⟨d, inbox, -, -, -, henabled, rfl⟩ := completeReceiveInner_spec cfg hexec
    exact jsonFits_iff_of_change hinv henabled rfl
  | completeLoopbackOutcome lease events termination now =>
    obtain ⟨u, hexec⟩ := toOption_map_snd hexec
    obtain ⟨d, inbox, -, -, -, henabled, rfl⟩ := completeReceiveInner_spec cfg hexec
    exact jsonFits_iff_of_change hinv henabled rfl
  | completeCanceledReceive lease events now =>
    obtain ⟨u, hexec⟩ := toOption_map_snd hexec
    obtain ⟨d, inbox, -, -, -, henabled, rfl⟩ := completeReceiveInner_spec cfg hexec
    exact jsonFits_iff_of_change hinv henabled rfl
  | commitDelivery o decoded lease task result frames now =>
    obtain ⟨outcome, hexec⟩ := toOption_map_snd hexec
    exact commitDelivery_jsonFits hinv hexec
  | requestCancellation decoded auth taskId now =>
    obtain ⟨answer, hexec⟩ := toOption_map_snd hexec
    exact requestCancellation_jsonFits hinv hexec
  | recoverOrphanedTasks choices now =>
    exact recoverOrphanedTasks_jsonFits cfg hinv (toOption_eq_some hexec)

end Operation

/-- In a run whose successful calls all store documents within the limit every column stays
within it, and such a state is left by a successful call exactly if what it stores is not. -/
theorem columns_fit_iff_writesFit {op : Operation}
    (h : ReachableBy cfg
      (fun s op => (op.exec cfg s).isSome = true → op.writesFit cfg s = true) s now)
    (htime : now ≤ op.now) (hexec : op.exec cfg s = some s') :
    s.jsonFits = true ∧ (s'.jsonFits = true ↔ op.writesFit cfg s = true) := by
  obtain ⟨start, hrun⟩ := h
  have hstep : ∀ s t (op : Operation), (Inv s t ∧ ∀ d ∈ s.dispatches, d.jsonFits = true) →
      t ≤ op.now → ((op.exec cfg s).isSome = true → op.writesFit cfg s = true) →
      (Inv ((system cfg).next s op) op.now ∧
        ∀ d ∈ ((system cfg).next s op).dispatches, d.jsonFits = true) := by
    intro s t op hstate htime hsafe
    refine ⟨next_inv s t op hstate.1 htime, ?_⟩
    show ∀ d ∈ ((op.exec cfg s).getD s).dispatches, d.jsonFits = true
    cases hexec : op.exec cfg s with
    | none => exact hstate.2
    | some s' =>
        apply (op.jsonFits_iff (hstate.1.mono htime) hexec).mpr
        exact ⟨hstate.2, hsafe (by rw [hexec]; rfl)⟩
  have hstart : ∀ d ∈ Store.empty.dispatches, d.jsonFits = true := fun d hd =>
    absurd hd List.not_mem_nil
  obtain ⟨hinv, hfits⟩ := hrun.invariant hstep ⟨Inv.empty, hstart⟩
  have hinv' := hinv.mono htime
  refine ⟨hinv.jsonFits_iff.mpr hfits, ?_⟩
  rw [(hinv'.changes (op.refines hinv' hexec)).jsonFits_iff, op.jsonFits_iff hinv' hexec,
    and_iff_right hfits]

end

attribute [local instance] checksumDigest

/-! ## A delivery of the greatest length -/

theorem sampleDelivery_columns_fit :
    ∃ s', ReachableBy sampleConfig
        (fun s op => (op.exec sampleConfig s).isSome = true → op.writesFit sampleConfig s = true)
        (sampleStore (sampleClaimed false)) 1 ∧
      (sampleDelivery "done").exec sampleConfig (sampleStore (sampleClaimed false)) = some s' ∧
      (sampleStore (sampleClaimed false)).jsonFits = true ∧ (s'.jsonFits = true ↔
        (sampleDelivery "done").writesFit sampleConfig (sampleStore (sampleClaimed false)) =
          true) := by
  have hpermits : (system sampleConfig).Permits
      (fun s op => (op.exec sampleConfig s).isSome = true → op.writesFit sampleConfig s = true)
      Store.empty (sampleClaimed false) := by decide +kernel
  obtain ⟨start, hreachable⟩ := reachableBy_foldl sampleConfig (sampleClaimed false) (by decide)
    hpermits
  replace hreachable : ReachableBy sampleConfig _ (sampleStore (sampleClaimed false)) 1 :=
    hreachable
  have hsome : ((sampleDelivery "done").exec sampleConfig
      (sampleStore (sampleClaimed false))).isSome = true := by decide +kernel
  obtain ⟨s', hexec⟩ := Option.isSome_iff_exists.mp hsome
  exact ⟨s', hreachable, hexec, columns_fit_iff_writesFit hreachable (by decide) hexec⟩

/-- The completed task grows with its reply. -/
theorem sampleCompleted_jsonBytes (reply : String) :
    (sampleCompleted reply).jsonBytes = Json.quotedSize reply + 220 := by
  have hempty : Json.quotedSize "" = 2 := by decide
  have hshort : (sampleCompleted "").jsonBytes = 222 := by decide +kernel
  -- the reply occurs in one string of the document only
  have hshift : (sampleCompleted reply).jsonBytes + 2 =
      (sampleCompleted "").jsonBytes + Json.quotedSize reply := by
    simp only [Task.jsonBytes, Task.toJson, Json.size_obj, List.map_append, List.sum_append,
      List.map_cons, List.sum_cons, Json.fieldSize, sampleCompleted, TaskStatus.toJson,
      optionalField, Message.toJson, Json.size_arr, Part.toJson, Part.ofText,
      PartContent.toField, Json.size_str, List.map_nil, List.sum_nil, List.length_append,
      List.length_cons, List.length_nil, hempty]
    omega
  omega

/-- The store after a delivery of the sample dispatch, row by row. -/
def sampleDelivered (s : Store) (reply : String) : Store :=
  { s with
    tasks := s.tasks.map (·.append 2 .durableCompleted (sampleCompleted reply) 2)
    dispatches := s.dispatches.map (·.deliver 1 (.task (sampleCompleted reply)) none 2) }

/-- What a delivery of the sample task finds in the claimed store, and the room it has. -/
theorem sampleClaimed_deliverable :
    let s := sampleStore (sampleClaimed false)
    s.tasks.length = 1 ∧ s.dispatches.length = 1 ∧
      (∀ row ∈ s.tasks, row.tenantScope = sampleLease.tenantScope ∧
        row.task.id = sampleLease.taskId ∧ row.revision = 1) ∧
      (∀ d ∈ s.dispatches, d.heldBy sampleLease = true ∧ d.ratificationRequired = false ∧
        d.transcript = none ∧ d.causativeRevision = 1 ∧ d.record.state = .inProgress) ∧
      (sampleDelivered s "").taskBytes ≤ 4096 ∧ (sampleDelivered s "").eventBytes ≤ 4096 ∧
      (sampleDelivered s "").recordBytes ≤ 4096 ∧ (sampleDelivered s "").outboxBytes ≤ 4096 ∧
      (sampleDelivered s "").attemptBytes ≤ 4096 ∧ (sampleDelivered s "").streamBytes = 0 := by
  decide +kernel

/-- A longer reply is stored three times: in the task, in its event and in the result. -/
theorem sampleDelivered_bytes {row : TaskRow} {d : Dispatch} {s : Store} (reply : String)
    (hrow : s.tasks = [row]) (hd : s.dispatches = [d])
    (hstate : d.record.state = .inProgress) :
    let extra := (sampleCompleted reply).jsonBytes
    let less := (sampleCompleted "").jsonBytes
    (sampleDelivered s reply).taskBytes + less = (sampleDelivered s "").taskBytes + extra ∧
    (sampleDelivered s reply).eventBytes + less = (sampleDelivered s "").eventBytes + extra ∧
    (sampleDelivered s reply).recordBytes + less = (sampleDelivered s "").recordBytes + extra ∧
    (sampleDelivered s reply).outboxBytes = (sampleDelivered s "").outboxBytes ∧
    (sampleDelivered s reply).attemptBytes = (sampleDelivered s "").attemptBytes ∧
    (sampleDelivered s reply).streamBytes = (sampleDelivered s "").streamBytes := by
  intro extra less
  refine ⟨?_, ?_, ?_, ?_, ?_, ?_⟩
  · simp only [sampleDelivered, Store.taskBytes, hrow, List.map_cons, List.map_nil, List.sum_cons,
      List.sum_nil, TaskRow.bytes, TaskRow.append, sampleCompleted]
    change _ + extra + 0 + less = _ + less + 0 + extra
    omega
  · simp only [sampleDelivered, Store.eventBytes, hrow, List.map_cons, List.map_nil, List.sum_cons,
      List.sum_nil, TaskRow.eventBytes, TaskRow.append, List.map_append, List.sum_append,
      sampleCompleted]
    change _ + (_ + extra + 0) + 0 + less = _ + (_ + less + 0) + 0 + extra
    omega
  · simp only [sampleDelivered, Store.recordBytes, hd, List.map_cons, List.map_nil, List.sum_cons,
      List.sum_nil, Dispatch.recordBytes, Dispatch.deliver, RecordRow.complete, hstate, if_true,
      RecordRow.finalBytes, Option.elim_some, SendMessageResponse.jsonBytes_task]
    change _ + (extra + 9) + 0 + less = _ + (less + 9) + 0 + extra
    omega
  · simp only [sampleDelivered, Store.outboxBytes, hd, List.map_cons, List.map_nil]
    rfl
  · simp only [sampleDelivered, Store.attemptBytes, hd, List.map_cons, List.map_nil]
    rfl
  · simp only [sampleDelivered, Store.streamBytes, hd, List.map_cons, List.map_nil]
    rfl

/-- The delivery of a reply succeeds as long as the bare task is within the limit. -/
theorem sampleDelivery_exec {reply : String}
    (hsize : (sampleCompleted reply).jsonBytes ≤ maxTaskJsonBytes) :
    (sampleDelivery reply).exec sampleConfig (sampleStore (sampleClaimed false)) =
      some (sampleDelivered (sampleStore (sampleClaimed false)) reply) := by
  obtain ⟨htasks, hdispatches, hrows, hds, htask, hevent, hrecord, houtbox, hattempt, hstream⟩ :=
    sampleClaimed_deliverable
  set s := sampleStore (sampleClaimed false)
  obtain ⟨row, hrow⟩ := List.length_eq_one_iff.mp htasks
  obtain ⟨d, hd⟩ := List.length_eq_one_iff.mp hdispatches
  obtain ⟨htenant, hid, hrevision⟩ := hrows row (by simp [hrow])
  obtain ⟨hheld, hratified, htranscript, hcausative, hstate⟩ := hds d (by simp [hd])
  have hbytes := sampleDelivered_bytes reply hrow hd hstate
  -- the frames are the task and the status, and fold to the completed task
  have hfirst : (StreamResponse.task sampleTask).jsonBytes ≤ 4096 := by decide +kernel
  have hlast : (statusFrame (sampleCompleted reply)).jsonBytes ≤ maxTaskJsonBytes :=
    (statusFrame_jsonBytes_le (show (sampleCompleted reply).history = some [sampleMessage] from
      rfl)).trans hsize
  have hterminal : validateTerminalPublicTranscript
      [.task sampleTask, statusFrame (sampleCompleted reply)] (sampleCompleted reply) = true := by
    simp [validateTerminalPublicTranscript, foldUpdates, frameAddresses, frameCloses, statusFrame,
      applyFrame, sampleCompleted, sampleTask, isDispatchClosed, TaskState.isTerminal,
      maxStreamFrames]
  have hfits : (sampleDelivered s reply).atomicFits = true := by
    simp only [Store.atomicFits, Bool.and_eq_true, decide_eq_true_eq]
    have hlimits : maxTaskJsonBytes = 1048576 ∧ maxStoreJsonBytes = 67108864 := by decide
    omega
  have hcommit : commitDelivery .sorted .sorted sampleLease (sampleCompleted reply)
      (.task (sampleCompleted reply)) [.task sampleTask, statusFrame (sampleCompleted reply)] 2 s =
        .ok (.applied, sampleDelivered s reply) := by
    simp only [commitDelivery, bind_eq_ok, require_eq_ok, encodeTask_eq_ok, exists_const]
    refine ⟨⟨rfl, rfl, by simp [finalResultMatchesTask]⟩, hsize, hterminal, ⟨?_, ?_, ?_⟩, ?_⟩
    · simp [maxStreamFrames]
    · rw [encodeFrames_size]
      simp only [List.map_cons, List.map_nil, List.sum_cons, List.sum_nil, List.length_cons,
        List.length_nil]
      have hlimits : maxTaskJsonBytes = 1048576 ∧ maxStoreJsonBytes = 67108864 := by decide
      omega
    · have hlimits : maxTaskJsonBytes = 1048576 ∧ maxAtomicJsonBytes = 1048576 := by decide
      simp only [List.all_cons, List.all_nil, Bool.and_eq_true, decide_eq_true_eq]
      refine ⟨?_, ?_, trivial⟩ <;> omega
    · have hfind : s.dispatches.find? (fun d => d.heldBy sampleLease) = some d := by
        simp [hd, hheld]
      have hlookup : s.tasks.find? (fun row => decide (row.tenantScope = sampleLease.tenantScope ∧
          row.task.id = sampleLease.taskId)) = some row := by simp [hrow, htenant, hid]
      simp only [hfind]
      rw [if_neg (by decide)]
      simp only [bind_eq_ok, require_eq_ok, expect_eq_ok, exists_const, hlookup]
      refine ⟨hratified, row, rfl, ?_⟩
      rw [if_neg (by rw [hrevision, hcausative]; exact not_not.mpr rfl)]
      simp only [bind_eq_ok, nextRevision_eq_ok, ensureAtomicCapacity_eq_ok,
        ensureStreamCapacity_eq_ok, exists_const, deliverTranscript, htranscript, hrevision]
      have hstore : (s.putTask (row.append 2 .durableCompleted (sampleCompleted reply) 2)).putDispatch
          (d.deliver 1 (.task (sampleCompleted reply)) none 2) = sampleDelivered s reply := by
        have hkey : row.task.id = (sampleCompleted reply).id := hid
        have hsame : (d.deliver 1 (.task (sampleCompleted reply)) none 2).outboxId = d.outboxId :=
          rfl
        simp only [Store.putTask, Store.putDispatch, sampleDelivered, Keyed.put, hrow, hd,
          List.map_cons, List.map_nil, TaskRow.append_task, hkey, hsame, if_true]
      refine ⟨none, rfl, 2, ⟨by decide, rfl⟩, ?_, ?_, ?_⟩
      · exact hstore ▸ hfits
      · exact hstore ▸ (by omega : (sampleDelivered s reply).streamBytes ≤ maxStoreJsonBytes)
      · exact congrArg (fun store => Except.ok (TransitionOutcome.applied, store)) hstore
  show (commitDelivery _ _ _ _ _ _ _ s).toOption.map Prod.snd = _
  rw [hcommit]
  rfl

/-- A reply of plain letters is as long as it looks. -/
theorem quotedSize_replicate (n : Nat) :
    Json.quotedSize (String.ofList (List.replicate n 'a')) = n + 2 := by
  rw [Json.quotedSize_eq, String.toList_ofList]
  congr 1
  induction n with
  | zero => rfl
  | succ n ih =>
    rw [List.replicate_succ, Json.escape, String.utf8ByteSize_append, ih]
    exact Nat.add_comm 1 n

/-- A task of exactly one mebibyte is delivered, its result is nine bytes longer, and from
then on every claim is refused. -/
theorem greatest_delivery_stops_every_claim :
    ∃ s now, ∃ op : Operation, ∃ s', Reachable sampleConfig s now ∧ now ≤ op.now ∧
      op.exec sampleConfig s = some s' ∧ s'.jsonFits = false ∧
      ∀ owner later duration entropy messageId,
        (claimOutbox owner later duration entropy messageId s').toOption = none := by
  obtain ⟨start, hreachable⟩ := reachable_foldl sampleConfig (sampleClaimed false) (by decide)
  replace hreachable : Reachable sampleConfig (sampleStore (sampleClaimed false)) 1 := hreachable
  obtain ⟨-, hdispatches, -, hds, -⟩ := sampleClaimed_deliverable
  set s := sampleStore (sampleClaimed false)
  obtain ⟨d, hd⟩ := List.length_eq_one_iff.mp hdispatches
  obtain ⟨-, -, -, -, hstate⟩ := hds d (by simp [hd])
  obtain ⟨reply, hbytes⟩ : ∃ reply, (sampleCompleted reply).jsonBytes = 1048576 := by
    refine ⟨String.ofList (List.replicate 1048354 'a'), ?_⟩
    rw [sampleCompleted_jsonBytes, quotedSize_replicate]
  have hexec : (sampleDelivery reply).exec sampleConfig s = some (sampleDelivered s reply) :=
    sampleDelivery_exec (by rw [hbytes]; decide)
  have hmem : d.deliver 1 (.task (sampleCompleted reply)) none 2 ∈
      (sampleDelivered s reply).dispatches := by simp [sampleDelivered, hd]
  have hlong : (d.deliver 1 (.task (sampleCompleted reply)) none 2).record.jsonFits = false := by
    simp [Dispatch.deliver, RecordRow.complete, hstate, RecordRow.jsonFits, RecordRow.finalBytes,
      hbytes, maxAtomicJsonBytes]
  refine ⟨s, 1, sampleDelivery reply, _, hreachable, by simp [sampleDelivery, Operation.now],
    hexec, ?_, ?_⟩
  · refine Bool.eq_false_iff.mpr fun hfits => ?_
    simp only [Store.jsonFits, Bool.and_eq_true, List.all_eq_true] at hfits
    have hdispatch := hfits.1.2 _ hmem
    simp [Dispatch.jsonFits, hlong] at hdispatch
  · intro owner later duration entropy messageId
    have hrefused : validateAtomicRecords (sampleDelivered s reply) = false := by
      refine Bool.eq_false_iff.mpr fun hvalid => ?_
      rw [record_jsonFits_of_validateAtomicRecords hvalid _ hmem] at hlong
      cases hlong
    rw [Option.eq_none_iff_forall_not_mem]
    intro claimed hclaimed
    have hvalid := validateAtomicRecords_of_claimOutbox (toOption_eq_some hclaimed)
    cases hrefused.symm.trans hvalid

end SmeshDurable
