import SmeshDurable.Protocol.RefineAdmission

/-!
# Claims and finished attempts as changes

A claim leases a dispatch, releases the lease of an accepted one, dead-letters one that
nobody accepted, or changes nothing. A finished attempt is released, retried or
dead-lettered, and a stale one changes nothing.
-/

namespace SmeshDurable

open Transaction Relation

variable {s s' : Store} {now : Int} {d d' : Dispatch} {row : TaskRow}

/-! ## One row among many -/

/-- Changing a dispatch that was put back is putting back the changed one. -/
theorem put_map {f : Dispatch → Dispatch} (hd' : d'.outboxId = d.outboxId) (hid : (f d').outboxId = d.outboxId)
    (hother : ∀ x ∈ s.dispatches, x ≠ d → f x = x) :
    (Keyed.put Dispatch.outboxId s.dispatches d').map f =
      Keyed.put Dispatch.outboxId s.dispatches (f d') := by
  rw [Keyed.put, List.map_map]
  refine List.map_congr_left fun x hx => ?_
  by_cases hkey : x.outboxId = d.outboxId
  · simp [hkey, hd', hid]
  · have hne : x ≠ d := fun heq => hkey (heq ▸ rfl)
    simp [hkey, hd', hid, hother x hx hne]

/-- Settling the dispatch that was put back. -/
theorem settle_put {outboxId : Nat} (hd' : d'.outboxId = outboxId) (state : OutboxState)
    (lastError : Option String) :
    (Keyed.put Dispatch.outboxId s.dispatches d').map
        (fun x => if x.outboxId = outboxId then x.settle state lastError now else x) =
      Keyed.put Dispatch.outboxId s.dispatches (d'.settle state lastError now) := by
  rw [Keyed.put, List.map_map]
  refine List.map_congr_left fun x _ => ?_
  by_cases hkey : x.outboxId = outboxId <;> simp [hkey, hd', Dispatch.settle]

/-- Putting back dispatches does not change the bytes of streams it leaves alone. -/
theorem streamBytes_map {f : Dispatch → Dispatch}
    (hbytes : ∀ x ∈ s.dispatches, (f x).streamBytes = x.streamBytes) :
    ({ s with dispatches := s.dispatches.map f } : Store).streamBytes = s.streamBytes := by
  simp only [Store.streamBytes, List.map_map]
  exact congrArg List.sum (List.map_congr_left hbytes)

/-! ## Dead letters -/

/-- When a dead letter of an unfinished task succeeds, and what it does. -/
theorem deadLetterTask_eq_ok {taskId dispatchId error messageId : String}
    (hrow : s.taskRow? taskId = some row) (hopen : row.task.status.state.isTerminal = false) :
    deadLetterTask taskId dispatchId error messageId now s = .ok s' ↔
      row.task.jsonBytes ≤ maxTaskJsonBytes ∧
      row.task.status.state.transitionAllowed .failed = true ∧
      (deadLetteredTask row.task error messageId now).jsonBytes ≤ maxTaskJsonBytes ∧
      (row.revision : Int) + 1 ≤ i64Max ∧ s'.streamBytes ≤ maxStoreJsonBytes ∧
      s' = { s.putTask (row.append (row.revision + 1) .deadLettered
          (deadLetteredTask row.task error messageId now) now) with
        dispatches := s.dispatches.map fun d =>
          if d.dispatchId = dispatchId ∧ d.tenantScope = row.tenantScope ∧ d.taskId = taskId then
            d.deadLetter (.task (deadLetteredTask row.task error messageId now)) error now
          else d } := by
  simp only [deadLetterTask, bind_eq_ok, expect_eq_ok, hrow, Option.some.injEq, decodeTask_eq_ok,
    exists_eq_left']
  constructor
  · rintro ⟨task, ⟨hstored, rfl⟩, h⟩
    simp only [hopen, Bool.false_eq_true, if_false, bind_eq_ok, require_eq_ok, encodeTask_eq_ok,
      nextRevision_eq_ok, ensureStreamCapacity_eq_ok, exists_const, Except.ok.injEq] at h
    obtain ⟨hallowed, hsize, revision, ⟨hrevision, rfl⟩, hstream, rfl⟩ := h
    exact ⟨hstored, hallowed, hsize, hrevision, hstream, rfl⟩
  · rintro ⟨hstored, hallowed, hsize, hrevision, hstream, rfl⟩
    refine ⟨row.task, ⟨hstored, rfl⟩, ?_⟩
    simp only [hopen, Bool.false_eq_true, if_false, bind_eq_ok, require_eq_ok, encodeTask_eq_ok,
      nextRevision_eq_ok, ensureStreamCapacity_eq_ok, exists_const, Except.ok.injEq]
    exact ⟨hallowed, hsize, _, ⟨hrevision, rfl⟩, hstream, rfl⟩

/-- The dispatch of a dead letter among the others, already closed as `d'`. -/
theorem deadLetter_put (hkeys : KeysValid s) (hd : d ∈ s.dispatches) (hsame : SameIdentity d d')
    (htenant : row.tenantScope = d.tenantScope) (result : SendMessageResponse) (error : String) :
    (Keyed.put Dispatch.outboxId s.dispatches d').map (fun x =>
        if x.dispatchId = d.dispatchId ∧ x.tenantScope = row.tenantScope ∧ x.taskId = d.taskId then
          x.deadLetter result error now
        else x) =
      Keyed.put Dispatch.outboxId s.dispatches (d'.deadLetter result error now) := by
  have hself : d'.dispatchId = d.dispatchId ∧ d'.tenantScope = row.tenantScope ∧
      d'.taskId = d.taskId :=
    ⟨hsame.dispatchId, hsame.tenantScope.trans htenant.symm, hsame.taskId⟩
  rw [put_map hsame.outboxId (by rw [if_pos hself]; exact hsame.outboxId), if_pos hself]
  intro x hx hne
  rw [if_neg]
  exact fun hmatch => hne (hkeys.dispatchIds.eq_of_key hx hd hmatch.1)

section Refine

variable [ContentDigest] {cfg : Config}

theorem working_of_leased (hinv : Inv s now) (hd : d ∈ s.dispatches) (hleased : d.state = .leased)
    (hrow : s.taskRow? d.taskId = some row) :
    Coherent row d ∧ row.task.status.state.isTerminal = false := by
  obtain ⟨hmem, hid⟩ := Store.taskRow?_eq_some hrow
  have hcoherent := hinv.coherent_of_taskId hd hmem hid
  refine ⟨hcoherent, ?_⟩
  rcases hcoherent.working (Dispatch.active_iff.mpr (.inr hleased)) with hstate | hstate <;>
    rw [hstate] <;> rfl

/-- The effect of a dead letter, as three statements make it: the attempts are closed, the task
and its dispatch dead-lettered, and the row settled. -/
theorem deadLetter_run (cfg : Config) (hinv : Inv s now) (hd : d ∈ s.dispatches)
    (htenant : row.tenantScope = d.tenantScope) (error messageId : String) :
    let failed := deadLetteredTask row.task error messageId now
    let dispatches := (s.putDispatch (d.closeAttempts .dead (some error) now)).dispatches.map fun x =>
      if x.dispatchId = d.dispatchId ∧ x.tenantScope = row.tenantScope ∧ x.taskId = d.taskId then
        x.deadLetter (.task failed) error now
      else x
    (Change.deadLetter row d (d.attempts.map (AttemptRow.close .dead (some error) now)) error
        messageId).run cfg now s =
      { s.putTask (row.append (row.revision + 1) .deadLettered failed now) with
        dispatches := dispatches.map fun x =>
          if x.outboxId = d.outboxId then x.settle .dead (some error) now else x } := by
  refine Store.mk.injEq .. ▸ ⟨rfl, ?_, rfl, rfl⟩
  have hsame : SameIdentity d (d.closeAttempts .dead (some error) now) :=
    ⟨rfl, rfl, rfl, rfl, rfl, rfl⟩
  show _ = List.map _ (List.map _ (Keyed.put Dispatch.outboxId s.dispatches _))
  rw [deadLetter_put hinv.toKeysValid hd hsame htenant, settle_put ?_]
  all_goals rfl

omit [ContentDigest] in
/-- Settling rows does not change the bytes of the streams. -/
theorem streamBytes_settle (outboxId : Nat) (state : OutboxState) (error : Option String) :
    ({ s with dispatches := s.dispatches.map fun x =>
        if x.outboxId = outboxId then x.settle state error now else x } : Store).streamBytes =
      s.streamBytes := by
  refine streamBytes_map fun x _ => ?_
  split <;> rfl

/-- An expired final attempt that nobody accepted: closed, dead-lettered and settled. -/
theorem expired_deadLetter (cfg : Config) {failed : Store} {error messageId : String} (hinv : Inv s now)
    (hd : d ∈ s.dispatches) (hleased : d.state = .leased) (hunaccepted : d.inbox = none)
    (hrow : s.taskRow? d.taskId = some row) (herror : error.utf8ByteSize ≤ 4096)
    (h : deadLetterTask d.taskId d.dispatchId error messageId now
      (s.putDispatch (d.closeAttempts .dead (some error) now)) = .ok failed) :
    let change := Change.deadLetter row d
      (d.attempts.map (AttemptRow.close .dead (some error) now)) error messageId
    change.Enabled cfg now s ∧
      change.run cfg now s =
        { failed with
          dispatches := failed.dispatches.map fun x =>
            if x.outboxId = d.outboxId then x.settle .dead (some error) now else x } := by
  intro change
  obtain ⟨hcoherent, hopen⟩ := working_of_leased hinv hd hleased hrow
  obtain ⟨hmem, hid⟩ := Store.taskRow?_eq_some hrow
  obtain ⟨-, -, hsize, -, hstream, rfl⟩ := (deadLetterTask_eq_ok
    (s := s.putDispatch (d.closeAttempts .dead (some error) now)) hrow hopen).mp h
  have hrun := deadLetter_run cfg hinv hd hcoherent.tenant error messageId
  refine ⟨⟨⟨⟨hmem, hd, hid⟩, hleased, hunaccepted, ?_, hsize⟩, ?_⟩, hrun⟩
  · exact (hinv.dispatches d hd).attempts.closesTo_map_close now .dead _ herror
  · show (change.run cfg now s).streamBytes ≤ _
    rw [hrun]
    exact (streamBytes_settle ..).trans_le hstream

/-- The dead letter of a leased row is refused only for its size: the task is open and was
stored within the limit. -/
theorem expired_deadLetter_ok (cfg : Config) (error messageId : String) (hinv : Inv s now)
    (hd : d ∈ s.dispatches) (hleased : d.state = .leased) (hrow : s.taskRow? d.taskId = some row) :
    let change := Change.deadLetter row d
      (d.attempts.map (AttemptRow.close .dead (some error) now)) error messageId
    (∃ failed, deadLetterTask d.taskId d.dispatchId error messageId now
        (s.putDispatch (d.closeAttempts .dead (some error) now)) = .ok failed) ↔
      (deadLetteredTask row.task error messageId now).jsonBytes ≤ maxTaskJsonBytes ∧
        (row.revision : Int) + 1 ≤ i64Max ∧
        (change.run cfg now s).streamBytes ≤ maxStoreJsonBytes := by
  intro change
  obtain ⟨hcoherent, hopen⟩ := working_of_leased hinv hd hleased hrow
  obtain ⟨hmem, -⟩ := Store.taskRow?_eq_some hrow
  obtain ⟨event, hevent, -, htask⟩ := (hinv.rows row hmem).lastEvent_mem
  have hstored : row.task.jsonBytes ≤ maxTaskJsonBytes :=
    htask ▸ ((hinv.rows row hmem).events event hevent).2.2.2
  have hallowed : row.task.status.state.transitionAllowed .failed = true := by
    rcases hcoherent.working (Dispatch.active_iff.mpr (.inr hleased)) with hstate | hstate <;>
      rw [hstate] <;> rfl
  rw [deadLetter_run cfg hinv hd hcoherent.tenant]
  simp only [deadLetterTask_eq_ok
    (s := s.putDispatch (d.closeAttempts .dead (some error) now)) hrow hopen]
  constructor
  · rintro ⟨_, -, -, hsize, hrevision, hstream, rfl⟩
    exact ⟨hsize, hrevision, (streamBytes_settle ..).trans_le hstream⟩
  · rintro ⟨hsize, hrevision, hstream⟩
    exact ⟨_, hstored, hallowed, hsize, hrevision, (streamBytes_settle ..).symm.trans_le hstream,
      rfl⟩

/-! ## Claim -/

omit [ContentDigest] in
theorem expiredFinal?_eq_some (h : expiredFinal? s now = some d) :
    d ∈ s.dispatches ∧ d.leaseExpired now = true ∧
      (d.maxAttempts ≤ d.attemptCount ∨ d.receiverAccepted = true) := by
  have hmem := Keyed.mem_of_first? h
  simpa [List.mem_filter] using hmem

omit [ContentDigest] in
theorem claimable?_eq_some (h : claimable? s now = some d) :
    d ∈ s.dispatches ∧ d.claimable now = true :=
  List.mem_filter.mp (Keyed.mem_of_first? h)

omit [ContentDigest] in
theorem Dispatch.leased_of_leaseExpired (h : d.leaseExpired now = true) : d.state = .leased := by
  simp only [Dispatch.leaseExpired, Bool.and_eq_true, beq_iff_eq] at h
  exact h.1

variable (cfg)

/-- What a successful claim does. -/
inductive ClaimEffect (messageId : String) (now : Int) (s : Store) :
    Option OutboxLease → Store → Prop
  | busy (d : Dispatch) (inbox : InboxRow) (hfirst : expiredFinal? s now = some d)
      (hinbox : d.inbox = some inbox) (hlive : inbox.live now = true) :
      ClaimEffect messageId now s none s
  | idle (hfinal : expiredFinal? s now = .none) (hnone : claimable? s now = .none) :
      ClaimEffect messageId now s none s
  | leased (d : Dispatch) (owner token : String) (leaseUntil : Int)
      (hfinal : expiredFinal? s now = .none) (hfirst : claimable? s now = some d)
      (henabled : (Change.lease d owner token leaseUntil).Enabled cfg now s) :
      ClaimEffect messageId now s
        (some ((d.lease owner token leaseUntil now).leaseView owner token leaseUntil))
        ((Change.lease d owner token leaseUntil).run cfg now s)
  | released (d : Dispatch) (owner token : String) (leaseUntil : Int)
      (hfirst : expiredFinal? s now = some d) (haccepted : d.receiverAccepted = true)
      (hidle : ∀ inbox ∈ d.inbox, inbox.live now = false)
      (henabled : (Change.release d owner token leaseUntil).Enabled cfg now s) :
      ClaimEffect messageId now s (some (d.leaseView owner token leaseUntil))
        ((Change.release d owner token leaseUntil).run cfg now s)
  | deadLettered (row : TaskRow) (d : Dispatch) (attempts : List AttemptRow)
      (hfirst : expiredFinal? s now = some d)
      (henabled : (Change.deadLetter row d attempts expiredFinalError messageId).Enabled cfg now
        s) :
      ClaimEffect messageId now s .none
        ((Change.deadLetter row d attempts expiredFinalError messageId).run cfg now s)

variable {cfg} {owner messageId : String} {duration : Int} {entropy : List UInt8}
  {claimed : Option OutboxLease}

theorem reconcileExpired_spec (hinv : Inv s now) (hfirst : expiredFinal? s now = some d)
    (hduration : 0 < duration)
    (h : reconcileExpired d owner now duration entropy messageId s = .ok (claimed, s')) :
    ClaimEffect cfg messageId now s claimed s' := by
  obtain ⟨hd, hlease, -⟩ := expiredFinal?_eq_some hfirst
  have hleased := Dispatch.leased_of_leaseExpired hlease
  unfold reconcileExpired at h
  split at h
  case h_1 inbox hinbox =>
    simp only [bind_eq_ok, require_eq_ok, exists_const] at h
    obtain ⟨hdigest, h⟩ := h
    split at h
    case isTrue hlive =>
      obtain ⟨rfl, rfl⟩ := Prod.mk.inj (Except.ok.inj h)
      exact .busy d inbox hfirst hinbox hlive
    case isFalse hidle =>
      simp only [bind_eq_ok, leaseEnd_eq_ok, ensureAtomicCapacity_eq_ok, exists_const,
        Except.ok.injEq, Prod.mk.injEq] at h
      obtain ⟨leaseUntil, ⟨-, rfl⟩, -, rfl, rfl⟩ := h
      refine .released d owner _ _ hfirst ?_ ?_ ⟨hd, hleased, by omega⟩
      · simp [Dispatch.receiverAccepted, hinbox, hdigest]
      · rw [hinbox]
        rintro x ⟨⟩
        simpa using hidle
  case h_2 hinbox =>
    simp only [bind_eq_ok, expect_eq_ok, ensureAtomicCapacity_eq_ok, exists_const,
      Except.ok.injEq, Prod.mk.injEq] at h
    obtain ⟨row, hrow, failed, hfailed, -, rfl, rfl⟩ := h
    obtain ⟨-, hopen⟩ := working_of_leased hinv hd hleased hrow
    obtain ⟨henabled, hrun⟩ := expired_deadLetter cfg hinv hd hleased hinbox hrow
      (by decide) hfailed
    simp only [hopen, Bool.false_eq_true, if_false]
    rw [← hrun]
    exact .deadLettered row d _ hfirst henabled

/-- A claim is served only from a store that passes the check of its records. -/
theorem validateAtomicRecords_of_claimOutbox {result : Option OutboxLease × Store}
    (h : claimOutbox owner now duration entropy messageId s = .ok result) :
    validateAtomicRecords s = true := by
  simp only [claimOutbox, bind_eq_ok, require_eq_ok, exists_const] at h
  exact h.2.1

theorem claimOutbox_spec (cfg : Config) (hinv : Inv s now)
    (h : claimOutbox owner now duration entropy messageId s = .ok (claimed, s')) :
    ClaimEffect cfg messageId now s claimed s' := by
  simp only [claimOutbox, bind_eq_ok, require_eq_ok, exists_const] at h
  obtain ⟨⟨-, -, hduration⟩, -, h⟩ := h
  split at h
  case h_1 d hexpired => exact reconcileExpired_spec hinv hexpired hduration h
  case h_2 hfinal =>
    split at h
    case h_1 hnone =>
      obtain ⟨rfl, rfl⟩ := Prod.mk.inj (Except.ok.inj h)
      exact .idle hfinal hnone
    case h_2 d hclaimable =>
      simp only [bind_eq_ok, leaseEnd_eq_ok, ensureAtomicCapacity_eq_ok, exists_const,
        Except.ok.injEq, Prod.mk.injEq] at h
      obtain ⟨leaseUntil, ⟨-, rfl⟩, -, rfl, rfl⟩ := h
      obtain ⟨hd, hdue⟩ := claimable?_eq_some hclaimable
      exact .leased d owner _ _ hfinal hclaimable ⟨hd, hdue, by omega⟩

/-! ## Finish -/

omit [ContentDigest] in
/-- The row a presented lease holds. -/
theorem Dispatch.heldBy_iff {lease : OutboxLease} :
    d.heldBy lease = true ↔ d.outboxId = lease.outboxId ∧ d.state = .leased ∧
      d.leaseToken = some lease.leaseToken ∧ d.tenantScope = lease.tenantScope ∧
      d.dispatchId = lease.dispatchId ∧ d.taskId = lease.taskId ∧
      d.attemptCount = lease.attemptNo ∧ d.leaseOwner = some lease.leaseOwner ∧
      d.leaseUntil = some lease.leaseUntil := by
  simp only [Dispatch.heldBy, Bool.and_eq_true, beq_iff_eq, and_assoc]

/-- Finishing under the held lease closes the open attempt. -/
theorem finishAttempt_closes {lease : OutboxLease} {outcome : AttemptOutcome} {error : String}
    {next : Option Int} (hvalid : DispatchValid d now) (hheld : d.heldBy lease = true)
    (herror : error.utf8ByteSize ≤ 4096) :
    List.Forall₂ (AttemptRow.ClosesTo now) d.attempts
      (d.attempts.map (AttemptRow.finish lease.attemptNo lease.leaseToken outcome error next now)) := by
  obtain ⟨-, -, htoken, -, -, -, hnumber, -⟩ := Dispatch.heldBy_iff.mp hheld
  refine hvalid.attempts.closesTo_map ?_ ?_
  · intro attempt hclosed
    simp [AttemptRow.finish, hclosed]
  · intro attempt _ hopen hattempt htoken'
    have hsame : attempt.leaseToken = lease.leaseToken :=
      Option.some.inj (htoken'.symm.trans htoken)
    rw [AttemptRow.finish, if_pos ⟨hattempt.trans hnumber, hsame, hopen⟩]
    exact .closing outcome (some error) next hopen herror

/-- The presented lease holds the row, has time left, and no cancellation is pending. -/
structure FinishEnabled (d : Dispatch) (lease : OutboxLease) (now : Int) : Prop where
  held : d.heldBy lease = true
  live : now < lease.leaseUntil
  maxAttempts : d.maxAttempts = lease.maxAttempts
  unrequested : d.cancellationRequested = false

variable (cfg)

/-- What a successful finish of an attempt does. -/
inductive FinishEffect (lease : OutboxLease) (disposition : AttemptDisposition)
    (messageId : String) (now : Int) (s : Store) : TransitionOutcome → Store → Prop
  | stale (hfenced : ∀ d ∈ s.dispatches, d.heldBy lease = true →
      d.maxAttempts ≠ lease.maxAttempts ∨ lease.leaseUntil ≤ now ∨
        d.cancellationRequested = true) :
      FinishEffect lease disposition messageId now s .stale s
  | released (d : Dispatch) (token : String) (hfinish : FinishEnabled d lease now)
      (haccepted : d.receiverAccepted = true)
      (henabled : (Change.release d "receiver-reconciliation" token now).Enabled cfg now s) :
      FinishEffect lease disposition messageId now s .applied
        ((Change.release d "receiver-reconciliation" token now).run cfg now s)
  | retried (d : Dispatch) (attempts : List AttemptRow) (error : String) (availableAt : Int)
      (hfinish : FinishEnabled d lease now)
      (hretry : disposition.final (decide (d.maxAttempts ≤ d.attemptCount)) = false)
      (henabled : (Change.retry d attempts error availableAt).Enabled cfg now s) :
      FinishEffect lease disposition messageId now s .applied
        ((Change.retry d attempts error availableAt).run cfg now s)
  | deadLettered (row : TaskRow) (d : Dispatch) (attempts : List AttemptRow)
      (hfinish : FinishEnabled d lease now)
      (hdead : disposition.final (decide (d.maxAttempts ≤ d.attemptCount)) = true)
      (henabled : (Change.deadLetter row d attempts disposition.error messageId).Enabled cfg now
        s) :
      FinishEffect lease disposition messageId now s .deadLettered
        ((Change.deadLetter row d attempts disposition.error messageId).run cfg now s)

variable {cfg} {lease : OutboxLease} {disposition : AttemptDisposition}
  {outcome : TransitionOutcome}

/-- The dead letter of a held attempt. -/
theorem finish_deadLetter (cfg : Config) {failed : Store} {error : String} {next : Option Int}
    (hinv : Inv s now) (hd : d ∈ s.dispatches) (hheld : d.heldBy lease = true)
    (hunaccepted : d.inbox = none) (herror : error.utf8ByteSize ≤ 4096)
    (h : deadLetterTask lease.taskId lease.dispatchId error messageId now (s.putDispatch
      ((d.finishAttempt lease .dead error next now).settle .dead (some error) now)) = .ok failed) :
    ∃ row,
      let change := Change.deadLetter row d
        (d.attempts.map (AttemptRow.finish lease.attemptNo lease.leaseToken .dead error next now))
        error messageId
      change.Enabled cfg now s ∧ change.run cfg now s = failed := by
  obtain ⟨-, hleased, -, -, hdispatch, htask, -⟩ := Dispatch.heldBy_iff.mp hheld
  rw [← hdispatch, ← htask] at h
  cases hrow : s.taskRow? d.taskId with
  | none =>
    have hnone : (s.putDispatch ((d.finishAttempt lease .dead error next now).settle .dead
      (some error) now)).taskRow? d.taskId = none := hrow
    simp [deadLetterTask, hnone, expect, bind, Except.bind] at h
  | some row =>
    obtain ⟨hcoherent, hopen⟩ := working_of_leased hinv hd hleased hrow
    obtain ⟨hmem, hid⟩ := Store.taskRow?_eq_some hrow
    obtain ⟨-, -, hsize, -, hstream, hfailed⟩ := (deadLetterTask_eq_ok (s := s.putDispatch
      ((d.finishAttempt lease .dead error next now).settle .dead (some error) now)) hrow hopen).mp h
    have hrun : (Change.deadLetter row d (d.attempts.map (AttemptRow.finish lease.attemptNo
        lease.leaseToken .dead error next now)) error messageId).run cfg now s = failed := by
      rw [hfailed]
      refine Store.mk.injEq .. ▸ ⟨rfl, ?_, rfl, rfl⟩
      have hsame : SameIdentity d
          ((d.finishAttempt lease .dead error next now).settle .dead (some error) now) :=
        ⟨rfl, rfl, rfl, rfl, rfl, rfl⟩
      exact (deadLetter_put hinv.toKeysValid hd hsame hcoherent.tenant _ error).symm
    refine ⟨row, ⟨⟨⟨hmem, hd, hid⟩, hleased, hunaccepted, ?_, hsize⟩, hrun ▸ hstream⟩, hrun⟩
    exact finishAttempt_closes (hinv.dispatches d hd) hheld herror

theorem finishHeld_spec (hinv : Inv s now) (hd : d ∈ s.dispatches)
    (hfinish : FinishEnabled d lease now)
    (h : finishHeld d lease disposition now entropy messageId s = .ok (outcome, s')) :
    FinishEffect cfg lease disposition messageId now s outcome s' := by
  have hheld := hfinish.held
  obtain ⟨-, hleased, -⟩ := Dispatch.heldBy_iff.mp hheld
  have hvalid := hinv.dispatches d hd
  simp only [finishHeld] at h
  split at h
  case h_1 inbox hinbox =>
    -- the attempt would be dead, but the receiver has accepted it
    simp only [bind_eq_ok, require_eq_ok, ensureAtomicCapacity_eq_ok, exists_const,
      Except.ok.injEq, Prod.mk.injEq] at h
    obtain ⟨hdigest, -, rfl, rfl⟩ := h
    refine .released d _ hfinish ?_ ⟨hd, hleased, le_rfl⟩
    have hsome : d.inbox = some inbox := by
      split at hinbox
      · exact hinbox
      · cases hinbox
    simp [Dispatch.receiverAccepted, hsome, hdigest]
  case h_2 hinbox =>
    simp only [bind_eq_ok, require_eq_ok, exists_const] at h
    obtain ⟨herror, h⟩ := h
    split at h
    case isTrue hdead =>
      simp only [bind_eq_ok, ensureAtomicCapacity_eq_ok, exists_const, Except.ok.injEq,
        Prod.mk.injEq] at h
      obtain ⟨failed, hfailed, -, rfl, rfl⟩ := h
      rw [if_pos hdead] at hinbox
      obtain ⟨row, henabled, hrun⟩ := finish_deadLetter cfg hinv hd hheld hinbox herror hfailed
      rw [← hrun]
      exact .deadLettered row d _ hfinish hdead henabled
    case isFalse hdead =>
      simp only [bind_eq_ok, ensureAtomicCapacity_eq_ok, exists_const, Except.ok.injEq,
        Prod.mk.injEq] at h
      obtain ⟨-, rfl, rfl⟩ := h
      cases disposition with
      | permanent => simp [AttemptDisposition.final] at hdead
      | retry availableAt error =>
        have hcount : d.attemptCount < d.maxAttempts := by
          simpa [AttemptDisposition.final] using hdead
        exact .retried d _ error availableAt hfinish (by simpa using hdead)
          ⟨hd, hleased, hcount, hfinish.unrequested, finishAttempt_closes hvalid hheld herror, herror⟩

/-- A lease holds at most one row. -/
theorem Inv.heldBy_unique {x : Dispatch} (hinv : Inv s now)
    (hx : x ∈ s.dispatches) (hd : d ∈ s.dispatches) (hx' : x.heldBy lease = true)
    (hheld : d.heldBy lease = true) : x = d :=
  hinv.outboxIds.eq_of_key hx hd
    ((Dispatch.heldBy_iff.mp hx').1.trans (Dispatch.heldBy_iff.mp hheld).1.symm)

/-- What ending an attempt does. -/
theorem finishOutboxAttempt_spec (cfg : Config) (hinv : Inv s now)
    (h : finishOutboxAttempt lease disposition now entropy messageId s = .ok (outcome, s')) :
    FinishEffect cfg lease disposition messageId now s outcome s' := by
  unfold finishOutboxAttempt at h
  split at h
  case h_1 hnone =>
    obtain ⟨rfl, rfl⟩ := Prod.mk.inj (Except.ok.inj h)
    exact .stale fun d hd hheld => absurd hheld (by simpa using List.find?_eq_none.mp hnone d hd)
  case h_2 d hfind =>
    have hd := List.mem_of_find?_eq_some hfind
    have hheld : d.heldBy lease = true := by simpa using List.find?_some hfind
    have hunique : ∀ x ∈ s.dispatches, x.heldBy lease = true → x = d :=
      fun x hx hx' => hinv.heldBy_unique hx hd hx' hheld
    split at h
    case isTrue hstale =>
      obtain ⟨rfl, rfl⟩ := Prod.mk.inj (Except.ok.inj h)
      refine .stale fun x hx hx' => ?_
      rw [hunique x hx hx']
      exact hstale.imp_right .inl
    case isFalse hfenced =>
      split at h
      case isTrue hrequested =>
        obtain ⟨rfl, rfl⟩ := Prod.mk.inj (Except.ok.inj h)
        refine .stale fun x hx hx' => ?_
        rw [hunique x hx hx']
        exact .inr (.inr hrequested)
      case isFalse hrequested =>
        simp only [not_or, not_not, not_le] at hfenced
        exact finishHeld_spec hinv hd
          ⟨hheld, hfenced.2, hfenced.1, by simpa using hrequested⟩ h

end Refine

end SmeshDurable
