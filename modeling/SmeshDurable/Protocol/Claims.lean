import SmeshDurable.Protocol.Acceptance

/-!
# Work conservation of claims

A claim first reconciles one expired lease that needs no new attempt and only then looks for
work. When that lease belongs to a dispatch whose receiver is still at work, the claim ends
there, and dispatches of other tasks wait although they are due.
-/

namespace SmeshDurable

open Transaction

/-- Work a claim could hand out: queued and due, or leased under a lease that ran out with no
receiver at work, and attempts left. -/
def Dispatch.due (d : Dispatch) (now : Int) : Bool :=
  ((d.state == .pending && d.availableAt ≤ now) ||
      (d.leaseExpired now && !d.inbox.any fun inbox => inbox.live now)) &&
    d.attemptCount < d.maxAttempts

/-- The expired lease a claim would reconcile belongs to a receiver that is still at work. -/
def Store.claimBlocked (s : Store) (now : Int) : Bool :=
  (expiredFinal? s now).any fun d => d.inbox.any fun inbox => inbox.live now

/-- There is no expired lease to reconcile, or nobody accepted its dispatch, or its receiver is
idle and attempts are left. -/
def Store.claimServes (s : Store) (now : Int) : Bool :=
  (expiredFinal? s now).all fun d => d.inbox.all fun inbox =>
    !inbox.live now && d.attemptCount < d.maxAttempts

section

variable [ContentDigest] {cfg : Config} {s s' : Store} {now t : Int} {d : Dispatch}

omit [ContentDigest] in
theorem Dispatch.claimable_of_due (hdue : d.due now = true) : d.claimable now = true := by
  simp only [Dispatch.due, Dispatch.claimable, Bool.and_eq_true, Bool.or_eq_true] at hdue ⊢
  exact ⟨hdue.1.imp_right And.left, hdue.2⟩

omit [ContentDigest] in
/-- Where work is due, there is a row for a new attempt. -/
theorem claimable?_of_due (hd : d ∈ s.dispatches) (hdue : d.due now = true) :
    claimable? s now ≠ none := by
  intro hnone
  have hmem : d ∈ s.dispatches.filter fun d => d.claimable now :=
    List.mem_filter.mpr ⟨hd, Dispatch.claimable_of_due hdue⟩
  rw [Keyed.first?_eq_none.mp hnone] at hmem
  cases hmem

/-- Without an expired lease to reconcile, a claimable row is due. -/
theorem due_of_claimable (hvalid : DispatchValid d now) (hnone : expiredFinal? s now = none)
    (hd : d ∈ s.dispatches) (hclaimable : d.claimable now = true) : d.due now = true := by
  simp only [Dispatch.due, Dispatch.claimable, Bool.and_eq_true, Bool.or_eq_true] at hclaimable ⊢
  refine ⟨hclaimable.1.imp_right fun hexpired => ⟨hexpired, ?_⟩, hclaimable.2⟩
  -- an accepted row with an expired lease would be reconciled first
  cases hinbox : d.inbox with
  | none => rfl
  | some inbox =>
    have haccepted := Dispatch.receiverAccepted_iff.mpr
      ⟨inbox, hinbox, (hvalid.inbox inbox hinbox).payloadDigest⟩
    have hmem : d ∈ s.dispatches.filter fun d =>
        d.leaseExpired now && (d.maxAttempts ≤ d.attemptCount || d.receiverAccepted) := by
      simp [List.mem_filter, hd, hexpired, haccepted]
    rw [Keyed.first?_eq_none.mp hnone] at hmem
    cases hmem

/-- The claim handed out a due row or dead-lettered one. -/
def ServesWork (s : Store) (now : Int) (claimed : Option OutboxLease) (s' : Store) : Prop :=
  (∃ lease, claimed = some lease ∧ ∃ d ∈ s.dispatches, d.due now = true ∧
      lease.outboxId = d.outboxId) ∨
    (claimed = none ∧ ∃ d ∈ s.dispatches, d.state ≠ .dead ∧
      ∃ d' ∈ s'.dispatches, d'.outboxId = d.outboxId ∧ d'.state = .dead)

variable {owner messageId : String} {duration : Int} {entropy : List UInt8}
  {claimed : Option OutboxLease}

/-- A store does not dead-letter a row against itself. -/
theorem Inv.not_servesWork_self (hinv : Inv s now) : ¬ ServesWork s now none s := by
  rintro (⟨lease, hnone, -⟩ | ⟨-, d, hd, halive, d', hd', hid, hdead⟩)
  · cases hnone
  · exact halive (hinv.outboxIds.eq_of_key hd' hd hid ▸ hdead)

theorem released_serves_iff {x : Dispatch} {token : String} {leaseUntil : Int} (hinv : Inv s now)
    (hfirst : expiredFinal? s now = some x) (haccepted : x.receiverAccepted = true)
    (hidle : ∀ inbox ∈ x.inbox, inbox.live now = false) :
    ServesWork s now (some (x.leaseView owner token leaseUntil)) s' ↔
      s.claimServes now = true := by
  obtain ⟨hx, hexpired, -⟩ := expiredFinal?_eq_some hfirst
  obtain ⟨inbox, hinbox, -⟩ := Dispatch.receiverAccepted_iff.mp haccepted
  have hserves : s.claimServes now = true ↔ x.attemptCount < x.maxAttempts := by
    simp [Store.claimServes, hfirst, hinbox, hidle inbox hinbox]
  have hleased := Dispatch.leased_of_leaseExpired hexpired
  have hdue : x.due now = true ↔ x.attemptCount < x.maxAttempts := by
    simp [Dispatch.due, hexpired, hinbox, hidle inbox hinbox]
  rw [hserves, ← hdue]
  constructor
  · rintro (⟨lease, hlease, d, hd, hd', hid⟩ | ⟨hnone, -⟩)
    · obtain rfl := Option.some.inj hlease
      exact hinv.outboxIds.eq_of_key hx hd hid ▸ hd'
    · cases hnone
  · intro hx'
    exact .inl ⟨_, rfl, x, hx, hx', rfl⟩

/-- What a claim does where work is due. -/
theorem claim_effect_iff (hinv : Inv s now) (hd : d ∈ s.dispatches) (hdue : d.due now = true)
    (heffect : ClaimEffect cfg messageId now s claimed s') :
    (ServesWork s now claimed s' ↔ s.claimServes now = true) ∧
      ((claimed = none ∧ s' = s) ↔ s.claimBlocked now = true) := by
  cases heffect with
  | busy x inbox hfirst hinbox hlive =>
    have hserves : s.claimServes now = false := by
      simp [Store.claimServes, hfirst, hinbox, hlive]
    have hblocked : s.claimBlocked now = true := by
      simp [Store.claimBlocked, hfirst, hinbox, hlive]
    simp [hserves, hblocked, hinv.not_servesWork_self]
  | idle hfinal hnone => exact absurd hnone (claimable?_of_due hd hdue)
  | leased x owner token leaseUntil hfinal hfirst henabled =>
    have hserves : s.claimServes now = true := by simp [Store.claimServes, hfinal]
    have hblocked : s.claimBlocked now = false := by simp [Store.claimBlocked, hfinal]
    have hx := due_of_claimable (hinv.dispatches x henabled.1) hfinal henabled.1 henabled.2.1
    simp only [hserves, hblocked, reduceCtorEq, false_and, Bool.false_eq_true, iff_true, and_true]
    exact .inl ⟨_, rfl, x, henabled.1, hx, rfl⟩
  | released x owner token leaseUntil hfirst haccepted hidle henabled =>
    have hblocked : s.claimBlocked now = false := by
      obtain ⟨inbox, hinbox, -⟩ := Dispatch.receiverAccepted_iff.mp haccepted
      simp [Store.claimBlocked, hfirst, hinbox, hidle inbox hinbox]
    refine ⟨released_serves_iff hinv hfirst haccepted hidle, ?_⟩
    simp [hblocked]
  | deadLettered row x attempts hfirst henabled =>
    have hc := henabled.1
    have hserves : s.claimServes now = true := by
      simp [Store.claimServes, hfirst, hc.unaccepted]
    have hblocked : s.claimBlocked now = false := by
      simp [Store.claimBlocked, hfirst, hc.unaccepted]
    have hdead : ServesWork s now none ((Change.deadLetter row x attempts expiredFinalError
        messageId).run cfg now s) :=
      .inr ⟨rfl, x, hc.mem_dispatches, by simp [hc.leased],
        _, Store.mem_putDispatch_self hc.mem_dispatches (by rfl), rfl, rfl⟩
    simp only [hserves, hdead, hblocked, true_and, Bool.false_eq_true, iff_false]
    intro hsame
    rw [hsame] at hdead
    exact hinv.not_servesWork_self hdead

/-- In every reachable state with a due row: a claim hands out a due row or dead-letters one
exactly if the store accepts it and the first expired lease to reconcile, if there is one, was
not accepted or has an idle receiver and attempts left; and it returns nothing and changes
nothing exactly if the store accepts it and that lease's receiver is at work. -/
theorem claim_conserves_work_iff (h : Reachable cfg s t) (htime : t ≤ now)
    (hd : d ∈ s.dispatches) (hdue : d.due now = true) :
    ((∃ claimed s', claimOutbox owner now duration entropy messageId s = .ok (claimed, s') ∧
        ServesWork s now claimed s') ↔
      s.acceptsClaim owner now duration entropy messageId = true ∧
        s.claimServes now = true) ∧
    (claimOutbox owner now duration entropy messageId s = .ok (none, s) ↔
      s.acceptsClaim owner now duration entropy messageId = true ∧
        s.claimBlocked now = true) := by
  have hinv := (ReachableBy.inv h).mono htime
  rw [← claimOutbox_ok_iff cfg hinv]
  cases hclaim : claimOutbox owner now duration entropy messageId s with
  | error e => simp
  | ok result =>
      obtain ⟨claimed, s'⟩ := result
      obtain ⟨hserves, hblocked⟩ := claim_effect_iff hinv hd hdue (claimOutbox_spec cfg hinv hclaim)
      simp only [Except.ok.injEq, Prod.mk.injEq, exists_eq', true_and]
      refine ⟨?_, hblocked⟩
      rw [← hserves]
      constructor
      · rintro ⟨_, _, ⟨rfl, rfl⟩, hwork⟩
        exact hwork
      · intro hwork
        exact ⟨claimed, s', ⟨rfl, rfl⟩, hwork⟩

end

/-! ## A dispatch that waits for another task's receiver -/

attribute [local instance] checksumDigest

/-- At instant 20 the receiver of the first task is idle, and the claim serves a due row. -/
theorem sampleIdle_claim_serves :
    ∃ claimed s', claimOutbox "worker" 20 10 [] "dead-2" (sampleStore (sampleBusy 8)) =
        .ok (claimed, s') ∧ ServesWork (sampleStore (sampleBusy 8)) 20 claimed s' := by
  have hreachable := sampleStore_reachable (sampleBusy 8) 3 (by decide) rfl
  have hwork : ((sampleStore (sampleBusy 8)).dispatches.any fun d => d.due 20) = true ∧
      (sampleStore (sampleBusy 8)).acceptsClaim "worker" 20 10 [] "dead-2" = true ∧
      (sampleStore (sampleBusy 8)).claimServes 20 = true := by decide +kernel
  obtain ⟨hany, haccepted⟩ := hwork
  obtain ⟨d, hd, hdue⟩ := List.any_eq_true.mp hany
  exact (claim_conserves_work_iff hreachable (by decide) hd hdue).1.mpr haccepted

/-- At instant 20 the second task is due, but the lease of the first has run out while its
receiver is still at work, and the claim returns nothing. -/
theorem busy_receiver_blocks_other_task :
    Reachable sampleConfig (sampleStore (sampleBusy 100)) 3 ∧
      ((sampleStore (sampleBusy 100)).dispatches.any fun d => d.taskId == "t-2" && d.due 20) =
        true ∧
      claimOutbox "worker" 20 10 [] "dead-2" (sampleStore (sampleBusy 100)) =
        .ok (none, sampleStore (sampleBusy 100)) := by
  refine ⟨sampleStore_reachable (sampleBusy 100) 3 (by decide) rfl, ?_⟩
  decide +kernel

end SmeshDurable
