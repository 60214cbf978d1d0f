import SmeshDurable.Protocol.ColumnRuns

/-!
# Outstanding work, and what a restart does to it

A task that is not yet closed has one dispatch outstanding, the one its current revision
caused; nothing in the schema says so. A restart fails only tasks whose last attempt nobody
accepted, and a second recovery at the same time finds nothing left to do.
-/

namespace SmeshDurable

open Transaction Relation

variable {now : Int} {d : Dispatch}

theorem Dispatch.voidLeases_voidLeases :
    (d.voidLeases now).voidLeases now = d.voidLeases now := by
  have hinbox : (d.inbox.map (InboxRow.voidLease now)).map (InboxRow.voidLease now) =
      d.inbox.map (InboxRow.voidLease now) := by
    cases d.inbox with
    | none => rfl
    | some inbox => cases hstate : inbox.state <;> simp [InboxRow.voidLease, hstate]
  rw [Dispatch.voidLeases, receiverAccepted_voidLeases]
  unfold Dispatch.voidLeases
  dsimp only
  split <;> simp_all

/-- Recovery has nothing to do for the dispatch. -/
def Dispatch.Recovered (d : Dispatch) (now : Int) : Prop :=
  d.voidLeases now = d ∧ d.abandon now = d

theorem Dispatch.abandon_recovered (h : d.voidLeases now = d) :
    (d.abandon now).Recovered now := by
  by_cases hleased : d.state = .leased ∧ d.receiverAccepted = false
  · rw [Dispatch.voidLeases, if_neg (by simp [hleased])] at h
    have hinbox : d.inbox.map (InboxRow.voidLease now) = d.inbox := congrArg Dispatch.inbox h
    rw [Dispatch.abandon, if_pos hleased]
    constructor
    · unfold Dispatch.voidLeases
      simp [Dispatch.settle, Dispatch.closeAttempts, hinbox]
    · simp [Dispatch.abandon, Dispatch.settle]
  · rw [Dispatch.abandon, if_neg hleased]
    exact ⟨h, if_neg hleased⟩

/-- A lease that is left is the void one of a dispatch its receiver has accepted. -/
theorem Dispatch.Recovered.leased (h : d.Recovered now) (hleased : d.state = .leased) :
    d.receiverAccepted = true ∧ d.leaseUntil = some 0 := by
  have haccepted : d.receiverAccepted = true := by
    by_contra hnot
    have hstate := congrArg Dispatch.state h.2
    rw [Dispatch.abandon, if_pos ⟨hleased, Bool.eq_false_iff.mpr hnot⟩, hleased] at hstate
    cases hstate
  have huntil := congrArg Dispatch.leaseUntil h.1
  rw [Dispatch.voidLeases, if_pos ⟨hleased, haccepted⟩] at huntil
  exact ⟨haccepted, huntil.symm⟩

section

variable [ContentDigest] {cfg : Config} {s s' : Store} {t : Int} {row : TaskRow}
  {choices : RecoveryChoices}

/-- In every reachable state the submitted and working tasks are those with an outstanding
dispatch. It is the only one of the task, and the one caused by the current revision; a task
that waits for its client has a delivered one. -/
theorem outstanding_dispatch_exact (h : Reachable cfg s now) (hrow : row ∈ s.tasks) :
    (row.task.status.state = .submitted ∨ row.task.status.state = .working ↔
      ∃ d ∈ s.dispatches, d.taskId = row.task.id ∧ d.active = true) ∧
    (∀ d ∈ s.dispatches, ∀ d' ∈ s.dispatches, d.taskId = row.task.id → d'.taskId = row.task.id →
      d.active = true → d'.active = true → d' = d) ∧
    (∀ d ∈ s.dispatches, d.taskId = row.task.id →
      d.causativeRevision ≤ row.revision ∧
        (d.active = true ↔ d.causativeRevision = row.revision)) ∧
    (row.task.status.state.isTerminal = true ∨
      (row.task.status.state = .submitted ∨ row.task.status.state = .working) ∨
      (row.task.status.state = .inputRequired ∨ row.task.status.state = .authRequired) ∧
        ∃ d ∈ s.dispatches, d.taskId = row.task.id ∧ d.state = .delivered) := by
  have hinv := h.inv
  have hcoherent : ∀ d ∈ s.dispatches, d.taskId = row.task.id → Coherent row d :=
    fun d hd htask => hinv.coherent_of_taskId hd hrow htask.symm
  refine ⟨⟨fun hopen => ?_, ?_⟩, fun d hd d' hd' htask htask' hactive hactive' =>
    hinv.active_unique hd' hd (htask'.trans htask.symm) hactive' hactive, fun d hd htask => ?_, ?_⟩
  · have hterminal : row.task.status.state.isTerminal = false := by
      rcases hopen with hopen | hopen <;> rw [hopen] <;> rfl
    obtain ⟨d, hd, htask, hserves⟩ := hinv.served row hrow hterminal
    have hactive : d.active = true := hserves.resolve_right fun hwaits => by
      rcases hopen with hopen | hopen <;> simp [hopen] at hwaits
    exact ⟨d, hd, htask, hactive⟩
  · rintro ⟨d, hd, htask, hactive⟩
    exact (hcoherent d hd htask).working hactive
  · exact ⟨(hcoherent d hd htask).causative_le, (hcoherent d hd htask).current⟩
  · cases hterminal : row.task.status.state.isTerminal with
    | true => exact .inl rfl
    | false =>
      obtain ⟨d, hd, htask, hactive | ⟨hdelivered, hwaits⟩⟩ := hinv.served row hrow hterminal
      · exact .inr (.inl ((hcoherent d hd htask).working hactive))
      · exact .inr (.inr ⟨hwaits, d, hd, htask, hdelivered⟩)

/-! ## Recovery -/

/-- What the first loop does: it dead-letters abandoned final attempts, and fails their tasks
only. -/
theorem recoverExpiredFinals_rows (cfg : Config) {outboxIds : List Nat} (hinv : Inv s now)
    (h : recoverAll (recoverExpiredFinal choices now) outboxIds s = .ok s') :
    (∀ d ∈ s'.dispatches, d ∈ s.dispatches ∨ d.state = .dead ∧ d.inbox = none) ∧
    ∀ row ∈ s.tasks, row ∈ s'.tasks ∨
      ∃ d ∈ s.dispatches, d.taskId = row.task.id ∧ d.abandonedFinal := by
  induction outboxIds generalizing s with
  | nil =>
    obtain rfl := Except.ok.inj h
    exact ⟨fun d hd => .inl hd, fun row hrow => .inl hrow⟩
  | cons outboxId rest ih =>
    simp only [recoverAll, bind_eq_ok] at h
    obtain ⟨middle, hstep, hrest⟩ := h
    obtain ⟨hchanges, hleft⟩ : ReflTransGen (OrdinaryChanges cfg now) s middle ∧ _ :=
      recoverExpiredFinal_progress hinv hstep
    obtain ⟨hmem, hrows⟩ := ih (hinv.changes (OrdinaryChanges.changes hchanges)) hrest
    rcases recoverExpiredFinal_spec cfg hinv hstep with ⟨rfl, -⟩ |
      ⟨row₀, d₀, attempts, rfl, hfinal, ⟨hc, -⟩, rfl⟩
    · exact ⟨hmem, hrows⟩
    · refine ⟨fun d hd => ?_, fun row hrow => ?_⟩
      · rcases hmem d hd with hd | hdead
        · rcases Store.mem_commit hd hc.mem_dispatches rfl with rfl | ⟨hd, -⟩
          · exact .inr ⟨rfl, hc.unaccepted⟩
          · exact .inl hd
        · exact .inr hdead
      · by_cases hsame : row.task.id = row₀.task.id
        · exact .inr ⟨d₀, hc.mem_dispatches, (hsame.trans hc.taskId_eq).symm, hfinal⟩
        · refine (hrows row (Store.mem_tasks_commit_of_ne hrow hsame)).imp_right ?_
          rintro ⟨d, hd, htask, hd'⟩
          exact ⟨d, (hleft d hd hd').1, htask, hd'⟩

/-- Recovery leaves a store as it is that needs none. -/
theorem recoverOrphanedTasks_eq (hinv : Inv s now) (hcapacity : ensureAtomicCapacity s = .ok ())
    (hdone : ∀ d ∈ s.dispatches, d.Recovered now) :
    recoverOrphanedTasks choices now s = .ok s := by
  have hmap : ∀ f : Dispatch → Dispatch, (∀ d ∈ s.dispatches, f d = d) →
      { s with dispatches := s.dispatches.map f } = s := fun f hf => by
    rw [List.map_congr_left hf, List.map_id']
  have hfinal : ∀ id, recoverExpiredFinal choices now s id = .ok s := by
    intro id
    unfold recoverExpiredFinal
    split
    · rfl
    next d hget =>
      have hleased := (hdone d (Keyed.mem_of_get? hget)).leased
      exact if_neg fun hfinal => by simp [hleased hfinal.1] at hfinal
  simp only [recoverOrphanedTasks, hmap _ fun d hd => (hdone d hd).1, bind_eq_ok, require_eq_ok]
  refine ⟨s, recoverAll_eq hfinal _, s, recoverAll_eq (fun _ => recoverDelivered_eq hinv) _, ?_⟩
  rw [hmap _ fun d hd => (hdone d hd).2]
  exact ⟨s, recoverAll_eq (fun _ => recoverOrphan_eq hinv) _, (), hcapacity, rfl⟩

/-- A successful recovery at any time after the last write keeps the row of every task, but for
those whose last attempt was leased and not accepted by a receiver. The leases that are left
belong to accepted dispatches and have run out, and a second recovery at the same time changes
nothing. -/
theorem recovery_fails_abandoned_once (h : Reachable cfg s t) (ht : t ≤ now)
    (hok : recoverOrphanedTasks choices now s = .ok s') :
    (∀ row ∈ s.tasks, row ∈ s'.tasks ∨
      ∃ d ∈ s.dispatches, d.taskId = row.task.id ∧ d.abandonedFinal) ∧
    (∀ d ∈ s'.dispatches, d.state = .leased →
      d.receiverAccepted = true ∧ d.leaseUntil = some 0) ∧
    ∀ choices', recoverOrphanedTasks choices' now s' = .ok s' := by
  have hinv := h.inv.mono ht
  have hcapacity : ensureAtomicCapacity s' = .ok () := by
    simp only [recoverOrphanedTasks, bind_eq_ok, require_eq_ok] at hok
    obtain ⟨-, -, -, -, recovered, -, -, hcapacity, heq⟩ := hok
    rwa [← Except.ok.inj heq]
  obtain ⟨finals, hfinals, habandon, rfl⟩ := recoverOrphanedTasks_steps cfg hinv hok
  have hvoided := Change.voidLeases_inv hinv
  obtain ⟨hmem, hrows⟩ := recoverExpiredFinals_rows cfg hvoided hfinals
  obtain ⟨hchanges, -⟩ := recoverExpiredFinals_spec cfg hvoided hfinals
  have hinv' := hvoided.changes (OrdinaryChanges.changes hchanges)
  have hdone : ∀ d ∈ (Change.abandon.run cfg now finals).dispatches, d.Recovered now := by
    intro d hd
    obtain ⟨x, hx, rfl⟩ := List.mem_map.mp hd
    refine Dispatch.abandon_recovered ?_
    rcases hmem x hx with hx | ⟨hdead, hnone⟩
    · obtain ⟨y, -, rfl⟩ := List.mem_map.mp hx
      exact Dispatch.voidLeases_voidLeases
    · rw [Dispatch.voidLeases, if_neg (by simp [hdead]), hnone, Option.map_none, ← hnone]
  refine ⟨fun row hrow => (hrows row hrow).imp_right ?_, fun d hd => (hdone d hd).leased,
    fun choices' => recoverOrphanedTasks_eq (Change.abandon_inv hinv' habandon) hcapacity hdone⟩
  rintro ⟨x, hx, htask, hfinal⟩
  obtain ⟨d, hd, rfl⟩ := List.mem_map.mp hx
  exact ⟨d, hd, d.voidLeases_identity.taskId ▸ htask, Dispatch.abandonedFinal_voidLeases.mp hfinal⟩

end

attribute [local instance] checksumDigest

/-- The sample dispatch claimed a second time, for its last attempt. -/
def sampleSpent : Store := sampleStore (sampleClaimed false ++ [.claimOutbox "worker" 12 10 [] "d"])

theorem sampleSpent_reachable : Reachable sampleConfig sampleSpent 12 :=
  sampleStore_reachable _ 12 (by decide) rfl

theorem sampleSpent_outstanding : ∃ row ∈ sampleSpent.tasks,
    ∃! d, d ∈ sampleSpent.dispatches ∧ d.taskId = row.task.id ∧ d.active = true := by
  have hopen : (sampleSpent.tasks.any fun row => row.task.status.state == .submitted) = true := by
    decide +kernel
  obtain ⟨row, hrow, hstate⟩ := List.any_eq_true.mp hopen
  obtain ⟨hsome, honly, -⟩ := outstanding_dispatch_exact sampleSpent_reachable hrow
  obtain ⟨d, hd, htask, hactive⟩ := hsome.mp (.inl (beq_iff_eq.mp hstate))
  exact ⟨row, hrow, d, ⟨hd, htask, hactive⟩, fun d' ⟨hd', htask', hactive'⟩ =>
    honly d hd d' hd' htask htask' hactive hactive'⟩

theorem sampleSpent_recovers_once :
    (sampleSpent.dispatches.any fun d => d.abandonedFinal) = true ∧
    ∃ s', recoverOrphanedTasks ⟨.ofMillis 20, fun _ => "r"⟩ 20 sampleSpent = .ok s' ∧
      ∀ choices, recoverOrphanedTasks choices 20 s' = .ok s' := by
  have hok : (recoverOrphanedTasks ⟨.ofMillis 20, fun _ => "r"⟩ 20 sampleSpent).toOption.isSome =
      true := by decide +kernel
  obtain ⟨s', hs'⟩ := Option.isSome_iff_exists.mp hok
  have hrecovered := toOption_eq_some hs'
  exact ⟨by decide +kernel, s', hrecovered,
    (recovery_fails_abandoned_once sampleSpent_reachable (by decide) hrecovered).2.2⟩

end SmeshDurable
