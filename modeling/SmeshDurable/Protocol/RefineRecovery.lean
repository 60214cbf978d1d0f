import SmeshDurable.Protocol.RefineStream

/-!
# Recovery as a sequence of changes

Recovery voids the leases of the prior process, dead-letters the final attempts nobody
accepted, and returns the other unaccepted leases to the queue. Its two other loops look
for delivered dispatches whose task never moved and for tasks that no dispatch serves;
the invariant says that there are none.
-/

namespace SmeshDurable

open Transaction Relation

variable [ContentDigest] {cfg : Config} {s s' : Store} {now : Int} {d : Dispatch} {row : TaskRow}
  {choices : RecoveryChoices}

/-- The lease of a spent attempt that nobody accepted. -/
def Dispatch.abandonedFinal (d : Dispatch) : Prop :=
  d.state = .leased ∧ d.maxAttempts ≤ d.attemptCount ∧ d.receiverAccepted = false

instance (d : Dispatch) : Decidable d.abandonedFinal :=
  inferInstanceAs (Decidable (d.state = .leased ∧ d.maxAttempts ≤ d.attemptCount ∧
    d.receiverAccepted = false))

theorem DispatchValid.inbox_eq_none (hvalid : DispatchValid d now)
    (h : d.receiverAccepted = false) : d.inbox = none := by
  cases hinbox : d.inbox with
  | none => rfl
  | some inbox =>
    simp [Dispatch.receiverAccepted, hinbox, (hvalid.inbox inbox hinbox).payloadDigest] at h

theorem DispatchValid.receiverAccepted_iff (hvalid : DispatchValid d now) :
    d.receiverAccepted = true ↔ d.inbox.isSome = true := by
  constructor
  · intro haccepted
    by_contra hnone
    have hinbox : d.inbox = none := by simpa using hnone
    simp [Dispatch.receiverAccepted, hinbox] at haccepted
  · intro hsome
    by_contra haccepted
    rw [hvalid.inbox_eq_none (Bool.eq_false_iff.mpr haccepted)] at hsome
    cases hsome

/-- One turn of the first loop: the row it looks at is no abandoned final attempt, or it is
dead-lettered. -/
theorem recoverExpiredFinal_spec (cfg : Config) {outboxId : Nat} (hinv : Inv s now)
    (h : recoverExpiredFinal choices now s outboxId = .ok s') :
    (s' = s ∧ ∀ x ∈ s.dispatches, x.abandonedFinal → x.outboxId ≠ outboxId) ∨
      ∃ row d attempts, d.outboxId = outboxId ∧ d.abandonedFinal ∧
        (Change.deadLetter row d attempts abandonedFinalError
          (choices.messageId d.taskId)).Enabled cfg now s ∧
        s' = (Change.deadLetter row d attempts abandonedFinalError
          (choices.messageId d.taskId)).run cfg now s := by
  unfold recoverExpiredFinal at h
  split at h
  case h_1 hnone =>
    obtain rfl := Except.ok.inj h
    exact .inl ⟨rfl, fun x hx _ => Keyed.get?_eq_none.mp hnone x hx⟩
  case h_2 d hget =>
    have hd := Keyed.mem_of_get? hget
    have hkey := Keyed.key_of_get? hget
    split at h
    case isFalse hkept =>
      obtain rfl := Except.ok.inj h
      refine .inl ⟨rfl, fun x hx hfinal hid => hkept ?_⟩
      rw [← hinv.outboxIds.eq_of_key hx hd (hid.trans hkey.symm)]
      exact hfinal
    case isTrue hfinal =>
      have hleased := hfinal.1
      simp only [bind_eq_ok, expect_eq_ok, Except.ok.injEq] at h
      obtain ⟨row, hrow, failed, hfailed, hstore⟩ := h
      have hok : deadLetterTask d.taskId d.dispatchId abandonedFinalError
          (choices.messageId d.taskId) now
          (s.putDispatch (d.closeAttempts .dead (some abandonedFinalError) now)) =
          .ok failed := by
        unfold asInitialization at hfailed
        split at hfailed
        case h_1 hok => rw [hok, Except.ok.inj hfailed]
        case h_2 => cases hfailed
      have hinbox := (hinv.dispatches d hd).inbox_eq_none hfinal.2.2
      obtain ⟨-, hopen⟩ := working_of_leased hinv hd hleased hrow
      obtain ⟨henabled, hrun⟩ := expired_deadLetter cfg hinv hd hleased hinbox hrow
        (by decide) hok
      simp only [hopen, Bool.false_eq_true, if_false, ← hkey] at hstore
      exact .inr ⟨row, d, _, hkey, hfinal, henabled, hstore.symm.trans hrun.symm⟩

/-- After a turn the row it looked at is no abandoned final attempt any more, and the others
are as they were. -/
theorem recoverExpiredFinal_progress {outboxId : Nat} (hinv : Inv s now)
    (h : recoverExpiredFinal choices now s outboxId = .ok s') :
    ReflTransGen (OrdinaryChanges cfg now) s s' ∧
      ∀ x ∈ s'.dispatches, x.abandonedFinal → x ∈ s.dispatches ∧ x.outboxId ≠ outboxId := by
  rcases recoverExpiredFinal_spec cfg hinv h with ⟨rfl, hnone⟩ |
    ⟨row, d, attempts, rfl, -, henabled, rfl⟩
  · exact ⟨.refl, fun x hx hfinal => ⟨hx, hnone x hx hfinal⟩⟩
  · refine ⟨.single ⟨_, rfl, henabled, rfl⟩, fun x hx hfinal => ?_⟩
    rcases Store.mem_commit hx henabled.1.mem_dispatches rfl with rfl | ⟨hx, hne⟩
    · cases hfinal.1
    · exact ⟨hx, hne⟩

theorem recoverExpiredFinals_spec (cfg : Config) {outboxIds : List Nat} (hinv : Inv s now)
    (h : recoverAll (recoverExpiredFinal choices now) outboxIds s = .ok s') :
    ReflTransGen (OrdinaryChanges cfg now) s s' ∧
      ∀ x ∈ s'.dispatches, x.abandonedFinal → x ∈ s.dispatches ∧ x.outboxId ∉ outboxIds := by
  induction outboxIds generalizing s with
  | nil =>
    obtain rfl := Except.ok.inj h
    exact ⟨.refl, fun x hx _ => ⟨hx, by simp⟩⟩
  | cons outboxId rest ih =>
    simp only [recoverAll, bind_eq_ok] at h
    obtain ⟨middle, hstep, hrest⟩ := h
    obtain ⟨hchanges, hfinal⟩ := recoverExpiredFinal_progress hinv hstep
    obtain ⟨hchanges', hfinal'⟩ := ih (hinv.changes (OrdinaryChanges.changes hchanges)) hrest
    refine ⟨hchanges.trans hchanges', fun x hx hx' => ?_⟩
    obtain ⟨hmiddle, hnotin⟩ := hfinal' x hx hx'
    obtain ⟨hs, hne⟩ := hfinal x hmiddle hx'
    exact ⟨hs, by simp [hne, hnotin]⟩

/-- The second loop finds nothing: a delivered dispatch has moved its task. -/
theorem recoverDelivered_eq {outboxId : Nat} (hinv : Inv s now) :
    recoverDelivered choices now s outboxId = .ok s := by
  unfold recoverDelivered
  split
  case h_1 => rfl
  case h_2 d hget =>
    split
    case h_1 => rfl
    case h_2 row hrow =>
      rw [if_neg]
      rintro ⟨hdelivered, hcurrent, -⟩
      obtain ⟨hmem, hid⟩ := Store.taskRow?_eq_some hrow
      have hcoherent := hinv.coherent_of_taskId (Keyed.mem_of_get? hget) hmem hid
      have hactive := hcoherent.current.mpr hcurrent
      simp [Dispatch.active, hdelivered] at hactive

/-- The third loop finds nothing: an unfinished task is served by a live dispatch. -/
theorem recoverOrphan_eq {taskId : String} (hinv : Inv s now) :
    recoverOrphan choices now s taskId = .ok s := by
  unfold recoverOrphan
  split
  case h_1 => rfl
  case h_2 row hrow =>
    rw [if_neg]
    rintro ⟨hopen, horphan⟩
    obtain ⟨hmem, rfl⟩ := Store.taskRow?_eq_some hrow
    obtain ⟨d, hd, htask, hserves⟩ := hinv.served row hmem hopen
    have hlive : s.hasLiveDispatch row.task.id = true := by
      rw [Store.hasLiveDispatch, List.any_eq_true]
      refine ⟨d, hd, ?_⟩
      rcases hserves with hactive | ⟨hdelivered, -⟩
      · rcases Dispatch.active_iff.mp hactive with hstate | hstate <;>
          simp [htask, hstate, OutboxState.cancelable]
      · simp [htask, hdelivered, OutboxState.cancelable]
    rw [hlive] at horphan
    cases horphan

omit [ContentDigest] in
theorem recoverAll_eq {Key : Type} {step : Store → Key → Except SqliteStoreError Store}
    (hstep : ∀ key, step s key = .ok s) (keys : List Key) : recoverAll step keys s = .ok s := by
  induction keys with
  | nil => rfl
  | cons key rest ih =>
    rw [recoverAll, hstep key]
    exact ih

/-- The store once the leases of the prior process are void. -/
def Store.voided (s : Store) (now : Int) : Store :=
  { s with dispatches := s.dispatches.map (Dispatch.voidLeases now) }

/-- What a successful recovery does: after the leases are void, the first loop dead-letters,
and the unaccepted leases return to the queue. -/
theorem recoverOrphanedTasks_steps (cfg : Config) (hinv : Inv s now)
    (h : recoverOrphanedTasks choices now s = .ok s') :
    ∃ finals, recoverAll (recoverExpiredFinal choices now)
        (s.dispatches.map Dispatch.outboxId) (s.voided now) = .ok finals ∧
      Change.abandon.Enabled cfg now finals ∧ s' = Change.abandon.run cfg now finals := by
  simp only [recoverOrphanedTasks, bind_eq_ok, require_eq_ok, exists_const] at h
  obtain ⟨finals, hfinals, delivered, hdelivered, recovered, hrecovered, -, h⟩ := h
  obtain rfl := Except.ok.inj h
  have hvoided := Change.voidLeases_inv hinv
  obtain ⟨hchanges, hnone⟩ := recoverExpiredFinals_spec cfg hvoided hfinals
  have hinv' := hvoided.changes (OrdinaryChanges.changes hchanges)
  rw [recoverAll_eq fun _ => recoverDelivered_eq hinv'] at hdelivered
  obtain rfl := Except.ok.inj hdelivered
  have habandon : Change.abandon.Enabled cfg now finals := by
    intro d hd hleased hunaccepted
    by_contra hcount
    obtain ⟨hmem, hnotin⟩ := hnone d hd ⟨hleased, by omega, hunaccepted⟩
    obtain ⟨x, hx, rfl⟩ := List.mem_map.mp hmem
    refine hnotin (List.mem_map.mpr ⟨x, hx, ?_⟩)
    simp only [Dispatch.voidLeases]
    split <;> rfl
  rw [recoverAll_eq fun _ => recoverOrphan_eq (Change.abandon_inv hinv' habandon)] at hrecovered
  exact ⟨finals, hfinals, habandon, (Except.ok.inj hrecovered).symm⟩

theorem recoverOrphanedTasks_spec (hinv : Inv s now)
    (h : recoverOrphanedTasks choices now s = .ok s') :
    ReflTransGen (OrdinaryChanges cfg now) s s' := by
  obtain ⟨finals, hfinals, habandon, rfl⟩ := recoverOrphanedTasks_steps cfg hinv h
  have hvoid : OrdinaryChanges cfg now s (s.voided now) := ⟨.voidLeases, rfl, trivial, rfl⟩
  obtain ⟨hchanges, -⟩ := recoverExpiredFinals_spec cfg (Change.voidLeases_inv hinv) hfinals
  exact (ReflTransGen.single hvoid).trans (hchanges.tail ⟨_, rfl, habandon, rfl⟩)

end SmeshDurable
