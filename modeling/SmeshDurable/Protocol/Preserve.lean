import SmeshDurable.Protocol.Change

/-!
# Every change preserves the invariant

One lemma for each kind of change, and the induction that carries the invariant through
whole runs. A change of one dispatch keeps its identity and shows the new row valid and
coherent with its task; a change that moves a task also shows that no other dispatch of
the task is active.
-/

namespace SmeshDurable

variable [ContentDigest] {cfg : Config} {s : Store} {now now' : Int} {d d' : Dispatch}
  {row : TaskRow}

/-! ## Appended dispatches -/

namespace Inv

/-- A new task with its dispatch. -/
theorem admission (h : Inv s now) (hle : now ≤ now') (hnew : ∀ r ∈ s.tasks, r.task.id ≠ row.task.id)
    (hrow : RowValid row) (htask : row.task.id = d.taskId)
    (hid : d.outboxId = s.nextOutboxId)
    (hdispatch : ∀ x ∈ s.dispatches, x.dispatchId ≠ d.dispatchId)
    (hmessage : ∀ x ∈ s.dispatches,
      ¬ (x.tenantScope = d.tenantScope ∧ x.messageId = d.messageId))
    (hvalid : DispatchValid d now') (hcoherent : Coherent row d) (hactive : d.active = true) :
    Inv ({ s with tasks := s.tasks ++ [row] }.enqueue d) now' := by
  have hother : ∀ x ∈ s.dispatches, x.taskId ≠ d.taskId := by
    intro x hx heq
    obtain ⟨r, hr, hrx, -⟩ := h.coherent x hx
    exact hnew r hr (hrx.trans (heq.trans htask.symm))
  have hkeys := h.toKeysValid.enqueue hid hdispatch hmessage
  refine ⟨⟨h.taskIds.append hnew, hkeys.outboxIds, hkeys.dispatchIds, hkeys.messageIds,
    hkeys.fresh⟩, ?_, ?_, ?_, ?_, ?_⟩
  · intro r hr
    rcases List.mem_append.mp hr with hr | hr
    · exact h.rows r hr
    · exact List.mem_singleton.mp hr ▸ hrow
  · intro x hx
    rcases List.mem_append.mp hx with hx | hx
    · exact (h.dispatches x hx).mono hle
    · exact List.mem_singleton.mp hx ▸ hvalid
  · intro x hx
    rcases List.mem_append.mp hx with hx | hx
    · obtain ⟨r, hr, hrest⟩ := h.coherent x hx
      exact ⟨r, List.mem_append_left _ hr, hrest⟩
    · obtain rfl := List.mem_singleton.mp hx
      exact ⟨row, List.mem_append_right _ (by simp), htask, hcoherent⟩
  · intro x hmemx y hmemy hxy hlt
    rcases List.mem_append.mp hmemx with hx | hx <;> rcases List.mem_append.mp hmemy with hy | hy
    · exact h.ordered x hx y hy hxy hlt
    · obtain rfl := List.mem_singleton.mp hy
      exact absurd hxy (hother x hx)
    · obtain rfl := List.mem_singleton.mp hx
      exact absurd hxy.symm (hother y hy)
    · rw [List.mem_singleton.mp hx, List.mem_singleton.mp hy] at hlt
      exact absurd hlt (lt_irrefl _)
  · intro r hr hopen
    rcases List.mem_append.mp hr with hr | hr
    · obtain ⟨x, hx, hrest⟩ := h.served r hr hopen
      exact ⟨x, List.mem_append_left _ hx, hrest⟩
    · obtain rfl := List.mem_singleton.mp hr
      exact ⟨d, List.mem_append_right _ (by simp), htask.symm, .inl hactive⟩

/-- The next dispatch of a task without an active one. -/
theorem resume (h : Inv s now) (hle : now ≤ now') (hmem : row ∈ s.tasks) {kind : EventKind}
    {task : Task} (hrow : RowValid (row.append (row.revision + 1) kind task now'))
    (hsame : task.id = row.task.id) (htask : row.task.id = d.taskId)
    (hid : d.outboxId = s.nextOutboxId)
    (hdispatch : ∀ x ∈ s.dispatches, x.dispatchId ≠ d.dispatchId)
    (hmessage : ∀ x ∈ s.dispatches,
      ¬ (x.tenantScope = d.tenantScope ∧ x.messageId = d.messageId))
    (hvalid : DispatchValid d now')
    (hcoherent : Coherent (row.append (row.revision + 1) kind task now') d)
    (hactive : d.active = true) (hrevision : d.causativeRevision = row.revision + 1)
    (hidle : ∀ x ∈ s.dispatches, x.taskId = d.taskId → x.active = false) :
    Inv ((s.putTask (row.append (row.revision + 1) kind task now')).enqueue d) now' := by
  set row' := row.append (row.revision + 1) kind task now'
  have hput : ∀ r, r ∈ (s.putTask row').tasks ↔
      r = row' ∨ (r ∈ s.tasks ∧ r.task.id ≠ row.task.id) := fun r =>
    Keyed.mem_put_of_mem hmem hsame
  have hkeys := h.toKeysValid.enqueue hid hdispatch hmessage
  refine ⟨⟨h.taskIds.put, hkeys.outboxIds, hkeys.dispatchIds, hkeys.messageIds, hkeys.fresh⟩,
    ?_, ?_, ?_, ?_, ?_⟩
  · intro r hr
    rcases (hput r).mp hr with rfl | ⟨hr, -⟩
    · exact hrow
    · exact h.rows r hr
  · intro x hx
    rcases List.mem_append.mp hx with hx | hx
    · exact (h.dispatches x hx).mono hle
    · exact List.mem_singleton.mp hx ▸ hvalid
  · intro x hx
    rcases List.mem_append.mp hx with hx | hx
    · obtain ⟨r, hr, hrx, hcoh⟩ := h.coherent x hx
      by_cases hkey : r.task.id = row.task.id
      · obtain rfl := h.taskIds.eq_of_key hr hmem hkey
        exact ⟨row', (hput _).mpr (.inl rfl), hsame.trans hrx,
          hcoh.append (hidle x hx (hrx.symm.trans htask))⟩
      · exact ⟨r, (hput _).mpr (.inr ⟨hr, hkey⟩), hrx, hcoh⟩
    · obtain rfl := List.mem_singleton.mp hx
      exact ⟨row', (hput _).mpr (.inl rfl), hsame.trans htask, hcoherent⟩
  · intro x hmemx y hmemy hxy hlt
    rcases List.mem_append.mp hmemx with hx | hx <;> rcases List.mem_append.mp hmemy with hy | hy
    · exact h.ordered x hx y hy hxy hlt
    · obtain rfl := List.mem_singleton.mp hy
      have hle := (h.coherent_of_taskId hx hmem (htask.trans hxy.symm)).causative_le
      omega
    · obtain rfl := List.mem_singleton.mp hx
      have hfresh := h.fresh y hy
      omega
    · rw [List.mem_singleton.mp hx, List.mem_singleton.mp hy] at hlt
      exact absurd hlt (lt_irrefl _)
  · intro r hr hopen
    rcases (hput r).mp hr with rfl | ⟨hr, -⟩
    · exact ⟨d, List.mem_append_right _ (by simp), (hsame.trans htask).symm, .inl hactive⟩
    · obtain ⟨x, hx, hrest⟩ := h.served r hr hopen
      exact ⟨x, List.mem_append_left _ hx, hrest⟩

end Inv

/-! ## New dispatches -/

theorem openTranscript_valid {o : HashOrder} {task : Task} (hactive : d.active = true)
    (hstate : isDispatchClosed task.status.state = false) :
    TranscriptValid d (openTranscript o task now) :=
  ⟨rfl, hactive, fun _ => ⟨task, [], rfl, hstate, rfl⟩⟩

theorem newDispatch_valid {o : HashOrder} {auth : Option Authorization} {digest : String}
    {revision : Nat} {payload : MeshRequest} {command : SendMessageAdmission} {task : Task}
    {result : SendMessageResponse} (hclock : command.now = now)
    (hattempts : 0 < command.maxAttempts)
    (hstate : isDispatchClosed task.status.state = false) :
    DispatchValid (s.newDispatch cfg o auth digest revision payload command task result) now where
  tenant := tenantOf_valid cfg auth
  dispatchId := rfl
  payloadDigest := rfl
  leased := nofun
  unleased := fun _ => ⟨rfl, rfl, rfl⟩
  attempts := .admitted
  attemptCount_le := Nat.zero_le _
  attemptCount_lt := fun _ => hattempts
  created := le_rfl
  updated := hclock.le
  record := ⟨fun _ => rfl, fun _ => rfl⟩
  final := ⟨fun _ => rfl, fun _ => rfl⟩
  transcript := by
    intro transcript hmem
    simp only [Store.newDispatch, admittedDispatch, Option.mem_def] at hmem
    split at hmem
    · obtain rfl := Option.some.inj hmem
      exact openTranscript_valid rfl hstate
    · cases hmem
  inbox := nofun
  dead := nofun
  intent := nofun
  ratification := rfl

/-! ## Changes of one dispatch -/

/-- A dispatch stays active under other lease columns. -/
theorem DispatchValid.requeue (h : DispatchValid d now) (hactive : d.active = true)
    {state : OutboxState} {attemptCount : Nat} {availableAt updatedAt : Int}
    {leaseOwner leaseToken lastError : Option String} {leaseUntil : Option Int}
    {attempts : List AttemptRow} (hstate : state = .pending ∨ state = .leased)
    (hleased : state = .leased →
      leaseOwner.isSome = true ∧ leaseToken.isSome = true ∧ leaseUntil.isSome = true)
    (hpending : state = .pending → (leaseOwner = none ∧ leaseToken = none ∧ leaseUntil = none) ∧
      attemptCount < d.maxAttempts)
    (hattempts : AttemptsValid state attemptCount leaseToken attempts now')
    (hcount : attemptCount ≤ d.maxAttempts) (hcreated : d.createdAt ≤ updatedAt)
    (hupdated : updatedAt ≤ now') :
    DispatchValid { d with state, attemptCount, availableAt, leaseOwner, leaseToken, leaseUntil,
                           lastError, updatedAt, attempts } now' where
  tenant := h.tenant
  dispatchId := h.dispatchId
  payloadDigest := h.payloadDigest
  leased := hleased
  unleased := fun hne => (hpending (hstate.resolve_right hne)).1
  attempts := hattempts
  attemptCount_le := hcount
  attemptCount_lt := fun hstate => (hpending hstate).2
  created := hcreated
  updated := hupdated
  record := ⟨fun _ => Dispatch.active_iff.mpr hstate, fun _ => h.record.mpr hactive⟩
  final := h.final
  transcript := fun transcript hmem =>
    (h.transcript transcript hmem).of_active hactive (Dispatch.active_iff.mpr hstate)
  inbox := fun inbox hmem =>
    have hvalid := h.inbox inbox hmem
    ⟨hvalid.payloadDigest, hvalid.row, hvalid.sender, hvalid.idle⟩
  dead := fun hdead => by rcases hstate with rfl | rfl <;> cases hdead
  intent := h.intent
  ratification := h.ratification

/-- A dispatch changes its receiver row, its intent or the end of its lease. -/
theorem DispatchValid.withInbox (h : DispatchValid d now) (hle : now ≤ now')
    {inbox : Option InboxRow} {intent : Option IntentRow} {leaseUntil : Option Int}
    {updatedAt : Int} (hinbox : ∀ x ∈ inbox, InboxValid d x)
    (hdead : d.state = .dead → inbox = none)
    (hintent : ∀ y ∈ intent, ∃ x ∈ inbox,
      (y.state = .requested ↔ x.state.isCompleted = false))
    (hleased : d.state = .leased → leaseUntil.isSome = true)
    (hunleased : d.state ≠ .leased → leaseUntil = none) (hcreated : d.createdAt ≤ updatedAt)
    (hupdated : updatedAt ≤ now') :
    DispatchValid { d with inbox, intent, leaseUntil, updatedAt } now' where
  tenant := h.tenant
  dispatchId := h.dispatchId
  payloadDigest := h.payloadDigest
  leased := fun hstate => ⟨(h.leased hstate).1, (h.leased hstate).2.1, hleased hstate⟩
  unleased := fun hstate => ⟨(h.unleased hstate).1, (h.unleased hstate).2.1, hunleased hstate⟩
  attempts := h.attempts.mono hle
  attemptCount_le := h.attemptCount_le
  attemptCount_lt := h.attemptCount_lt
  created := hcreated
  updated := hupdated
  record := h.record
  final := h.final
  transcript := fun transcript hmem =>
    have hvalid := h.transcript transcript hmem
    ⟨hvalid.count, hvalid.state, hvalid.unclosed⟩
  inbox := fun x hx =>
    have hvalid := hinbox x hx
    ⟨hvalid.payloadDigest, hvalid.row, hvalid.sender, hvalid.idle⟩
  dead := hdead
  intent := hintent
  ratification := h.ratification

/-- A dispatch is settled. -/
theorem DispatchValid.settle (h : DispatchValid d now) (hle : now ≤ now')
    {state : OutboxState} {lastError : Option String} {attempts : List AttemptRow}
    {record : RecordRow} {transcript : Option TranscriptRow}
    (hstate : state ≠ .pending ∧ state ≠ .leased)
    (hattempts : List.Forall₂ (AttemptRow.ClosesTo now') d.attempts attempts)
    (hrecord : record.state = .completed ∧ record.finalResult.isSome = true)
    (htranscript : ∀ x ∈ transcript, TranscriptValid
      { d with state, leaseOwner := none, leaseToken := none, leaseUntil := none, lastError,
               updatedAt := now', attempts, record, transcript } x)
    (hdead : state = .dead → d.inbox = none) :
    DispatchValid { d with state, leaseOwner := none, leaseToken := none, leaseUntil := none,
                           lastError, updatedAt := now', attempts, record, transcript } now' where
  tenant := h.tenant
  dispatchId := h.dispatchId
  payloadDigest := h.payloadDigest
  leased := fun hleased => absurd hleased hstate.2
  unleased := fun _ => ⟨rfl, rfl, rfl⟩
  attempts := h.attempts.close hattempts hle hstate.2
  attemptCount_le := h.attemptCount_le
  attemptCount_lt := fun hpending => absurd hpending hstate.1
  created := h.created.trans (h.updated.trans hle)
  updated := le_rfl
  record := by simp [hrecord.1, Dispatch.active, hstate]
  final := by
    obtain ⟨result, hresult⟩ := Option.isSome_iff_exists.mp hrecord.2
    simp [hrecord.1, hresult]
  transcript := htranscript
  inbox := fun inbox hmem =>
    have hvalid := h.inbox inbox hmem
    ⟨hvalid.payloadDigest, hvalid.row, hvalid.sender, hvalid.idle⟩
  dead := hdead
  intent := h.intent
  ratification := h.ratification

/-! ## The changes -/

namespace Change

theorem newDispatch_opening {o : HashOrder} {auth : Option Authorization} {digest : String}
    {revision : Nat} {payload : MeshRequest} {command : SendMessageAdmission} {task : Task}
    {result : SendMessageResponse} {transcript : TranscriptRow}
    (hmem : transcript ∈
      (s.newDispatch cfg o auth digest revision payload command task result).transcript) :
    ∃ updates, transcript.frames.map FrameRow.frame = .task task :: updates := by
  simp only [Store.newDispatch, admittedDispatch, Option.mem_def] at hmem
  split at hmem
  · obtain rfl := Option.some.inj hmem
    exact ⟨[], rfl⟩
  · cases hmem

theorem AdmitEnabled.submitted {auth : Option Authorization} {digest : String}
    {payload : MeshRequest} {command : SendMessageAdmission}
    (hc : AdmitEnabled cfg auth digest payload command now s) :
    command.task.status.state = .submitted := by
  have hcanonical := hc.canonical
  simp only [admissionMatchesRequest, Bool.and_eq_true, beq_iff_eq] at hcanonical
  exact hcanonical.1.1.1.2

omit [ContentDigest] in
/-- A canonical admission has the message of its request as its history. -/
theorem AdmitEnabled.history [ContentDigest] {auth : Option Authorization} {digest : String}
    {payload : MeshRequest} {command : SendMessageAdmission}
    (hc : AdmitEnabled cfg auth digest payload command now s) :
    command.task.history = some [command.request.message] := by
  have hcanonical := hc.canonical
  simp only [admissionMatchesRequest, Bool.and_eq_true, beq_iff_eq] at hcanonical
  exact hcanonical.1.1.1.1.1.1

omit [ContentDigest] in
theorem continuedTask_history (task : Task) (message : Message) (now : Int) :
    ∃ first later, (continuedTask task message now).history = some (first :: later) := by
  cases hhistory : task.history.getD [] with
  | nil => exact ⟨message, [], by simp [continuedTask, hhistory]⟩
  | cons first rest => exact ⟨first, rest ++ [message], by simp [continuedTask, hhistory]⟩

theorem admit_inv {o : HashOrder} {auth : Option Authorization} {digest : String}
    {payload : MeshRequest} {command : SendMessageAdmission} (h : Inv s now)
    (hc : AdmitEnabled cfg auth digest payload command now s) :
    Inv ((admission o auth digest payload command).run cfg now s) now := by
  have hstate := hc.submitted
  refine h.admission le_rfl hc.newTask (.admitted hc.size hstate (tenantOf_valid cfg auth)) rfl rfl
    hc.fresh hc.unbound (newDispatch_valid hc.clock hc.attempts.1 (by rw [hstate]; rfl)) ?_ rfl
  exact ⟨rfl, ⟨_, List.mem_singleton.mpr rfl, rfl⟩, le_rfl, ⟨fun _ => rfl, fun _ => rfl⟩,
    fun _ => .inl hstate, fun _ => ⟨_, [], hc.history⟩, fun _ _ hmem => newDispatch_opening hmem,
    nofun⟩

theorem resume_inv {o : HashOrder} {auth : Option Authorization} {digest : String}
    {payload : MeshRequest} {command : SendMessageAdmission} (h : Inv s now)
    (hc : ResumeEnabled cfg auth digest payload command row now s) :
    Inv ((resume o auth digest payload command row).run cfg now s) now := by
  set task := continuedTask row.task command.request.message now with htask
  have hrow : RowValid (row.append (row.revision + 1) .continued task now) := by
    refine (h.rows row hc.mem).append rfl ?_ hc.size nofun
    rcases hc.waiting with hwaiting | hwaiting <;> rw [hwaiting] <;> rfl
  refine h.resume le_rfl hc.mem hrow rfl rfl rfl hc.fresh hc.unbound
    (newDispatch_valid hc.clock hc.attempts.1 rfl) ?_ rfl rfl ?_
  · refine ⟨hc.tenant, ⟨_, List.mem_append_right _ (List.mem_singleton.mpr rfl), rfl⟩, le_rfl,
      ⟨fun _ => rfl, fun _ => rfl⟩, fun _ => .inr rfl, fun _ => continuedTask_history _ _ _,
      fun _ _ hmem => newDispatch_opening hmem, nofun⟩
  · -- a waiting task has no active dispatch
    intro x hx hid
    refine Bool.eq_false_iff.mpr fun hactive => ?_
    have hworking := (h.coherent_of_taskId hx hc.mem hid.symm).working hactive
    rcases hc.waiting with hwaiting | hwaiting <;> simp [hwaiting] at hworking

theorem lease_inv {owner token : String} {leaseUntil : Int} (h : Inv s now)
    (hd : d ∈ s.dispatches) (hclaimable : d.claimable now = true) :
    Inv (s.putDispatch (d.lease owner token leaseUntil now)) now := by
  have hvalid := h.dispatches d hd
  simp only [Dispatch.claimable, Dispatch.leaseExpired, Bool.and_eq_true, Bool.or_eq_true,
    beq_iff_eq, decide_eq_true_eq] at hclaimable
  obtain ⟨hstate, hcount⟩ := hclaimable
  have hactive : d.active = true := Dispatch.active_iff.mpr (hstate.imp (·.1) (·.1))
  refine h.putDispatch le_rfl hd ⟨rfl, rfl, rfl, rfl, rfl, rfl⟩ ?_ ?_ fun _ _ => .inl rfl
  · exact hvalid.requeue hactive (.inr rfl) (fun _ => ⟨rfl, rfl, rfl⟩) (by rintro ⟨⟩)
      (hvalid.attempts.lease le_rfl token) hcount (hvalid.created.trans hvalid.updated) le_rfl
  · exact fun row _ _ hcoherent =>
      hcoherent.of_active hactive rfl ⟨rfl, rfl, rfl, rfl, rfl, rfl⟩ rfl

theorem release_inv {owner token : String} {leaseUntil : Int} (h : Inv s now)
    (hd : d ∈ s.dispatches) (hleased : d.state = .leased) :
    Inv (s.putDispatch (d.release owner token leaseUntil now)) now := by
  have hvalid := h.dispatches d hd
  have hactive : d.active = true := Dispatch.active_iff.mpr (.inr hleased)
  refine h.putDispatch le_rfl hd ⟨rfl, rfl, rfl, rfl, rfl, rfl⟩ ?_ ?_
    fun _ _ => .inl (Dispatch.active_iff.mpr (.inr hleased))
  · refine hvalid.requeue hactive (.inr hleased) (fun _ => ⟨rfl, rfl, rfl⟩)
      (by rw [hleased]; nofun) ?_ hvalid.attemptCount_le (hvalid.created.trans hvalid.updated) le_rfl
    have hattempts := hvalid.attempts
    rw [hleased] at hattempts ⊢
    exact hattempts.release le_rfl token
  · exact fun row _ _ hcoherent =>
      hcoherent.of_active hactive hactive ⟨rfl, rfl, rfl, rfl, rfl, rfl⟩ rfl

/-- A leased dispatch goes back to the queue. -/
theorem requeue_valid {attempts : List AttemptRow} {lastError : Option String} {availableAt : Int}
    (hvalid : DispatchValid d now) (hleased : d.state = .leased)
    (hcount : d.attemptCount < d.maxAttempts)
    (hcloses : List.Forall₂ (AttemptRow.ClosesTo now) d.attempts attempts) :
    DispatchValid { d.settle .pending lastError now with attempts, availableAt } now :=
  hvalid.requeue (Dispatch.active_iff.mpr (.inr hleased)) (.inl rfl) nofun
    (fun _ => ⟨⟨rfl, rfl, rfl⟩, hcount⟩) (hvalid.attempts.close hcloses le_rfl nofun) hcount.le
    (hvalid.created.trans hvalid.updated) le_rfl

omit [ContentDigest] in
theorem requeue_coherent {attempts : List AttemptRow} {lastError : Option String}
    {availableAt : Int} (hcoherent : Coherent row d) (hleased : d.state = .leased) :
    Coherent row { d.settle .pending lastError now with attempts, availableAt } :=
  hcoherent.of_active (Dispatch.active_iff.mpr (.inr hleased)) rfl ⟨rfl, rfl, rfl, rfl, rfl, rfl⟩
    rfl

theorem retry_inv {attempts : List AttemptRow} {error : String} {availableAt : Int} (h : Inv s now)
    (hd : d ∈ s.dispatches) (hleased : d.state = .leased) (hcount : d.attemptCount < d.maxAttempts)
    (hcloses : List.Forall₂ (AttemptRow.ClosesTo now) d.attempts attempts) :
    Inv (s.putDispatch { d.settle .pending (some error) now with attempts, availableAt }) now :=
  h.putDispatch le_rfl hd ⟨rfl, rfl, rfl, rfl, rfl, rfl⟩
    (requeue_valid (h.dispatches d hd) hleased hcount hcloses)
    (fun _ _ _ hcoherent => requeue_coherent hcoherent hleased) fun _ _ => .inl rfl

theorem abandon_inv (h : Inv s now)
    (hcount : ∀ d ∈ s.dispatches, d.state = .leased → d.receiverAccepted = false →
      d.attemptCount < d.maxAttempts) :
    Inv { s with dispatches := s.dispatches.map (Dispatch.abandon now) } now := by
  refine h.mapDispatches ?_ ?_ ?_ ?_
  all_goals intro d hd
  all_goals simp only [Dispatch.abandon]
  all_goals split
  case refine_1.isTrue => exact ⟨rfl, rfl, rfl, rfl, rfl, rfl⟩
  case refine_1.isFalse => exact SameIdentity.refl d
  case refine_2.isTrue hleased =>
    have hvalid := h.dispatches d hd
    exact requeue_valid (d := d) hvalid hleased.1 (hcount d hd hleased.1 hleased.2)
      (hvalid.attempts.closesTo_map_close now .abandoned none (Nat.zero_le _))
  case refine_2.isFalse => exact h.dispatches d hd
  case refine_3.isTrue hleased =>
    exact fun row _ _ hcoherent => requeue_coherent (d := d) hcoherent hleased.1
  case refine_3.isFalse => exact fun _ _ _ hcoherent => hcoherent
  case refine_4.isTrue => exact fun _ _ => .inl rfl
  case refine_4.isFalse => exact fun _ hserves => hserves

/-- A receiver row changes while its dispatch stays as it is. -/
theorem inbox_inv {inbox : Option InboxRow} {intent : Option IntentRow} (h : Inv s now)
    (hd : d ∈ s.dispatches) (hinbox : ∀ x ∈ inbox, InboxValid d x)
    (hdead : d.state = .dead → inbox = none)
    (hintent : ∀ y ∈ intent, ∃ x ∈ inbox,
      (y.state = .requested ↔ x.state.isCompleted = false)) :
    Inv (s.putDispatch { d with inbox, intent }) now := by
  have hvalid := h.dispatches d hd
  refine h.putDispatch le_rfl hd ⟨rfl, rfl, rfl, rfl, rfl, rfl⟩ ?_ ?_ fun _ hserves => hserves
  · exact hvalid.withInbox le_rfl hinbox hdead hintent (fun hstate => (hvalid.leased hstate).2.2)
      (fun hstate => (hvalid.unleased hstate).2.2) hvalid.created hvalid.updated
  · exact fun _ _ _ hcoherent => hcoherent.withInbox

theorem accept_inv {inbox : InboxRow} (h : Inv s now) (hc : AcceptEnabled d inbox now s) :
    Inv (s.putDispatch { d with inbox := some inbox }) now := by
  have hvalid := h.dispatches d hc.mem
  refine inbox_inv h hc.mem ?_ (by rw [hc.leased]; nofun) ?_
  · rintro x ⟨⟩
    refine ⟨hc.payloadDigest, hc.valid, ?_, fun _ => hc.idle.2⟩
    -- a leased row has its open attempt
    obtain ⟨earlier, attempt, hattempts, -⟩ := hvalid.attempts.current hc.leased
    rw [hc.sender, hvalid.attempts.count, hattempts]
    simp
  · intro y hy
    obtain ⟨x, hx, -⟩ := hvalid.intent y hy
    rw [hc.unaccepted] at hx
    cases hx

theorem reclaim_inv {old inbox : InboxRow} (h : Inv s now)
    (hc : ReclaimEnabled d old inbox now s) :
    Inv (s.putDispatch { d with inbox := some inbox }) now := by
  have hvalid := h.dispatches d hc.mem
  have hold := hvalid.inbox old hc.inbox_eq
  obtain ⟨owner, token, leaseUntil, hprocessing, -⟩ := hc.expired
  have hpending : old.state.isCompleted = false := by rw [hprocessing]; rfl
  refine inbox_inv h hc.mem ?_ (by rw [hc.leased]; nofun) ?_
  · rintro x ⟨⟩
    refine ⟨hc.kept.1.trans hold.payloadDigest, hc.valid, ?_, fun _ => ?_⟩
    · obtain ⟨earlier, attempt, hattempts, -⟩ := hvalid.attempts.current hc.leased
      rw [hc.sender, hvalid.attempts.count, hattempts]
      simp
    · rw [hc.kept.2.2.2.1]
      exact hold.idle hpending
  · intro y hy
    obtain ⟨x, hx, hiff⟩ := hvalid.intent y hy
    obtain rfl := Option.some.inj (hc.inbox_eq.symm.trans hx)
    exact ⟨inbox, rfl, by rw [hiff, hpending, hc.idle]⟩

/-- The stored frames of an outcome load as that outcome. -/
theorem loadReceiverFrames_receiverFrames {events : List MeshEvent}
    (hsizes : (events.all fun event => event.jsonBytes ≤ maxAtomicJsonBytes) = true) :
    loadReceiverFrames (receiverFrames events now) events.length (textDigest (encodeEvents events)) =
      .ok events := by
  have hevents : (receiverFrames events now).map ReceiverFrameRow.event = events := by
    rw [receiverFrames, List.map_map]
    exact List.zipIdx_map_fst 0 events
  simp only [loadReceiverFrames, hevents, Transaction.bind_eq_ok, Transaction.require_eq_ok]
  refine ⟨(), ?_, (), by simp, trivial⟩
  rw [List.all_eq_true] at hsizes ⊢
  rintro ⟨frame, index⟩ hmem
  obtain ⟨hlt, hget⟩ := List.mem_zipIdx' hmem
  simp only [receiverFrames, List.length_map, List.length_zipIdx] at hlt
  have hsize := hsizes events[index] (List.getElem_mem hlt)
  simp only [receiverFrames, List.getElem_map, List.getElem_zipIdx] at hget
  simpa [hget] using hsize

theorem CompleteEnabled.inboxValid {inbox : InboxRow} {kind : CompletionKind}
    {events : List MeshEvent} {termination : DurableReceiverTermination}
    (hc : CompleteEnabled d inbox kind events termination now s) (hinbox : InboxValid d inbox) :
    InboxValid d (inbox.complete events termination kind now) := by
  refine ⟨hinbox.payloadDigest, ?_, hinbox.sender, nofun⟩
  have hrow := hinbox.row
  simp only [inboxRowValid, Bool.and_eq_true] at hrow
  obtain ⟨hpayload, -⟩ := hrow
  simp only [inboxRowValid, InboxRow.complete, loadReceiverFrames_receiverFrames hc.sizes.2,
    Bool.and_eq_true]
  refine ⟨hpayload, ?_, hc.outcome⟩
  have houtcome := hc.outcome
  have hfits := hc.fits
  cases termination <;>
    simp_all [decodeReceiverTermination, validateReceiverOutcome]

theorem complete_inv {inbox : InboxRow} {kind : CompletionKind} {events : List MeshEvent}
    {termination : DurableReceiverTermination} (h : Inv s now)
    (hc : CompleteEnabled d inbox kind events termination now s) :
    Inv ((complete d inbox kind events termination).run cfg now s) now := by
  have hvalid := h.dispatches d hc.mem
  have hinbox := hvalid.inbox inbox hc.inbox_eq
  obtain ⟨owner, token, leaseUntil, hprocessing, -⟩ := hc.live
  refine inbox_inv h hc.mem ?_ ?_ ?_
  · rintro x ⟨⟩
    exact hc.inboxValid hinbox
  · intro hdead
    cases (hvalid.dead hdead).symm.trans hc.inbox_eq
  · -- the only intent a processing row can have is a request, and that one is answered
    intro y hy
    refine ⟨_, rfl, ?_⟩
    have hrequested : ∀ z ∈ d.intent, z.state = .requested := by
      intro z hz
      obtain ⟨x, hx, hiff⟩ := hvalid.intent z hz
      obtain rfl := Option.some.inj (hc.inbox_eq.symm.trans hx)
      rw [hiff, hprocessing]
      rfl
    have hkind := hc.requested
    simp only [Dispatch.answeredIntent] at hy
    split at hy
    case isTrue =>
      obtain ⟨z, -, rfl⟩ := Option.mem_map.mp hy
      simp [InboxRow.complete, InboxState.isCompleted]
    case isFalse hplain =>
      have hstate := hrequested y hy
      simp [Dispatch.cancellationRequested, Option.mem_def.mp hy, hstate, hplain] at hkind

theorem request_inv (h : Inv s now) (hc : RequestEnabled d now s) :
    Inv (s.putDispatch { d with
      intent := some { state := .requested, requestedAt := now } }) now := by
  have hvalid := h.dispatches d hc.mem
  obtain ⟨inbox, hinbox, hlive⟩ := hc.live
  refine inbox_inv h hc.mem hvalid.inbox hvalid.dead ?_
  rintro y ⟨⟩
  refine ⟨inbox, hinbox, iff_of_true rfl ?_⟩
  simp only [InboxRow.live] at hlive
  cases hstate : inbox.state with
  | processing => rfl
  | completed => simp [hstate, InboxState.leaseUntil?] at hlive

theorem voidLease_valid {inbox : InboxRow} (hinbox : InboxValid d inbox) :
    InboxValid d (inbox.voidLease now) ∧
      (inbox.voidLease now).state.isCompleted = inbox.state.isCompleted := by
  cases hstate : inbox.state with
  | processing owner token leaseUntil =>
    have hvoid : inbox.voidLease now =
        { inbox with state := .processing owner token 0, updatedAt := now } := by
      rw [InboxRow.voidLease, hstate]
    have hrow := hinbox.row
    simp only [inboxRowValid, hstate] at hrow
    rw [hvoid]
    exact ⟨⟨hinbox.payloadDigest, hrow, hinbox.sender, fun _ => hinbox.idle (by rw [hstate]; rfl)⟩,
      rfl⟩
  | completed termination frameCount digest completedAt =>
    have hvoid : inbox.voidLease now = inbox := by
      rw [InboxRow.voidLease, hstate]
    rw [hvoid, hstate]
    exact ⟨hinbox, rfl⟩

theorem voidLeases_inv (h : Inv s now) :
    Inv { s with dispatches := s.dispatches.map (Dispatch.voidLeases now) } now := by
  have hvoided : ∀ d ∈ s.dispatches,
      (∀ x ∈ d.inbox.map (InboxRow.voidLease now), InboxValid d x) ∧
      (d.state = .dead → d.inbox.map (InboxRow.voidLease now) = none) ∧
      (∀ y ∈ d.intent, ∃ x ∈ d.inbox.map (InboxRow.voidLease now),
        (y.state = .requested ↔ x.state.isCompleted = false)) := by
    intro d hd
    have hvalid := h.dispatches d hd
    refine ⟨?_, fun hdead => by rw [hvalid.dead hdead]; rfl, ?_⟩
    · intro x hx
      obtain ⟨inbox, hinbox, rfl⟩ := Option.mem_map.mp hx
      exact (voidLease_valid (hvalid.inbox inbox hinbox)).1
    · intro y hy
      obtain ⟨inbox, hinbox, hiff⟩ := hvalid.intent y hy
      refine ⟨_, Option.mem_map_of_mem _ hinbox, ?_⟩
      rw [(voidLease_valid (hvalid.inbox inbox hinbox)).2]
      exact hiff
  refine h.mapDispatches ?_ ?_ ?_ ?_
  all_goals intro d hd
  all_goals simp only [Dispatch.voidLeases]
  all_goals split
  case refine_2.isTrue hleased =>
    have hvalid := h.dispatches d hd
    obtain ⟨hinbox, hdead, hintent⟩ := hvoided d hd
    exact hvalid.withInbox le_rfl hinbox hdead hintent (fun _ => rfl)
      (fun hstate => absurd hleased.1 hstate) (hvalid.created.trans hvalid.updated) le_rfl
  case refine_2.isFalse =>
    have hvalid := h.dispatches d hd
    obtain ⟨hinbox, hdead, hintent⟩ := hvoided d hd
    exact hvalid.withInbox le_rfl hinbox hdead hintent (fun hstate => (hvalid.leased hstate).2.2)
      (fun hstate => (hvalid.unleased hstate).2.2) hvalid.created hvalid.updated
  case refine_1.isTrue => exact ⟨rfl, rfl, rfl, rfl, rfl, rfl⟩
  case refine_1.isFalse => exact ⟨rfl, rfl, rfl, rfl, rfl, rfl⟩
  case refine_3.isTrue => exact fun _ _ _ hcoherent => hcoherent.withInbox
  case refine_3.isFalse => exact fun _ _ _ hcoherent => hcoherent.withInbox
  case refine_4.isTrue => exact fun _ hserves => hserves
  case refine_4.isFalse => exact fun _ hserves => hserves

/-! ### Streams -/

/-- The frames of a transcript after an append. -/
@[simp] theorem append_frames {o decoded : HashOrder} {transcript : TranscriptRow}
    {stored : List StreamResponse} {frame : StreamResponse} :
    (transcript.append o decoded stored frame now).frames.map FrameRow.frame =
      transcript.frames.map FrameRow.frame ++ [frame] := by
  simp [TranscriptRow.append, FrameRow.ofFrame]

theorem progress_inv {o decoded : HashOrder} {transcript : TranscriptRow} {frame : StreamResponse}
    (h : Inv s now) (hc : ProgressEnabled decoded d transcript frame s) :
    Inv ((progress o decoded d transcript frame).run cfg now s) now := by
  have hvalid := h.dispatches d hc.mem
  have htranscript := hvalid.transcript transcript hc.transcript_eq
  have hactive : d.active = true := by
    have hstate := htranscript.state
    rwa [hc.unclosed] at hstate
  refine h.putDispatch le_rfl hc.mem ⟨rfl, rfl, rfl, rfl, rfl, rfl⟩ ?_ ?_ fun _ hserves => hserves
  · refine { hvalid with transcript := ?_, inbox := ?_ }
    · rintro x ⟨⟩
      obtain ⟨initial, updates, hframes, hclosed, hupdates⟩ := htranscript.unclosed (by
        rw [hc.unclosed]; nofun)
      refine ⟨by simp [TranscriptRow.append], ?_, fun _ => ⟨initial, updates ++ [frame], ?_, hclosed,
        ?_⟩⟩
      · rw [show (transcript.append o decoded _ frame now).state = .open from hc.unclosed]
        exact hactive
      · rw [append_frames, hframes]
        rfl
      · rw [List.all_append, hupdates]
        simpa using hc.working
    · intro inbox hmem
      have hinbox := hvalid.inbox inbox hmem
      exact ⟨hinbox.payloadDigest, hinbox.row, hinbox.sender, hinbox.idle⟩
  · intro row _ _ hcoherent
    refine { hcoherent with opening := ?_, settled := fun hfalse => absurd hactive ?_ }
    · rintro - x ⟨⟩
      obtain ⟨updates, hframes⟩ := hcoherent.opening hactive transcript hc.transcript_eq
      exact ⟨updates ++ [frame], by rw [append_frames, hframes]; rfl⟩
    · exact fun htrue => by simp [Dispatch.active] at hfalse htrue; simp_all

/-! ### Committed outcomes -/

/-- The record of a settled dispatch. -/
theorem complete_record (hvalid : DispatchValid d now) (hactive : d.active = true)
    (result : SendMessageResponse) :
    (d.record.complete result now).state = .completed ∧
      (d.record.complete result now).finalResult = some result := by
  rw [RecordRow.complete, if_pos (hvalid.record.mpr hactive)]
  exact ⟨rfl, rfl⟩

omit [ContentDigest] in
/-- A dispatch that a new event of its task has settled. -/
theorem coherent_of_settled {kind : EventKind} {task : Task} (hcoherent : Coherent row d)
    (hactive : d.active = true) (hidentity : SameIdentity d d') (hsettled : d'.active = false)
    (hby : SettledBy d' (row.nextEvent (row.revision + 1) kind task now)) :
    Coherent (row.append (row.revision + 1) kind task now) d' := by
  obtain ⟨cause, hcause, hrevision⟩ := hcoherent.causative
  have hcurrent := hcoherent.current.mp hactive
  refine ⟨hcoherent.tenant.trans hidentity.tenantScope.symm, ⟨cause, by simp [hcause], ?_⟩, ?_, ?_,
    by simp [hsettled], by simp [hsettled], by simp [hsettled],
    fun _ => ⟨_, List.mem_append_right _ (List.mem_singleton.mpr rfl), hby⟩⟩
  · rw [hrevision, hidentity.causativeRevision]
  · rw [hidentity.causativeRevision, hcurrent]
    exact Nat.le_succ _
  · rw [hsettled, hidentity.causativeRevision, hcurrent, TaskRow.append_revision]
    simp

theorem deadLetter_inv {attempts : List AttemptRow} {error messageId : String} (h : Inv s now)
    (hc : DeadLetterEnabled row d attempts error messageId now s) :
    Inv ((deadLetter row d attempts error messageId).run cfg now s) now := by
  have hvalid := h.dispatches d hc.mem_dispatches
  have hactive : d.active = true := Dispatch.active_iff.mpr (.inr hc.leased)
  have hcoherent := h.coherent_of_taskId hc.mem_dispatches hc.mem_tasks hc.taskId_eq
  have hrecord := complete_record hvalid hactive
    (.task (deadLetteredTask row.task error messageId now))
  have hinterrupt : ∀ t ∈ d.transcript, (t.interrupt error now) =
      { t with state := .interrupted (interruptionError error), updatedAt := now } := fun t ht => by
    rw [TranscriptRow.interrupt, if_pos ((hvalid.transcript t ht).open_of_active hactive)]
  refine h.commit le_rfl hc.mem_tasks hc.mem_dispatches hc.taskId_eq
    ((h.rows row hc.mem_tasks).append rfl ?_ hc.size nofun) rfl ⟨rfl, rfl, rfl, rfl, rfl, rfl⟩
    ?_ ?_ nofun ?_
  · rcases hcoherent.working hactive with hstate | hstate <;> rw [hstate] <;> rfl
  · refine hvalid.settle le_rfl ⟨nofun, nofun⟩ hc.closes
      ⟨hrecord.1, Option.isSome_iff_exists.mpr ⟨_, hrecord.2⟩⟩ ?_ (fun _ => hc.unaccepted)
    intro x hx
    obtain ⟨t, ht, rfl⟩ := Option.mem_map.mp hx
    have htranscript := hvalid.transcript t ht
    rw [hinterrupt t ht]
    exact ⟨htranscript.count, rfl, fun _ => htranscript.unclosed (by
      rw [htranscript.open_of_active hactive]; nofun)⟩
  · refine coherent_of_settled hcoherent hactive ⟨rfl, rfl, rfl, rfl, rfl, rfl⟩ rfl
      ⟨?_, ⟨_, hrecord.2, by simp [finalResultMatchesTask, TaskRow.nextEvent]⟩, ?_, iff_of_true rfl rfl⟩
    · exact congrArg (· + 1) (hcoherent.current.mp hactive).symm
    · intro x hx terminalSeq hterminal
      obtain ⟨t, ht, rfl⟩ := Option.mem_map.mp hx
      rw [hinterrupt t ht] at hterminal
      cases hterminal
  · exact fun x hx hid hx' => h.active_unique hx hc.mem_dispatches hid hx' hactive

/-- A delivery that continues the stored frames stores all its frames. -/
theorem deliver_frames {o : HashOrder} {transcript : TranscriptRow} {frames : List StreamResponse}
    (hcount : transcript.frameCount = transcript.frames.length)
    (hpre : transcript.frames.map FrameRow.frame <+: frames) :
    (transcript.deliver o frames now).frames.map FrameRow.frame = frames := by
  obtain ⟨rest, rfl⟩ := hpre
  have hdrop : (List.zipIdx (transcript.frames.map FrameRow.frame ++ rest)).drop
      transcript.frameCount = rest.zipIdx transcript.frames.length := by
    rw [List.zipIdx_append, hcount, List.drop_append_of_le_length (by simp)]
    simp
  simp only [TranscriptRow.deliver, List.map_append, hdrop, List.map_map]
  congr 1
  exact List.zipIdx_map_fst _ rest

theorem deliver_inv {o decoded : HashOrder} {attempts : List AttemptRow} {task : Task}
    {result : SendMessageResponse} {frames : List StreamResponse} (h : Inv s now)
    (hc : DeliverEnabled o decoded row d attempts task result frames now s) :
    Inv ((deliver o decoded row d attempts task result frames).run cfg now s) now := by
  have hvalid := h.dispatches d hc.mem_dispatches
  have hactive : d.active = true := Dispatch.active_iff.mpr (.inr hc.leased)
  have hcoherent := h.coherent_of_taskId hc.mem_dispatches hc.mem_tasks hc.taskId_eq
  have hrecord := complete_record hvalid hactive result
  have hframes : ∀ t ∈ d.transcript,
      (t.deliver o frames now).frames.map FrameRow.frame = frames := fun t ht =>
    deliver_frames (hvalid.transcript t ht).count (hc.continues t ht).2
  refine h.commit le_rfl hc.mem_tasks hc.mem_dispatches hc.taskId_eq
    ((h.rows row hc.mem_tasks).append hc.sameTask ?_ hc.size ?_) hc.sameTask
    ⟨rfl, rfl, rfl, rfl, rfl, rfl⟩ ?_ ?_ ?_ ?_
  · have hclosed := hc.closed
    rcases hcoherent.working hactive with hstate | hstate <;> rw [hstate] <;>
      cases htask : task.status.state <;>
      simp [htask, isDispatchClosed, TaskState.isTerminal] at hclosed <;> rfl
  · intro hunspecified
    have hclosed := hc.closed
    rw [hunspecified] at hclosed
    cases hclosed
  · refine hvalid.settle le_rfl ⟨nofun, nofun⟩ hc.closes
      ⟨hrecord.1, Option.isSome_iff_exists.mpr ⟨_, hrecord.2⟩⟩ ?_ nofun
    intro x hx
    obtain ⟨t, ht, rfl⟩ := Option.mem_map.mp hx
    refine ⟨?_, ⟨.inl rfl, rfl⟩, fun hne => absurd rfl (hne _)⟩
    have hlength := congrArg List.length (hframes t ht)
    rw [List.length_map] at hlength
    exact hlength.symm
  · refine coherent_of_settled hcoherent hactive ⟨rfl, rfl, rfl, rfl, rfl, rfl⟩ rfl
      ⟨?_, ⟨_, hrecord.2, hc.final⟩, ?_, iff_of_false nofun nofun⟩
    · exact congrArg (· + 1) (hcoherent.current.mp hactive).symm
    · intro x hx terminalSeq hterminal
      obtain ⟨t, ht, rfl⟩ := Option.mem_map.mp hx
      rw [hframes t ht]
      exact hc.terminal
  · intro hopen
    refine .inr ⟨rfl, ?_⟩
    have hclosed := hc.closed
    simpa [isDispatchClosed, hopen] using hclosed
  · exact fun x hx hid hx' => h.active_unique hx hc.mem_dispatches hid hx' hactive

omit [ContentDigest] in
/-- The row of a canceled dispatch that can serve its task. -/
theorem supersede_eq (hdead : d.state ≠ .dead) {result : SendMessageResponse}
    {transcript : Option TranscriptRow} :
    d.supersede result transcript now =
      { d with
        state := .superseded, leaseOwner := none, leaseToken := none, leaseUntil := none,
        updatedAt := now, attempts := d.attempts.map (AttemptRow.close .superseded none now),
        record := if d.record.finalResult = none then d.record.complete result now else d.record,
        transcript } := by
  simp only [Dispatch.supersede, if_neg hdead]
  rfl

theorem cancel_transcript_open (decoded : HashOrder) (now : Int) (task : Task)
    {transcript : TranscriptRow} (hopen : transcript.state = .open) :
    (transcript.cancel decoded task now).frames.map FrameRow.frame =
        transcript.frames.map FrameRow.frame ++ [statusFrame task] ∧
      (transcript.cancel decoded task now).frameCount = transcript.frames.length + 1 ∧
      (transcript.cancel decoded task now).state = .terminal (transcript.frames.length + 1) := by
  simp [TranscriptRow.cancel, hopen, TranscriptRow.append, FrameRow.ofFrame]

theorem cancel_inv {decoded : HashOrder} (h : Inv s now)
    (hc : CancelEnabled decoded row d now s) :
    Inv ((cancel decoded row d).run cfg now s) now := by
  have hvalid := h.dispatches d hc.mem_dispatches
  have hcoherent := h.coherent_of_taskId hc.mem_dispatches hc.mem_tasks hc.taskId_eq
  have hdead : d.state ≠ .dead := by
    intro hdead
    rcases hc.serves with hactive | hdelivered
    · rcases Dispatch.active_iff.mp hactive with hstate | hstate <;> simp [hdead] at hstate
    · simp [hdead] at hdelivered
  have hstate : row.task.status.state.transitionAllowed .canceled = true := by
    have hunfinished := hc.unfinished
    have hspecified := (h.rows row hc.mem_tasks).specified
    cases hstate : row.task.status.state <;> simp_all [TaskState.isTerminal] <;> rfl
  have hcloses := hvalid.attempts.closesTo_map_close now .superseded none (Nat.zero_le _)
  have honly : ∀ x ∈ s.dispatches, x.taskId = d.taskId → x.active = true → x = d := by
    intro x hx hid hactive'
    rcases hc.serves with hactive | ⟨-, hwaiting⟩
    · exact h.active_unique hx hc.mem_dispatches hid hactive' hactive
    · have hworking :=
        (h.coherent_of_taskId hx hc.mem_tasks (hc.taskId_eq.trans hid.symm)).working hactive'
      rcases hwaiting with hwaiting | hwaiting <;> simp [hwaiting] at hworking
  have hkept : d.active = false →
      d.transcript.map (·.cancel decoded (canceledTask row.task d.dispatchId now) now) =
        d.transcript := by
    intro hsettled
    cases ht : d.transcript with
    | none => rfl
    | some t =>
      have hclosed : t.state ≠ .open := fun hopen => by
        have hstate := (hvalid.transcript t ht).state
        simp [hopen, hsettled] at hstate
      rw [Option.map_some, TranscriptRow.cancel, if_neg hclosed]
  simp only [run, supersede_eq hdead]
  refine h.commit le_rfl hc.mem_tasks hc.mem_dispatches hc.taskId_eq
    ((h.rows row hc.mem_tasks).append rfl hstate hc.size (by rintro ⟨⟩)) rfl
    ⟨rfl, rfl, rfl, rfl, rfl, rfl⟩ ?_ ?_ (by rintro ⟨⟩) honly
  all_goals by_cases hactive : d.active = true
  · -- an active dispatch gets the canceled task as its result and its stream is closed
    have hrecord := complete_record hvalid hactive
      (.task (canceledTask row.task d.dispatchId now))
    rw [if_pos (hvalid.final.mpr (hvalid.record.mpr hactive))]
    refine hvalid.settle le_rfl ⟨by rintro ⟨⟩, by rintro ⟨⟩⟩ hcloses
      ⟨hrecord.1, Option.isSome_iff_exists.mpr ⟨_, hrecord.2⟩⟩ ?_ (by rintro ⟨⟩)
    intro x hx
    obtain ⟨t, ht, rfl⟩ := Option.mem_map.mp hx
    obtain ⟨hframes, hcount, hterminal⟩ := cancel_transcript_open decoded now
      (canceledTask row.task d.dispatchId now) ((hvalid.transcript t ht).open_of_active hactive)
    refine ⟨?_, ?_, fun hne => absurd hterminal (hne _)⟩
    · have hlength := congrArg List.length hframes
      simpa [hcount] using hlength.symm
    · rw [hterminal]
      exact ⟨.inr rfl, hcount.symm⟩
  · -- a delivered one keeps its result and its stream
    have hrecord : d.record.state = .completed ∧ d.record.finalResult.isSome = true := by
      have hcompleted : d.record.state ≠ .inProgress := fun hstate =>
        hactive (hvalid.record.mp hstate)
      refine ⟨?_, ?_⟩
      · cases hrecord : d.record.state <;> simp_all
      · exact Option.isSome_iff_ne_none.mpr fun hnone => hcompleted (hvalid.final.mp hnone)
    rw [if_neg (Option.isSome_iff_ne_none.mp hrecord.2), hkept (Bool.eq_false_iff.mpr hactive)]
    refine hvalid.settle le_rfl ⟨by rintro ⟨⟩, by rintro ⟨⟩⟩ hcloses hrecord ?_ (by rintro ⟨⟩)
    intro t ht
    have htranscript := hvalid.transcript t ht
    refine ⟨htranscript.count, ?_, htranscript.unclosed⟩
    have hstate := htranscript.state
    cases htstate : t.state <;> simp only [htstate] at hstate ⊢
    · exact absurd hstate hactive
    · exact ⟨.inr trivial, hstate.2⟩
    · exact absurd hstate hdead
  · have hrecord := complete_record hvalid hactive
      (.task (canceledTask row.task d.dispatchId now))
    rw [if_pos (hvalid.final.mpr (hvalid.record.mpr hactive))]
    refine coherent_of_settled hcoherent hactive ⟨rfl, rfl, rfl, rfl, rfl, rfl⟩ rfl
      ⟨?_, ⟨_, hrecord.2, by simp [finalResultMatchesTask, TaskRow.nextEvent]⟩, ?_,
        iff_of_false (by rintro ⟨⟩) (by rintro ⟨⟩)⟩
    · exact congrArg (· + 1) (hcoherent.current.mp hactive).symm
    · intro x hx terminalSeq hterminal
      obtain ⟨t, ht, rfl⟩ := Option.mem_map.mp hx
      rw [(cancel_transcript_open decoded now _
        ((hvalid.transcript t ht).open_of_active hactive)).1]
      exact (hc.intact hactive t ht).2
  · rw [if_neg fun hnone => hactive (hvalid.record.mp (hvalid.final.mp hnone)),
      hkept (Bool.eq_false_iff.mpr hactive)]
    have happend : Coherent (row.append (row.revision + 1) .durableCanceled
        (canceledTask row.task d.dispatchId now) now) d :=
      hcoherent.append (Bool.eq_false_iff.mpr hactive)
    obtain ⟨event, hevent, hby⟩ := happend.settled (Bool.eq_false_iff.mpr hactive)
    refine { happend with
      current := iff_of_false (by rintro ⟨⟩) fun heq => hactive (happend.current.mpr heq)
      working := (by rintro ⟨⟩), messages := (by rintro ⟨⟩), opening := (by rintro ⟨⟩)
      settled := fun _ => ⟨event, hevent, ?_⟩ }
    exact ⟨hby.revision, hby.final, hby.terminal,
      iff_of_false (by rintro ⟨⟩) fun hkind => hdead (hby.dead.mpr hkind)⟩

/-- Every enabled change preserves the invariant. -/
theorem inv {change : Change} (h : Inv s now) (hc : change.Enabled cfg now s) :
    Inv (change.run cfg now s) now := by
  cases change with
  | admission => exact admit_inv h hc.1
  | resume => exact resume_inv h hc.1
  | lease => exact lease_inv h hc.1 hc.2.1
  | release => exact release_inv h hc.1 hc.2.1
  | retry => exact retry_inv h hc.1 hc.2.1 hc.2.2.1 hc.2.2.2.2.1
  | deadLetter => exact deadLetter_inv h hc.1
  | progress => exact progress_inv h hc.1
  | accept => exact accept_inv h hc
  | reclaim => exact reclaim_inv h hc
  | complete => exact complete_inv h hc
  | deliver => exact deliver_inv h hc.1
  | request => exact request_inv h hc
  | cancel => exact cancel_inv h hc.1
  | audit => exact { h with }
  | voidLeases => exact voidLeases_inv h
  | abandon => exact abandon_inv h hc

end Change

/-- So does every sequence of them. -/
theorem Inv.changes {s' : Store} (h : Inv s now)
    (hchanges : Relation.ReflTransGen (Changes cfg now) s s') : Inv s' now := by
  induction hchanges with
  | refl => exact h
  | tail _ hchange ih =>
    obtain ⟨change, henabled, rfl⟩ := hchange
    exact change.inv ih henabled

theorem Inv.mono (h : Inv s now) (hle : now ≤ now') : Inv s now' :=
  { h with dispatches := fun d hd => (h.dispatches d hd).mono hle }

end SmeshDurable
