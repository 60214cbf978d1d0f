import SmeshDurable.Protocol.Attempts

/-!
# The invariant of the store

What holds in every state the durable operations reach. A dispatch is *active* while it
is queued or leased. At any time a task has at most one active dispatch, the one caused
by its current revision; the event that follows a dispatch's causative revision is the one
that settled it. `Inv` collects these facts, the validity of each row, and the uniqueness
of the keys.
-/

namespace SmeshDurable

/-- Queued or leased: the dispatch still owes its task an outcome. -/
def Dispatch.active (d : Dispatch) : Bool := d.state == .pending || d.state == .leased

/-- The dispatch can still bring a task in the given state to an end: it is active, or its
delivery left the task waiting for the client. -/
def Dispatch.serves (d : Dispatch) (state : TaskState) : Prop :=
  d.active = true ∨
    (d.state = .delivered ∧ (state = .inputRequired ∨ state = .authRequired))

/-- The columns that no operation ever changes. -/
structure SameIdentity (d d' : Dispatch) : Prop where
  outboxId : d'.outboxId = d.outboxId
  dispatchId : d'.dispatchId = d.dispatchId
  tenantScope : d'.tenantScope = d.tenantScope
  taskId : d'.taskId = d.taskId
  messageId : d'.messageId = d.messageId
  causativeRevision : d'.causativeRevision = d.causativeRevision

theorem SameIdentity.refl (d : Dispatch) : SameIdentity d d := ⟨rfl, rfl, rfl, rfl, rfl, rfl⟩

/-- The frames of a transcript: its task, then working updates until it is closed. -/
structure TranscriptValid (d : Dispatch) (transcript : TranscriptRow) : Prop where
  count : transcript.frameCount = transcript.frames.length
  state : match transcript.state with
    | .open => d.active = true
    | .terminal terminalSeq =>
        (d.state = .delivered ∨ d.state = .superseded) ∧ terminalSeq = transcript.frameCount
    | .interrupted _ => d.state = .dead
  unclosed : (∀ terminalSeq, transcript.state ≠ .terminal terminalSeq) →
    ∃ initial updates, transcript.frames.map FrameRow.frame = .task initial :: updates ∧
      isDispatchClosed initial.status.state = false ∧ updates.all isWorkingUpdate = true

/-- The event that settled a dispatch. -/
structure SettledBy (d : Dispatch) (event : EventRow) : Prop where
  revision : event.taskRevision = d.causativeRevision + 1
  final : ∃ result ∈ d.record.finalResult, finalResultMatchesTask result event.eventTask = true
  terminal : ∀ transcript ∈ d.transcript, ∀ terminalSeq,
    transcript.state = .terminal terminalSeq →
      validateTerminalPublicTranscript (transcript.frames.map FrameRow.frame)
        event.eventTask = true
  dead : d.state = .dead ↔ event.eventKind = .deadLettered

/-- A dispatch and the row of its task. -/
structure Coherent (row : TaskRow) (d : Dispatch) : Prop where
  tenant : row.tenantScope = d.tenantScope
  causative : ∃ event ∈ row.events, event.taskRevision = d.causativeRevision
  causative_le : d.causativeRevision ≤ row.revision
  current : d.active = true ↔ d.causativeRevision = row.revision
  working : d.active = true →
    row.task.status.state = .submitted ∨ row.task.status.state = .working
  messages : d.active = true → ∃ message earlier, row.task.history = some (message :: earlier)
  opening : d.active = true → ∀ transcript ∈ d.transcript,
    ∃ updates, transcript.frames.map FrameRow.frame = .task row.task :: updates
  settled : d.active = false → ∃ event ∈ row.events, SettledBy d event

section

variable {d d' : Dispatch} {row : TaskRow}

theorem Dispatch.active_iff : d.active = true ↔ d.state = .pending ∨ d.state = .leased := by
  simp [Dispatch.active]

theorem Dispatch.active_eq_false : d.active = false ↔ d.state ≠ .pending ∧ d.state ≠ .leased := by
  simp [Dispatch.active]

theorem TranscriptValid.open_of_active {transcript : TranscriptRow}
    (h : TranscriptValid d transcript) (hactive : d.active = true) : transcript.state = .open := by
  have hstate := h.state
  rw [Dispatch.active_iff] at hactive
  cases hopen : transcript.state with
  | «open» => rfl
  | terminal terminalSeq =>
    simp only [hopen] at hstate
    rcases hactive with hactive | hactive <;> simp [hactive] at hstate
  | interrupted error =>
    simp only [hopen] at hstate
    simp [hstate] at hactive

theorem TranscriptValid.of_active {transcript : TranscriptRow} (h : TranscriptValid d transcript)
    (hactive : d.active = true) (hactive' : d'.active = true) : TranscriptValid d' transcript :=
  ⟨h.count, by rw [h.open_of_active hactive]; exact hactive', h.unclosed⟩

theorem Coherent.of_active (h : Coherent row d) (hactive : d.active = true)
    (hactive' : d'.active = true) (hidentity : SameIdentity d d')
    (htranscript : d'.transcript = d.transcript) : Coherent row d' := by
  refine ⟨h.tenant.trans hidentity.tenantScope.symm, ?_, ?_, ?_, fun _ => h.working hactive,
    fun _ => h.messages hactive, ?_, fun hfalse => absurd hactive' (by simp [hfalse])⟩
  · rw [hidentity.causativeRevision]
    exact h.causative
  · rw [hidentity.causativeRevision]
    exact h.causative_le
  · rw [hidentity.causativeRevision]
    exact ⟨fun _ => h.current.mp hactive, fun _ => hactive'⟩
  · rw [htranscript]
    exact fun _ => h.opening hactive

/-- A settled dispatch stays coherent with a row that moves on. -/
theorem Coherent.append (h : Coherent row d) (hsettled : d.active = false) {kind : EventKind}
    {task : Task} {at_ : Int} :
    Coherent (row.append (row.revision + 1) kind task at_) d := by
  obtain ⟨cause, hcause, hrevision⟩ := h.causative
  obtain ⟨event, hevent, hby⟩ := h.settled hsettled
  have hle := h.causative_le
  refine ⟨h.tenant, ⟨cause, by simp [hcause], hrevision⟩, hle.trans (Nat.le_succ _), ?_, ?_, ?_,
    ?_, fun _ => ⟨event, by simp [hevent], hby⟩⟩
  · rw [hsettled, TaskRow.append_revision]
    constructor
    · simp
    · omega
  all_goals simp [hsettled]

theorem Coherent.withInbox (h : Coherent row d) {inbox : Option InboxRow}
    {intent : Option IntentRow} {leaseUntil : Option Int} {updatedAt : Int} :
    Coherent row { d with inbox, intent, leaseUntil, updatedAt } := by
  refine ⟨h.tenant, h.causative, h.causative_le, h.current, h.working, h.messages, h.opening,
    fun hstate => ?_⟩
  obtain ⟨event, hmem, hby⟩ := h.settled hstate
  exact ⟨event, hmem, hby.revision, hby.final, hby.terminal, hby.dead⟩

end

/-- The unique keys of the tables. -/
structure KeysValid (s : Store) : Prop where
  taskIds : Keyed.Unique (fun r : TaskRow => r.task.id) s.tasks
  outboxIds : Keyed.Unique Dispatch.outboxId s.dispatches
  dispatchIds : Keyed.Unique Dispatch.dispatchId s.dispatches
  messageIds : Keyed.Unique (fun d : Dispatch => (d.tenantScope, d.messageId)) s.dispatches
  fresh : ∀ d ∈ s.dispatches, d.outboxId < s.nextOutboxId

namespace KeysValid

variable {s : Store}

/-- A change of the rows in place keeps the keys. -/
theorem map (h : KeysValid s) {f : Dispatch → Dispatch} {g : TaskRow → TaskRow}
    (decisions : List AuthorizationAuditInput)
    (hidentity : ∀ d ∈ s.dispatches, SameIdentity d (f d))
    (hkey : ∀ row ∈ s.tasks, (g row).task.id = row.task.id) :
    KeysValid ⟨s.tasks.map g, s.dispatches.map f, decisions, s.nextOutboxId⟩ := by
  have hcolumn : ∀ {β : Type} {key : Dispatch → β},
      (∀ d ∈ s.dispatches, key (f d) = key d) →
        (s.dispatches.map f).map key = s.dispatches.map key := by
    intro β key hkeep
    rw [List.map_map]
    exact List.map_congr_left fun d hd => hkeep d hd
  refine ⟨?_, ?_, ?_, ?_, ?_⟩
  · rw [Keyed.Unique, List.map_map]
    exact (List.map_congr_left hkey).symm ▸ h.taskIds
  · rw [Keyed.Unique, hcolumn fun d hd => (hidentity d hd).outboxId]
    exact h.outboxIds
  · rw [Keyed.Unique, hcolumn fun d hd => (hidentity d hd).dispatchId]
    exact h.dispatchIds
  · rw [Keyed.Unique, hcolumn fun d hd => by
      rw [(hidentity d hd).tenantScope, (hidentity d hd).messageId]]
    exact h.messageIds
  · intro d' hd'
    obtain ⟨d, hd, rfl⟩ := List.mem_map.mp hd'
    rw [(hidentity d hd).outboxId]
    exact h.fresh d hd

/-- A dispatch with new keys. -/
theorem enqueue (h : KeysValid s) {d : Dispatch} (hid : d.outboxId = s.nextOutboxId)
    (hdispatch : ∀ x ∈ s.dispatches, x.dispatchId ≠ d.dispatchId)
    (hmessage : ∀ x ∈ s.dispatches,
      ¬ (x.tenantScope = d.tenantScope ∧ x.messageId = d.messageId)) :
    KeysValid { s with dispatches := s.dispatches ++ [d], nextOutboxId := s.nextOutboxId + 1 } := by
  refine ⟨h.taskIds, h.outboxIds.append ?_, h.dispatchIds.append hdispatch,
    h.messageIds.append ?_, ?_⟩
  · intro x hx heq
    have hlt := h.fresh x hx
    omega
  · intro x hx heq
    exact hmessage x hx ⟨congrArg Prod.fst heq, congrArg Prod.snd heq⟩
  · intro x hx
    rw [List.mem_append, List.mem_singleton] at hx
    show x.outboxId < s.nextOutboxId + 1
    rcases hx with hx | rfl
    · exact Nat.lt_succ_of_lt (h.fresh x hx)
    · omega

end KeysValid

section Validity

variable [ContentDigest]

/-- A receiver row of a dispatch. -/
structure InboxValid (d : Dispatch) (inbox : InboxRow) : Prop where
  payloadDigest : inbox.payloadDigest = d.payloadDigest
  row : inboxRowValid d inbox = true
  sender : 0 < inbox.senderAttemptNo
  idle : inbox.state.isCompleted = false → inbox.frames = []

/-- An outbox row and the rows that belong to it. -/
structure DispatchValid (d : Dispatch) (now : Int) : Prop where
  tenant : validBoundedIdentity d.tenantScope = true
  dispatchId : d.dispatchId = dispatchIdentity d.tenantScope d.messageId
  payloadDigest : d.payloadDigest = textDigest d.payload.encode
  leased : d.state = .leased →
    d.leaseOwner.isSome = true ∧ d.leaseToken.isSome = true ∧ d.leaseUntil.isSome = true
  unleased : d.state ≠ .leased → d.leaseOwner = none ∧ d.leaseToken = none ∧ d.leaseUntil = none
  attempts : AttemptsValid d.state d.attemptCount d.leaseToken d.attempts now
  attemptCount_le : d.attemptCount ≤ d.maxAttempts
  attemptCount_lt : d.state = .pending → d.attemptCount < d.maxAttempts
  created : d.createdAt ≤ d.updatedAt
  updated : d.updatedAt ≤ now
  record : d.record.state = .inProgress ↔ d.active = true
  final : d.record.finalResult = none ↔ d.record.state = .inProgress
  transcript : ∀ transcript ∈ d.transcript, TranscriptValid d transcript
  inbox : ∀ inbox ∈ d.inbox, InboxValid d inbox
  dead : d.state = .dead → d.inbox = none
  intent : ∀ intent ∈ d.intent, ∃ inbox ∈ d.inbox,
    (intent.state = .requested ↔ inbox.state.isCompleted = false)
  ratification : d.ratificationRequired = false

/-- The invariant of every reachable state. -/
structure Inv (s : Store) (now : Int) : Prop extends KeysValid s where
  rows : ∀ row ∈ s.tasks, RowValid row
  dispatches : ∀ d ∈ s.dispatches, DispatchValid d now
  coherent : ∀ d ∈ s.dispatches, ∃ row ∈ s.tasks, row.task.id = d.taskId ∧ Coherent row d
  ordered : ∀ d₁ ∈ s.dispatches, ∀ d₂ ∈ s.dispatches, d₁.taskId = d₂.taskId →
    d₁.outboxId < d₂.outboxId → d₁.causativeRevision < d₂.causativeRevision
  served : ∀ row ∈ s.tasks, row.task.status.state.isTerminal = false →
    ∃ d ∈ s.dispatches, d.taskId = row.task.id ∧ d.serves row.task.status.state

/-! ## Consequences -/

variable {s : Store} {now now' : Int} {d d' : Dispatch} {row row' : TaskRow}

theorem DispatchValid.mono (h : DispatchValid d now) (hle : now ≤ now') : DispatchValid d now' :=
  { h with attempts := h.attempts.mono hle, updated := h.updated.trans hle }

namespace Inv

theorem coherent_of_taskId (h : Inv s now) (hd : d ∈ s.dispatches) (hrow : row ∈ s.tasks)
    (hid : row.task.id = d.taskId) : Coherent row d := by
  obtain ⟨row', hrow', hid', hcoherent⟩ := h.coherent d hd
  obtain rfl := h.taskIds.eq_of_key hrow' hrow (hid'.trans hid.symm)
  exact hcoherent

theorem causativeRevision_inj (h : Inv s now) (hd : d ∈ s.dispatches) (hd' : d' ∈ s.dispatches)
    (htask : d.taskId = d'.taskId) (hrevision : d.causativeRevision = d'.causativeRevision) :
    d = d' := by
  refine h.outboxIds.eq_of_key hd hd' ?_
  rcases lt_trichotomy d.outboxId d'.outboxId with hlt | heq | hlt
  · exact absurd (h.ordered d hd d' hd' htask hlt) (by omega)
  · exact heq
  · exact absurd (h.ordered d' hd' d hd htask.symm hlt) (by omega)

/-- A task has at most one active dispatch. -/
theorem active_unique (h : Inv s now) (hd : d ∈ s.dispatches) (hd' : d' ∈ s.dispatches)
    (htask : d.taskId = d'.taskId) (hactive : d.active = true) (hactive' : d'.active = true) :
    d = d' := by
  obtain ⟨row, hrow, hid, hcoherent⟩ := h.coherent d hd
  have hcoherent' := h.coherent_of_taskId hd' hrow (hid.trans htask)
  exact h.causativeRevision_inj hd hd' htask
    ((hcoherent.current.mp hactive).trans (hcoherent'.current.mp hactive').symm)

/-- A change of the rows in place: keys stay, rows stay valid and coherent, and every
unfinished task is served. -/
theorem map (h : Inv s now) {f : Dispatch → Dispatch} {g : TaskRow → TaskRow}
    (decisions : List AuthorizationAuditInput)
    (hidentity : ∀ d ∈ s.dispatches, SameIdentity d (f d))
    (hkey : ∀ row ∈ s.tasks, (g row).task.id = row.task.id)
    (hrows : ∀ row ∈ s.tasks, RowValid (g row))
    (hvalid : ∀ d ∈ s.dispatches, DispatchValid (f d) now')
    (hcoherent : ∀ d ∈ s.dispatches, ∀ row ∈ s.tasks, row.task.id = d.taskId →
      Coherent row d → Coherent (g row) (f d))
    (hserved : ∀ row ∈ s.tasks, (g row).task.status.state.isTerminal = false →
      ∃ d ∈ s.dispatches, d.taskId = row.task.id ∧ (f d).serves (g row).task.status.state) :
    Inv ⟨s.tasks.map g, s.dispatches.map f, decisions, s.nextOutboxId⟩ now' := by
  refine ⟨h.toKeysValid.map decisions hidentity hkey, ?_, ?_, ?_, ?_, ?_⟩
  · intro row' hrow'
    obtain ⟨row, hrow, rfl⟩ := List.mem_map.mp hrow'
    exact hrows row hrow
  · intro d' hd'
    obtain ⟨d, hd, rfl⟩ := List.mem_map.mp hd'
    exact hvalid d hd
  · intro d' hd'
    obtain ⟨d, hd, rfl⟩ := List.mem_map.mp hd'
    obtain ⟨row, hrow, hid, hcoh⟩ := h.coherent d hd
    refine ⟨g row, List.mem_map_of_mem hrow, ?_, hcoherent d hd row hrow hid hcoh⟩
    rw [hkey row hrow, hid, (hidentity d hd).taskId]
  · intro x hx y hy
    obtain ⟨d₁, hd₁, rfl⟩ := List.mem_map.mp hx
    obtain ⟨d₂, hd₂, rfl⟩ := List.mem_map.mp hy
    rw [(hidentity d₁ hd₁).taskId, (hidentity d₂ hd₂).taskId, (hidentity d₁ hd₁).outboxId,
      (hidentity d₂ hd₂).outboxId, (hidentity d₁ hd₁).causativeRevision,
      (hidentity d₂ hd₂).causativeRevision]
    exact h.ordered d₁ hd₁ d₂ hd₂
  · intro row' hrow' hopen
    obtain ⟨row, hrow, rfl⟩ := List.mem_map.mp hrow'
    obtain ⟨d, hd, htask, hserves⟩ := hserved row hrow hopen
    refine ⟨f d, List.mem_map_of_mem hd, ?_, hserves⟩
    rw [(hidentity d hd).taskId, htask, hkey row hrow]

/-- A change of dispatches only. -/
theorem mapDispatches (h : Inv s now) {f : Dispatch → Dispatch}
    (hidentity : ∀ d ∈ s.dispatches, SameIdentity d (f d))
    (hvalid : ∀ d ∈ s.dispatches, DispatchValid (f d) now')
    (hcoherent : ∀ d ∈ s.dispatches, ∀ row ∈ s.tasks, row.task.id = d.taskId →
      Coherent row d → Coherent row (f d))
    (hserves : ∀ d ∈ s.dispatches, ∀ state, d.serves state → (f d).serves state) :
    Inv { s with dispatches := s.dispatches.map f } now' := by
  have hmap := h.map s.decisions (g := id) hidentity (fun _ _ => rfl) h.rows hvalid hcoherent
    fun row hrow hopen => by
      obtain ⟨d, hd, htask, hd'⟩ := h.served row hrow hopen
      exact ⟨d, hd, htask, hserves d hd _ hd'⟩
  rwa [List.map_id] at hmap

/-- A change of one dispatch. -/
theorem putDispatch (h : Inv s now) (hle : now ≤ now') (hd : d ∈ s.dispatches)
    (hidentity : SameIdentity d d') (hvalid : DispatchValid d' now')
    (hcoherent : ∀ row ∈ s.tasks, row.task.id = d.taskId → Coherent row d → Coherent row d')
    (hserves : ∀ state, d.serves state → d'.serves state) : Inv (s.putDispatch d') now' := by
  have hput : ∀ x ∈ s.dispatches, x.outboxId = d'.outboxId → x = d := fun x hx hkey =>
    h.outboxIds.eq_of_key hx hd (hkey.trans hidentity.outboxId)
  refine h.mapDispatches ?_ ?_ ?_ ?_
  all_goals intro x hx
  all_goals by_cases hkey : x.outboxId = d'.outboxId
  all_goals simp only [hkey, if_true, if_false]
  · exact hput x hx hkey ▸ hidentity
  · exact SameIdentity.refl x
  · exact hvalid
  · exact (h.dispatches x hx).mono hle
  · exact hput x hx hkey ▸ hcoherent
  · exact fun _ _ _ hcoh => hcoh
  · exact hput x hx hkey ▸ hserves
  · exact fun _ hx => hx

/-- A task moves on together with the dispatch that moves it; no other dispatch of the task
is active. -/
theorem commit (h : Inv s now) (hle : now ≤ now') (hrow : row ∈ s.tasks) (hd : d ∈ s.dispatches)
    (hid : row.task.id = d.taskId) {kind : EventKind} {task : Task}
    (hrowValid : RowValid (row.append (row.revision + 1) kind task now'))
    (htask : task.id = row.task.id) (hidentity : SameIdentity d d')
    (hvalid : DispatchValid d' now')
    (hcoherent : Coherent (row.append (row.revision + 1) kind task now') d')
    (hserves : task.status.state.isTerminal = false → d'.serves task.status.state)
    (honly : ∀ x ∈ s.dispatches, x.taskId = d.taskId → x.active = true → x = d) :
    Inv ((s.putTask (row.append (row.revision + 1) kind task now')).putDispatch d') now' := by
  set row' := row.append (row.revision + 1) kind task now' with hrow'
  have hput : ∀ x ∈ s.dispatches, x.outboxId = d'.outboxId → x = d := fun x hx hkey =>
    h.outboxIds.eq_of_key hx hd (hkey.trans hidentity.outboxId)
  have hputRow : ∀ x ∈ s.tasks, x.task.id = row'.task.id → x = row := fun x hx hkey =>
    h.taskIds.eq_of_key hx hrow (hkey.trans htask)
  refine h.map s.decisions (f := fun x => if x.outboxId = d'.outboxId then d' else x)
    (g := fun x => if x.task.id = row'.task.id then row' else x) ?_ ?_ ?_ ?_ ?_ ?_
  · intro x hx
    by_cases hkey : x.outboxId = d'.outboxId
    · rw [if_pos hkey, hput x hx hkey]
      exact hidentity
    · rw [if_neg hkey]
      exact SameIdentity.refl x
  · intro x hx
    by_cases hkey : x.task.id = row'.task.id
    · rw [if_pos hkey, hkey]
    · rw [if_neg hkey]
  · intro x hx
    by_cases hkey : x.task.id = row'.task.id
    · rw [if_pos hkey]
      exact hrowValid
    · rw [if_neg hkey]
      exact h.rows x hx
  · intro x hx
    by_cases hkey : x.outboxId = d'.outboxId
    · rw [if_pos hkey]
      exact hvalid
    · rw [if_neg hkey]
      exact (h.dispatches x hx).mono hle
  · intro x hx r hr hxr hcoh
    by_cases hkey : x.outboxId = d'.outboxId
    · obtain rfl := hput x hx hkey
      obtain rfl := h.taskIds.eq_of_key hr hrow (hxr.trans hid.symm)
      rw [if_pos hkey, if_pos (show r.task.id = row'.task.id from htask.symm)]
      exact hcoherent
    · rw [if_neg hkey]
      by_cases hkeyRow : r.task.id = row'.task.id
      · -- another dispatch of the task, which is settled already
        obtain rfl := hputRow r hr hkeyRow
        rw [if_pos hkeyRow]
        refine hcoh.append (Bool.eq_false_iff.mpr fun hactive => hkey ?_)
        rw [honly x hx (hxr.symm.trans hid) hactive, hidentity.outboxId]
      · rw [if_neg hkeyRow]
        exact hcoh
  · intro x hx
    by_cases hkeyRow : x.task.id = row'.task.id
    · obtain rfl := hputRow x hx hkeyRow
      rw [if_pos hkeyRow]
      intro hnonterminal
      refine ⟨d, hd, hid.symm, ?_⟩
      rw [if_pos hidentity.outboxId.symm]
      exact hserves hnonterminal
    · rw [if_neg hkeyRow]
      intro hnonterminal
      obtain ⟨y, hy, hyx, hyserves⟩ := h.served x hx hnonterminal
      refine ⟨y, hy, hyx, ?_⟩
      rwa [if_neg]
      intro hkey
      rw [hput y hy hkey, ← hid] at hyx
      exact hkeyRow (hyx ▸ htask.symm)

end Inv

end Validity

end SmeshDurable
