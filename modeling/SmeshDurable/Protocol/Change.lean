import SmeshDurable.Protocol.Invariant
import Mathlib.Logic.Relation

/-!
# Changes of the store

A durable operation makes a few kinds of changes. A change says which rows it
concerns and what is written; `Change.run` is its effect and `Change.Enabled` what the
operation has checked, or found in the store, when it makes it. Every operation is a
sequence of enabled changes, so what each change preserves holds in every run.
-/

namespace SmeshDurable

inductive Change where
  /-- A new task and its first dispatch. -/
  | admission (o : HashOrder) (auth : Option Authorization) (digest : String)
      (payload : MeshRequest) (command : SendMessageAdmission)
  /-- The next message and dispatch of a task that waits for its client. -/
  | resume (o : HashOrder) (auth : Option Authorization) (digest : String)
      (payload : MeshRequest) (command : SendMessageAdmission) (row : TaskRow)
  /-- A new attempt. -/
  | lease (d : Dispatch) (owner token : String) (leaseUntil : Int)
  /-- The current attempt under a new token. -/
  | release (d : Dispatch) (owner token : String) (leaseUntil : Int)
  /-- A failed attempt, to be repeated. -/
  | retry (d : Dispatch) (attempts : List AttemptRow) (error : String) (availableAt : Int)
  /-- The last failed attempt, and with it the task. -/
  | deadLetter (row : TaskRow) (d : Dispatch) (attempts : List AttemptRow)
      (error messageId : String)
  /-- The working frame of a stream. -/
  | progress (o decoded : HashOrder) (d : Dispatch) (transcript : TranscriptRow)
      (frame : StreamResponse)
  /-- The receiver's first lease. -/
  | accept (d : Dispatch) (inbox : InboxRow)
  /-- The receiver's next lease. -/
  | reclaim (d : Dispatch) (old inbox : InboxRow)
  /-- The receiver's outcome. -/
  | complete (d : Dispatch) (inbox : InboxRow) (kind : CompletionKind)
      (events : List MeshEvent) (termination : DurableReceiverTermination)
  /-- The outcome published to the task, its record and its stream. -/
  | deliver (o decoded : HashOrder) (row : TaskRow) (d : Dispatch) (attempts : List AttemptRow)
      (task : Task) (result : SendMessageResponse) (frames : List StreamResponse)
  /-- A cancellation the receiver is asked for. -/
  | request (d : Dispatch)
  /-- A cancellation without the receiver. -/
  | cancel (decoded : HashOrder) (row : TaskRow) (d : Dispatch)
  /-- An audited decision. -/
  | audit (decision : AuthorizationAuditInput)
  /-- The leases of a prior process voided. -/
  | voidLeases
  /-- The unaccepted leases of a prior process returned to the queue. -/
  | abandon

/-- The change stores no frame, outcome or task that a worker computed. -/
def Change.ordinary : Change → Bool
  | progress .. | complete .. | deliver .. => false
  | _ => true

/-- The task a dead letter publishes. -/
def deadLetteredTask (task : Task) (error messageId : String) (now : Int) : Task :=
  failedTask task messageId ("Dispatch dead-lettered after bounded retries: " ++ error) now

section Effects

variable [ContentDigest]

/-- The transcript of a canceled dispatch: closed by the canceled status if it was open. -/
def TranscriptRow.cancel (decoded : HashOrder) (transcript : TranscriptRow) (task : Task)
    (now : Int) : TranscriptRow :=
  if transcript.state = .open then
    let stored := transcript.frames.map FrameRow.frame
    { transcript.append decoded decoded stored (statusFrame task) now with
      state := .terminal (stored.length + 1) }
  else transcript

/-- The intent after a completion: a canceled one answers it. -/
def Dispatch.answeredIntent (d : Dispatch) (kind : CompletionKind) (now : Int) :
    Option IntentRow :=
  if kind = .canceled then d.intent.map fun intent => { intent with state := .receiverCanceled now }
  else d.intent

/-- The dispatch a new message is admitted with. -/
def Store.newDispatch (s : Store) (cfg : Config) (o : HashOrder) (auth : Option Authorization)
    (digest : String) (revision : Nat) (payload : MeshRequest) (command : SendMessageAdmission)
    (task : Task) (result : SendMessageResponse) : Dispatch :=
  admittedDispatch o cfg auth s.nextOutboxId
    (messageIdentity cfg auth command.request.message.messageId) digest revision payload command
    task result

/-- A row put back together with the dispatch that moved it. -/
def Store.commit (s : Store) (row : TaskRow) (d : Dispatch) : Store :=
  (s.putTask row).putDispatch d

omit [ContentDigest] in
/-- A dispatch after one was put back: that one, or an old one with another key. -/
theorem Store.mem_putDispatch {s : Store} {d d' x : Dispatch}
    (hx : x ∈ (s.putDispatch d').dispatches) (hd : d ∈ s.dispatches)
    (hid : d'.outboxId = d.outboxId) : x = d' ∨ (x ∈ s.dispatches ∧ x.outboxId ≠ d.outboxId) :=
  (Keyed.mem_put_of_mem hd hid).mp hx

omit [ContentDigest] in
theorem Store.mem_putDispatch_self {s : Store} {d d' : Dispatch} (hd : d ∈ s.dispatches)
    (hid : d'.outboxId = d.outboxId) : d' ∈ (s.putDispatch d').dispatches :=
  (Keyed.mem_put_of_mem hd hid).mpr (.inl rfl)

omit [ContentDigest] in
theorem Store.mem_commit {s : Store} {row : TaskRow} {d d' x : Dispatch}
    (hx : x ∈ (s.commit row d').dispatches) (hd : d ∈ s.dispatches)
    (hid : d'.outboxId = d.outboxId) : x = d' ∨ (x ∈ s.dispatches ∧ x.outboxId ≠ d.outboxId) :=
  (Keyed.mem_put_of_mem hd hid).mp hx

omit [ContentDigest] in
theorem Store.mem_commit_of_ne {s : Store} {row : TaskRow} {d' x : Dispatch}
    (hx : x ∈ s.dispatches) (hne : x.outboxId ≠ d'.outboxId) :
    x ∈ (s.commit row d').dispatches :=
  Keyed.mem_put.mpr (.inr ⟨hx, hne⟩)

omit [ContentDigest] in
theorem Store.mem_tasks_commit {s : Store} {row row' x : TaskRow} {d : Dispatch}
    (hx : x ∈ (s.commit row' d).tasks) (hrow : row ∈ s.tasks)
    (hid : row'.task.id = row.task.id) : x = row' ∨ (x ∈ s.tasks ∧ x.task.id ≠ row.task.id) :=
  (Keyed.mem_put_of_mem hrow hid).mp hx

omit [ContentDigest] in
theorem Store.mem_tasks_commit_of_ne {s : Store} {row' x : TaskRow} {d : Dispatch}
    (hx : x ∈ s.tasks) (hne : x.task.id ≠ row'.task.id) : x ∈ (s.commit row' d).tasks :=
  Keyed.mem_put.mpr (.inr ⟨hx, hne⟩)

/-- A dispatch appended. -/
def Store.enqueue (s : Store) (d : Dispatch) : Store :=
  { s with dispatches := s.dispatches ++ [d], nextOutboxId := s.nextOutboxId + 1 }

namespace Change

/-- The effect of a change. -/
def run (cfg : Config) (now : Int) (s : Store) : Change → Store
  | admission o auth digest payload command =>
    { s with tasks := s.tasks ++ [admittedTaskRow cfg auth command.task now] }.enqueue
      (s.newDispatch cfg o auth digest 1 payload command command.task command.originalResult)
  | resume o auth digest payload command row =>
    let task := continuedTask row.task command.request.message now
    (s.putTask (row.append (row.revision + 1) .continued task now)).enqueue
      (s.newDispatch cfg o auth digest (row.revision + 1) payload command task (.task task))
  | lease d owner token leaseUntil => s.putDispatch (d.lease owner token leaseUntil now)
  | release d owner token leaseUntil => s.putDispatch (d.release owner token leaseUntil now)
  | retry d attempts error availableAt =>
    s.putDispatch { d.settle .pending (some error) now with attempts, availableAt }
  | deadLetter row d attempts error messageId =>
    let failed := deadLetteredTask row.task error messageId now
    s.commit (row.append (row.revision + 1) .deadLettered failed now)
      { (d.deadLetter (.task failed) error now).settle .dead (some error) now with attempts }
  | progress o decoded d transcript frame =>
    s.putDispatch { d with transcript := some (transcript.append o decoded
      (transcript.frames.map FrameRow.frame) frame now) }
  | accept d inbox => s.putDispatch { d with inbox := some inbox }
  | reclaim d _ inbox => s.putDispatch { d with inbox := some inbox }
  | complete d inbox kind events termination =>
    s.putDispatch { d with inbox := some (inbox.complete events termination kind now),
                           intent := d.answeredIntent kind now }
  | deliver o _ row d attempts task result frames =>
    s.commit (row.append (row.revision + 1) .durableCompleted task now)
      { d.settle .delivered d.lastError now with
        record := d.record.complete result now
        transcript := d.transcript.map (·.deliver o frames now)
        attempts }
  | request d =>
    s.putDispatch { d with intent := some { state := .requested, requestedAt := now } }
  | cancel decoded row d =>
    let task := canceledTask row.task d.dispatchId now
    s.commit (row.append (row.revision + 1) .durableCanceled task now)
      (d.supersede (.task task) (d.transcript.map (·.cancel decoded task now)) now)
  | audit decision => { s with decisions := s.decisions ++ [decision] }
  | voidLeases => { s with dispatches := s.dispatches.map (Dispatch.voidLeases now) }
  | abandon => { s with dispatches := s.dispatches.map (Dispatch.abandon now) }

/-! ## Guards -/

/-- What admission and continuation check of a message. -/
structure Admissible (cfg : Config) (auth : Option Authorization) (digest : String)
    (payload : MeshRequest) (command : SendMessageAdmission) (task : Task) (now : Int)
    (s : Store) : Prop where
  clock : command.now = now
  scope : auth.all Authorization.matchesScope = true
  attempts : 0 < command.maxAttempts ∧ command.maxAttempts ≤ maxOutboxAttempts
  named : command.request.message.messageId.isEmpty = false
  identity : (messageIdentity cfg auth command.request.message.messageId).utf8ByteSize ≤ 4096
  digest_eq : requestDigest cfg auth command.request command.streaming = .ok digest
  payload_eq : MeshRequest.fromA2a task.id task.contextId command.request.message
    command.maxTextBytes = .ok payload
  unbound : ∀ d ∈ s.dispatches, ¬ (d.tenantScope = tenantOf cfg auth ∧
    d.messageId = messageIdentity cfg auth command.request.message.messageId)
  fresh : ∀ d ∈ s.dispatches, d.dispatchId ≠ dispatchIdentity (tenantOf cfg auth)
    (messageIdentity cfg auth command.request.message.messageId)
  size : task.jsonBytes ≤ maxTaskJsonBytes

/-- What admission checks of a new task. -/
structure AdmitEnabled (cfg : Config) (auth : Option Authorization) (digest : String)
    (payload : MeshRequest) (command : SendMessageAdmission) (now : Int) (s : Store) :
    Prop extends Admissible cfg auth digest payload command command.task now s where
  canonical : admissionMatchesRequest command = true
  newTask : ∀ row ∈ s.tasks, row.task.id ≠ command.task.id
  sizes : command.originalResult.jsonBytes ≤ maxAtomicJsonBytes ∧
    payload.jsonBytes ≤ maxAtomicJsonBytes

/-- What continuation checks of the task it continues. -/
structure ResumeEnabled (cfg : Config) (auth : Option Authorization) (digest : String)
    (payload : MeshRequest) (command : SendMessageAdmission) (row : TaskRow) (now : Int)
    (s : Store) : Prop extends Admissible cfg auth digest payload command
      (continuedTask row.task command.request.message now) now s where
  mem : row ∈ s.tasks
  tenant : row.tenantScope = tenantOf cfg auth
  waiting : row.task.status.state = .inputRequired ∨ row.task.status.state = .authRequired

/-- The row of the task and a dispatch of it. -/
structure Concerns (row : TaskRow) (d : Dispatch) (s : Store) : Prop where
  mem_tasks : row ∈ s.tasks
  mem_dispatches : d ∈ s.dispatches
  taskId_eq : row.task.id = d.taskId

/-- A leased dispatch that nobody accepted has failed for the last time. -/
structure DeadLetterEnabled (row : TaskRow) (d : Dispatch) (attempts : List AttemptRow)
    (error messageId : String) (now : Int) (s : Store) : Prop extends Concerns row d s where
  leased : d.state = .leased
  unaccepted : d.inbox = none
  closes : List.Forall₂ (AttemptRow.ClosesTo now) d.attempts attempts
  size : (deadLetteredTask row.task error messageId now).jsonBytes ≤ maxTaskJsonBytes

/-- The stream is open, intact and has no working frame yet. -/
structure ProgressEnabled (decoded : HashOrder) (d : Dispatch) (transcript : TranscriptRow)
    (frame : StreamResponse) (s : Store) : Prop where
  mem : d ∈ s.dispatches
  transcript_eq : d.transcript = some transcript
  unclosed : transcript.state = .open
  working : isWorkingUpdate frame = true
  first : (transcript.frames.map FrameRow.frame).find? isWorkingUpdate = none
  intact : loadPublicStreamFrames decoded transcript d.record.finalResult =
    .ok (transcript.frames.map FrameRow.frame)
  count : transcript.frames.length + 1 ≤ maxStreamFrames

/-- The receiver has no row for the leased dispatch. -/
structure AcceptEnabled (d : Dispatch) (inbox : InboxRow) (now : Int) (s : Store) : Prop where
  mem : d ∈ s.dispatches
  leased : d.state = .leased
  unaccepted : d.inbox = none
  payloadDigest : inbox.payloadDigest = d.payloadDigest
  valid : inboxRowValid d inbox = true
  epoch : inbox.leaseEpoch = 1
  sender : inbox.senderAttemptNo = d.attemptCount
  idle : inbox.state.isCompleted = false ∧ inbox.frames = []
  capacity : (s.putDispatch { d with inbox := some inbox }).inboxBytes ≤ maxStoreJsonBytes

/-- The receiver's lease of the leased dispatch has run out. -/
structure ReclaimEnabled (d : Dispatch) (old inbox : InboxRow) (now : Int) (s : Store) :
    Prop where
  mem : d ∈ s.dispatches
  leased : d.state = .leased
  inbox_eq : d.inbox = some old
  expired : ∃ owner token leaseUntil, old.state = .processing owner token leaseUntil ∧
    leaseUntil ≤ now
  kept : inbox.payloadDigest = old.payloadDigest ∧ inbox.payload = old.payload ∧
    inbox.acceptedAt = old.acceptedAt ∧ inbox.frames = old.frames ∧
    inbox.effectCommittedAt = old.effectCommittedAt
  valid : inboxRowValid d inbox = true
  epoch : inbox.leaseEpoch = old.leaseEpoch + 1
  sender : inbox.senderAttemptNo = d.attemptCount
  idle : inbox.state.isCompleted = false

/-- The receiver holds its lease; a cancellation is requested exactly if this is the
completion that answers one. -/
structure CompleteEnabled (d : Dispatch) (inbox : InboxRow) (kind : CompletionKind)
    (events : List MeshEvent) (termination : DurableReceiverTermination) (now : Int)
    (s : Store) : Prop where
  mem : d ∈ s.dispatches
  inbox_eq : d.inbox = some inbox
  live : ∃ owner token leaseUntil, inbox.state = .processing owner token leaseUntil ∧
    now < leaseUntil
  requested : d.cancellationRequested = decide (kind = .canceled)
  outcome : validateReceiverOutcome events termination = true
  fits : terminationFits termination = true
  sizes : events.length ≤ 1024 ∧
    (events.all fun event => event.jsonBytes ≤ maxAtomicJsonBytes) = true
  capacity : (s.putDispatch { d with
    inbox := some (inbox.complete events termination kind now)
    intent := d.answeredIntent kind now }).inboxBytes ≤ maxStoreJsonBytes

/-- The dispatch is leased, its task has not moved, and the outcome is well formed and
continues the stored stream. -/
structure DeliverEnabled (o decoded : HashOrder) (row : TaskRow) (d : Dispatch)
    (attempts : List AttemptRow) (task : Task) (result : SendMessageResponse)
    (frames : List StreamResponse) (now : Int) (s : Store) : Prop extends Concerns row d s where
  leased : d.state = .leased
  current : row.revision = d.causativeRevision
  closes : List.Forall₂ (AttemptRow.ClosesTo now) d.attempts attempts
  sameTask : task.id = row.task.id
  closed : isDispatchClosed task.status.state = true
  final : finalResultMatchesTask result task = true
  size : task.jsonBytes ≤ maxTaskJsonBytes
  terminal : validateTerminalPublicTranscript frames task = true
  sizes : (encodeFrames o frames).utf8ByteSize ≤ maxStoreJsonBytes ∧
    (frames.all fun frame => frame.jsonBytes ≤ maxAtomicJsonBytes) = true
  continues : ∀ transcript ∈ d.transcript,
    loadPublicStreamFrames decoded transcript d.record.finalResult =
        .ok (transcript.frames.map FrameRow.frame) ∧
      transcript.frames.map FrameRow.frame <+: frames

/-- The receiver is at work and was not asked before. -/
structure RequestEnabled (d : Dispatch) (now : Int) (s : Store) : Prop where
  mem : d ∈ s.dispatches
  active : d.active = true
  unasked : d.intent = none
  live : ∃ inbox ∈ d.inbox, inbox.live now = true

/-- The task is unfinished and no receiver is at work on it or has finished it. -/
structure CancelEnabled (decoded : HashOrder) (row : TaskRow) (d : Dispatch) (now : Int)
    (s : Store) : Prop extends Concerns row d s where
  unfinished : row.task.status.state.isTerminal = false
  serves : d.serves row.task.status.state
  idle : d.active = true → ∀ inbox ∈ d.inbox,
    inbox.state.isCompleted = false ∧ inbox.live now = false
  size : (canceledTask row.task d.dispatchId now).jsonBytes ≤ maxTaskJsonBytes
  intact : d.active = true → ∀ transcript ∈ d.transcript,
    loadPublicStreamFrames decoded transcript d.record.finalResult =
        .ok (transcript.frames.map FrameRow.frame) ∧
      validateTerminalPublicTranscript (transcript.frames.map FrameRow.frame ++
        [statusFrame (canceledTask row.task d.dispatchId now)])
        (canceledTask row.task d.dispatchId now) = true

/-- What an operation has checked when it makes a change. -/
def Enabled (cfg : Config) (now : Int) (s : Store) : Change → Prop
  | admission o auth digest payload command =>
    AdmitEnabled cfg auth digest payload command now s ∧
      ((admission o auth digest payload command).run cfg now s).streamBytes ≤
        maxStoreJsonBytes ∧
      ((admission o auth digest payload command).run cfg now s).atomicFits = true
  | resume o auth digest payload command row =>
    ResumeEnabled cfg auth digest payload command row now s ∧
      ((resume o auth digest payload command row).run cfg now s).streamBytes ≤
        maxStoreJsonBytes ∧
      ((resume o auth digest payload command row).run cfg now s).atomicFits = true
  | lease d _ _ leaseUntil => d ∈ s.dispatches ∧ d.claimable now = true ∧ now < leaseUntil
  | release d _ _ leaseUntil => d ∈ s.dispatches ∧ d.state = .leased ∧ now ≤ leaseUntil
  | retry d attempts error _ => d ∈ s.dispatches ∧ d.state = .leased ∧
      d.attemptCount < d.maxAttempts ∧ d.cancellationRequested = false ∧
      List.Forall₂ (AttemptRow.ClosesTo now) d.attempts attempts ∧
      error.utf8ByteSize ≤ maxAtomicTextBytes
  | deadLetter row d attempts error messageId =>
    DeadLetterEnabled row d attempts error messageId now s ∧
      ((deadLetter row d attempts error messageId).run cfg now s).streamBytes ≤
        maxStoreJsonBytes
  | progress o decoded d transcript frame =>
    ProgressEnabled decoded d transcript frame s ∧
      ((progress o decoded d transcript frame).run cfg now s).streamBytes ≤ maxStoreJsonBytes
  | accept d inbox => AcceptEnabled d inbox now s
  | reclaim d old inbox => ReclaimEnabled d old inbox now s
  | complete d inbox kind events termination =>
    CompleteEnabled d inbox kind events termination now s
  | deliver o decoded row d attempts task result frames =>
    DeliverEnabled o decoded row d attempts task result frames now s ∧
      ((deliver o decoded row d attempts task result frames).run cfg now s).streamBytes ≤
        maxStoreJsonBytes
  | request d => RequestEnabled d now s
  | cancel decoded row d => CancelEnabled decoded row d now s ∧
      ((cancel decoded row d).run cfg now s).streamBytes ≤ maxStoreJsonBytes
  | audit _ => True
  | voidLeases => True
  | abandon => ∀ d ∈ s.dispatches, d.state = .leased → d.receiverAccepted = false →
      d.attemptCount < d.maxAttempts

end Change

/-- One enabled change. -/
def Changes (cfg : Config) (now : Int) (s s' : Store) : Prop :=
  ∃ change : Change, change.Enabled cfg now s ∧ change.run cfg now s = s'

/-- One enabled change that stores nothing a worker computed. -/
def OrdinaryChanges (cfg : Config) (now : Int) (s s' : Store) : Prop :=
  ∃ change : Change, change.ordinary = true ∧ change.Enabled cfg now s ∧ change.run cfg now s = s'

theorem OrdinaryChanges.changes {cfg : Config} {now : Int} {s s' : Store}
    (h : Relation.ReflTransGen (OrdinaryChanges cfg now) s s') :
    Relation.ReflTransGen (Changes cfg now) s s' := by
  apply Relation.ReflTransGen.mono _ _ _ h
  rintro a b ⟨change, -, henabled, hrun⟩
  exact ⟨change, henabled, hrun⟩

end Effects

end SmeshDurable
