import SmeshDurable.Library.Unfold
import SmeshDurable.Store.Stream

/-!
# The streams of the request handler

Both streams of the durable handler unfold a state in a loop: a stream of a message reads
its transcript by position, a stream of a task its events by revision. What the loop asks
of the outside in one turn (the failure a quota lease holds, the egress charge, the read,
the health of the driver) is an argument, so that a run takes any sequence of answers.
-/

namespace SmeshDurable

open Transaction

/-! ## Quota -/

/-- How the quota authority answers a charge or a lease request. -/
inductive QuotaReply where
  | unserializable
  | tooLarge
  | noSubject
  | noIntent
  | timedOut
  | answered (outcome : Except A2AError Unit)
deriving DecidableEq

def quotaAuthorityUnavailable : A2AError :=
  .quotaAuthorityUnavailable "quota authority unavailable"

def QuotaReply.outcome : QuotaReply → Except A2AError Unit
  | .unserializable => .error (.internal "failed to serialize public quota egress")
  | .tooLarge => .error (.invalidRequest "public quota egress is too large")
  | .noSubject | .noIntent | .timedOut => .error quotaAuthorityUnavailable
  | .answered outcome => outcome

/-- What does not change while a request is served. -/
structure StreamContext where
  quotaPolicy : Bool
  authorization : Bool
  localCompatibility : Bool
  errorsBeforeStream : Bool
deriving DecidableEq

namespace StreamContext

def emitStreamErrors (c : StreamContext) : Bool := !c.errorsBeforeStream

def chargePublicEgress (c : StreamContext) (reply : QuotaReply) : Except A2AError Unit :=
  if c.quotaPolicy = false then .ok ()
  else if c.authorization = false then .error quotaAuthorityUnavailable
  else reply.outcome

/-- Only an authorized request is charged. -/
def chargeRequest (c : StreamContext) (reply : QuotaReply) : Except A2AError Unit :=
  if c.authorization && c.quotaPolicy then reply.outcome else .ok ()

/-- Whether the stream holds a quota lease. -/
def acquireQuotaStreamLease (c : StreamContext) (reply : QuotaReply) : Except A2AError Bool := do
  if c.quotaPolicy = false then .ok false
  else
    require (c.authorization = true) quotaAuthorityUnavailable
    reply.outcome
    .ok true

/-- A read goes to the scoped store of an authorized request, else to the local one. -/
def readBatch {Batch : Type} (c : StreamContext) (answer : Except A2AError Batch) :
    Except A2AError Batch :=
  if c.authorization || c.localCompatibility then answer
  else .error (.internal "local development compatibility is unavailable")

end StreamContext

/-! ## Turns -/

/-- What the outside answers in one turn, to whatever the turn asks. -/
structure StreamAnswers where
  leaseFailure : Option A2AError
  egress : QuotaReply
  transcript : Except A2AError StreamTranscriptBatch
  events : Except A2AError TaskEventBatch
  driverFailure : Option String
  driverRunning : Bool

/-- The calls a turn makes, with their outcomes. -/
inductive StreamCall where
  | charge (frame : StreamResponse) (outcome : Except A2AError Unit)
  | read (cursor : Nat) (frames : Except A2AError (List StreamResponse))

abbrev StreamItem := Except A2AError StreamResponse

def projectTask (task : Task) (historyLength : Option Int) : Task :=
  match historyLength with
  | none => task
  | some length =>
    if length = 0 then { task with history := none }
    else if length < 0 then task
    else { task with history := task.history.map fun history =>
             history.drop (history.length - length.toNat) }

def projectStreamResponse (frame : StreamResponse) (historyLength : Option Int) : StreamResponse :=
  match frame with
  | .task task => .task (projectTask task historyLength)
  | frame => frame

/-- The state of a stream of a message. -/
structure DurableStreamState where
  context : StreamContext
  lastSequence : Nat
  pending : List StreamResponse
  closed : Bool
  finished : Bool
  interruption : Option String
  historyLength : Option Int
  quotaLease : Bool

/-- A failure that is reported only when the transport takes errors inside a stream. -/
def DurableStreamState.fail (st : DurableStreamState) (error : A2AError) :
    Turn DurableStreamState StreamItem :=
  if st.context.emitStreamErrors then .item (.error error) { st with finished := true }
  else .done

/-- One turn of `stream_from_message`. -/
def DurableStreamState.turn (st : DurableStreamState) (a : StreamAnswers) :
    List StreamCall × Turn DurableStreamState StreamItem :=
  if st.finished then ([], .done)
  else match a.leaseFailure.filter fun _ => st.quotaLease with
    | some error => ([], .item (.error error) { st with finished := true })
    | none =>
      match st.pending with
      | frame :: rest =>
        let outcome := st.context.chargePublicEgress a.egress
        match outcome with
        | .error error =>
          ([.charge frame outcome],
            .item (.error error) { st with pending := rest, finished := true })
        | .ok () =>
          ([.charge frame outcome], .item (.ok frame)
            { st with pending := rest, lastSequence := st.lastSequence + 1 })
      | [] =>
        if st.closed then
          match st.interruption with
          | some error =>
            ([], { st with interruption := none }.fail (.internal error))
          | none => ([], .done)
        else
          let read := st.context.readBatch a.transcript
          let calls := [.read st.lastSequence (read.map StreamTranscriptBatch.frames)]
          match read with
          | .error error => (calls, st.fail error)
          | .ok batch =>
            let st' := { st with
              closed := batch.closed
              interruption := batch.interruption
              pending := st.pending ++
                batch.frames.map (projectStreamResponse · st.historyLength) }
            if st'.pending ≠ [] ∨ st'.closed then (calls, .again st')
            else match a.driverFailure with
              | some failure => (calls, st'.fail (.internal failure))
              | none =>
                if a.driverRunning then (calls, .again st')
                else (calls, st'.fail (.internal "durable outbox driver stopped"))

/-- The state of a stream of a task. -/
structure DurableTaskEventStreamState where
  context : StreamContext
  lastRevision : Nat
  pending : List StreamResponse
  closed : Bool
  quotaLease : Bool

def DurableTaskEventStreamState.fail (st : DurableTaskEventStreamState) (error : A2AError) :
    Turn DurableTaskEventStreamState StreamItem :=
  if st.context.emitStreamErrors then .item (.error error) { st with closed := true }
  else .done

/-- One turn of `stream_from_task_revision`. There is no finished flag: a refused charge
closes the stream and keeps what is pending, and the lease is looked at first also when the
stream is closed. -/
def DurableTaskEventStreamState.turn (st : DurableTaskEventStreamState) (a : StreamAnswers) :
    List StreamCall × Turn DurableTaskEventStreamState StreamItem :=
  match a.leaseFailure.filter fun _ => st.quotaLease with
  | some error =>
    ([], .item (.error error) { st with quotaLease := false, pending := [], closed := true })
  | none =>
    match st.pending with
    | frame :: rest =>
      let outcome := st.context.chargePublicEgress a.egress
      match outcome with
      | .error error =>
        ([.charge frame outcome],
          .item (.error error) { st with pending := rest, closed := true })
      | .ok () => ([.charge frame outcome], .item (.ok frame) { st with pending := rest })
    | [] =>
      if st.closed then ([], .done)
      else
        let read := st.context.readBatch a.events
        let calls := [.read st.lastRevision (read.map TaskEventBatch.frames)]
        match read with
        | .error error => (calls, st.fail error)
        | .ok batch =>
          let st' := { st with
            lastRevision := batch.lastRevision
            closed := batch.closed
            pending := st.pending ++ batch.frames }
          if st'.pending ≠ [] ∨ st'.closed then (calls, .again st')
          else match a.driverFailure with
            | some failure => (calls, st'.fail (.internal failure))
            | none =>
              if a.driverRunning then (calls, .again st')
              else (calls, st'.fail (.internal "durable outbox driver stopped"))

def messageUnfold : Unfold DurableStreamState StreamAnswers StreamCall StreamItem :=
  ⟨DurableStreamState.turn⟩

def revisionUnfold : Unfold DurableTaskEventStreamState StreamAnswers StreamCall StreamItem :=
  ⟨DurableTaskEventStreamState.turn⟩

/-- A stream of one item. -/
def onceUnfold : Unfold (Option StreamItem) StreamAnswers StreamCall StreamItem :=
  ⟨fun st _ => match st with
    | some value => ([], .item value none)
    | none => ([], .done)⟩

/-! ## Streams the handler returns -/

/-- A stream as the handler returns it: an error alone, or the snapshot of a subscription
and the frames after it. -/
inductive DurableStream where
  | refusal (error : A2AError)
  | message (snapshot : Option Task) (state : DurableStreamState)
  | revision (snapshot : Task) (state : DurableTaskEventStreamState)

def streamFromMessage (c : StreamContext) (lastSequence : Nat) (historyLength : Option Int)
    (quotaLease : Bool) : DurableStreamState :=
  { context := c, lastSequence, pending := [], closed := false, finished := false,
    interruption := none, historyLength, quotaLease }

def streamFromTaskRevision (c : StreamContext) (lastRevision : Nat) (quotaLease : Bool) :
    DurableTaskEventStreamState :=
  { context := c, lastRevision, pending := [], closed := false, quotaLease }

/-- Quota errors are always returned before a stream is. -/
def preflightStreamError (c : StreamContext) (error : A2AError) :
    Except A2AError DurableStream :=
  match error with
  | .quotaExceeded _ | .quotaAuthorityUnavailable _ => .error error
  | _ => if c.errorsBeforeStream then .error error else .ok (.refusal error)

/-- What `send_streaming_message` learns before it streams: a refusal of the request or its
caller, the outcome of the admission and the reply to the lease request. -/
structure SendAnswers where
  refused : Option A2AError
  admitted : Except A2AError Unit
  lease : QuotaReply
  historyLength : Option Int

def sendStreamingMessage (c : StreamContext) (a : SendAnswers) :
    Except A2AError DurableStream :=
  match a.refused with
  | some error => .error error
  | none =>
    match a.admitted with
    | .error error => preflightStreamError c error
    | .ok () =>
      match c.acquireQuotaStreamLease a.lease with
      | .error error => preflightStreamError c error
      | .ok quotaLease =>
        .ok (.message none (streamFromMessage c 0 a.historyLength quotaLease))

/-- What `subscribe_to_task` learns before it streams. -/
structure SubscribeAnswers where
  refused : Option A2AError
  driverFailure : Option String
  tenant : Option String
  requestCharge : QuotaReply
  snapshot : Except A2AError (Option (Task × SubscriptionCursor))
  lease : QuotaReply
  egress : QuotaReply

/-- Fail with the error there is. -/
def reject (error : Option A2AError) : Except A2AError Unit :=
  match error with
  | some error => .error error
  | none => .ok ()

def subscribeToTask (c : StreamContext) (taskId : String) (a : SubscribeAnswers) :
    Except A2AError DurableStream := do
  reject a.refused
  reject (a.driverFailure.map .internal)
  require (a.tenant = none)
    (.invalidParams "tenant is not supported by the single-tenant gateway")
  c.chargeRequest a.requestCharge
  let captured ← a.snapshot
  let (snapshot, cursor) ← expect captured
    (.taskNotFound (if c.authorization then "resource" else taskId))
  require (snapshot.status.state.isTerminal = false)
    (.unsupportedOperation "terminal tasks cannot be subscribed")
  let quotaLease ← c.acquireQuotaStreamLease a.lease
  c.chargePublicEgress a.egress
  match cursor with
  | .transcript _ position =>
    .ok (.message (some snapshot) (streamFromMessage c position none quotaLease))
  | .taskRevision revision =>
    .ok (.revision snapshot (streamFromTaskRevision c revision quotaLease))

end SmeshDurable
