import SmeshDurable.Store.Recovery
import SmeshDurable.Library.Timed

/-!
# The store as a clocked system

Every durable operation with all its inputs, random choices included, and the system
whose actions they are. A failed operation leaves the database as it was.
-/

namespace SmeshDurable

/-- A call of a durable operation. -/
inductive Operation where
  | admitSendMessage (o : HashOrder) (auth : Option Authorization)
      (command : SendMessageAdmission)
  | admitContinuation (o : HashOrder) (auth : Option Authorization)
      (command : SendMessageAdmission)
  | replayAuthorized (auth : Authorization) (request : SendMessageRequest) (streaming : Bool)
      (now : Int)
  | claimOutbox (owner : String) (now duration : Int) (entropy : List UInt8) (messageId : String)
  | finishOutboxAttempt (lease : OutboxLease) (disposition : AttemptDisposition) (now : Int)
      (entropy : List UInt8) (messageId : String)
  | appendStreamProgress (o decoded : HashOrder) (tenantScope dispatchId : String)
      (frame : StreamResponse) (now : Int)
  | beginReceive (envelope : DurableDispatchEnvelope) (owner : String) (now duration : Int)
      (entropy : List UInt8)
  | completeReceive (lease : ReceiverLease) (events : List MeshEvent) (now : Int)
  | completeLoopbackOutcome (lease : ReceiverLease) (events : List MeshEvent)
      (termination : DurableReceiverTermination) (now : Int)
  | completeCanceledReceive (lease : ReceiverLease) (events : List MeshEvent) (now : Int)
  | commitDelivery (o decoded : HashOrder) (lease : OutboxLease) (task : Task)
      (result : SendMessageResponse) (frames : List StreamResponse) (now : Int)
  | requestCancellation (decoded : HashOrder) (auth : Option Authorization) (taskId : String)
      (now : Int)
  | recoverOrphanedTasks (choices : RecoveryChoices) (now : Int)

namespace Operation

/-- The clock an operation is called at. -/
def now : Operation → Int
  | admitSendMessage _ _ command => command.now
  | admitContinuation _ _ command => command.now
  | replayAuthorized _ _ _ now => now
  | claimOutbox _ now _ _ _ => now
  | finishOutboxAttempt _ _ now _ _ => now
  | appendStreamProgress _ _ _ _ _ now => now
  | beginReceive _ _ now _ _ => now
  | completeReceive _ _ now => now
  | completeLoopbackOutcome _ _ _ now => now
  | completeCanceledReceive _ _ now => now
  | commitDelivery _ _ _ _ _ _ now => now
  | requestCancellation _ _ _ now => now
  | recoverOrphanedTasks _ now => now

section

variable [ContentDigest] (cfg : Config)

/-- The database after a successful call, or nothing. -/
def exec (s : Store) : Operation → Option Store
  | admitSendMessage o auth command =>
    (SmeshDurable.admitSendMessage o cfg auth command s).toOption.map Prod.snd
  | admitContinuation o auth command =>
    (SmeshDurable.admitContinuation o cfg auth command s).toOption.map Prod.snd
  | replayAuthorized auth request streaming _ =>
    (SmeshDurable.replayAuthorized auth request streaming s).toOption.map Prod.snd
  | claimOutbox owner now duration entropy messageId =>
    (SmeshDurable.claimOutbox owner now duration entropy messageId s).toOption.map Prod.snd
  | finishOutboxAttempt lease disposition now entropy messageId =>
    (SmeshDurable.finishOutboxAttempt lease disposition now entropy messageId
      s).toOption.map Prod.snd
  | appendStreamProgress o decoded tenantScope dispatchId frame now =>
    (SmeshDurable.appendStreamProgress o decoded tenantScope dispatchId frame now
      s).toOption.map Prod.snd
  | beginReceive envelope owner now duration entropy =>
    (SmeshDurable.beginReceive envelope owner now duration entropy s).toOption.map Prod.snd
  | completeReceive lease events now =>
    (SmeshDurable.completeReceive lease events now s).toOption.map Prod.snd
  | completeLoopbackOutcome lease events termination now =>
    (SmeshDurable.completeLoopbackOutcome lease events termination now
      s).toOption.map Prod.snd
  | completeCanceledReceive lease events now =>
    (SmeshDurable.completeCanceledReceive lease events now s).toOption.map Prod.snd
  | commitDelivery o decoded lease task result frames now =>
    (SmeshDurable.commitDelivery o decoded lease task result frames now
      s).toOption.map Prod.snd
  | requestCancellation decoded auth taskId now =>
    (SmeshDurable.requestCancellation decoded
      (auth.elim (localCancellation cfg) authorizedCancellation) taskId now
      s).toOption.map Prod.snd
  | recoverOrphanedTasks choices now =>
    (SmeshDurable.recoverOrphanedTasks choices now s).toOption

end

end Operation

/-- The store under its durable operations. -/
def system [ContentDigest] (cfg : Config) : Clocked Store Operation where
  time := Operation.now
  next s op := (op.exec cfg s).getD s

/-- The states reached from an empty database by operations that are `allowed` where they
are called, on a clock that never goes back. -/
def ReachableBy [ContentDigest] (cfg : Config) (allowed : Store → Operation → Prop) (s : Store)
    (now : Int) : Prop :=
  ∃ start, (system cfg).Run allowed Store.empty start s now

/-- The states reached from an empty database by any operations. -/
def Reachable [ContentDigest] (cfg : Config) (s : Store) (now : Int) : Prop :=
  ReachableBy cfg (fun _ _ => True) s now

end SmeshDurable
