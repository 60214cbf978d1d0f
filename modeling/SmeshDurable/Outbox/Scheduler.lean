import Mathlib.Data.Prod.Lex
import Mathlib.Data.String.Basic
import SmeshDurable.Library.Keyed
import SmeshDurable.Library.Ranked
import SmeshDurable.Library.Timed

/-!
# Claiming work for tenants

The outbox of the shared database holds the dispatches of all tenants, and one row of its scheduler
for each tenant counts how often the tenant was served. A claim picks the tenant with due work that
comes first by its row, leases the oldest due dispatch of it and advances the row.
-/

namespace SmeshDurable.Outbox

open Ranked

/-! ## Tables -/

/-- The state of a dispatch; a leased one names its lease. -/
inductive DispatchState where
  | pending
  | leased (owner token : String) (leaseUntil : Int)
  | delivered
  | dead
  | superseded
deriving DecidableEq, Repr

structure DispatchRow where
  tenantScope : String
  outboxId : Nat
  dispatchId : String
  taskId : String
  payloadJson : String
  state : DispatchState
  attemptCount : Nat
  maxAttempts : Nat
  availableAt : Int
deriving DecidableEq, Repr

/-- What a receiver has of a dispatch: a lease that runs until then, or none once it completed. -/
structure InboxRow where
  tenantScope : String
  dispatchId : String
  taskId : String
  processingUntil : Option Int
  senderAttemptNo : Nat
  senderLeaseToken : String
deriving DecidableEq, Repr

structure AttemptRow where
  tenantScope : String
  outboxId : Nat
  attemptNo : Nat
  leaseToken : String
  startedAt : Int
  finishedAt : Option Int
deriving DecidableEq, Repr

structure SchedulerRow where
  tenantScope : String
  virtualFinish : Nat
  servedSequence : Nat
deriving DecidableEq, Repr

/-- The tables a claim reads and writes, and the last value of the sequence of services. -/
structure Tables where
  outbox : List DispatchRow
  inbox : List InboxRow
  attempts : List AttemptRow
  scheduler : List SchedulerRow
  servedSequence : Nat

def Tables.empty : Tables := ⟨[], [], [], [], 0⟩

/-! ## Due work -/

section Due

variable (s : Tables) (now : Int)

/-- A receiver still works on a dispatch. -/
def Tables.isReceiving (o : DispatchRow) : Bool :=
  s.inbox.any fun r => r.tenantScope = o.tenantScope ∧ r.dispatchId = o.dispatchId ∧
    r.taskId = o.taskId ∧ ∃ leaseUntil ∈ r.processingUntil, now < leaseUntil

/-- A dispatch that may be claimed: it waits, or its lease ran out and an attempt is left or no
receiver works on it. -/
def Tables.isDue (o : DispatchRow) : Bool :=
  match o.state with
  | .pending => o.availableAt ≤ now ∧ o.attemptCount < o.maxAttempts
  | .leased _ _ leaseUntil =>
    leaseUntil ≤ now ∧ (o.attemptCount < o.maxAttempts ∨ s.isReceiving now o = false)
  | _ => false

/-- The last lease of a dispatch ran out. -/
def DispatchRow.wasFinal (o : DispatchRow) : Bool :=
  match o.state with
  | .leased _ _ leaseUntil => leaseUntil ≤ now ∧ o.maxAttempts ≤ o.attemptCount
  | _ => false

/-- Whether a tenant has due work. -/
def Tables.hasDue (tenant : String) : Bool :=
  s.outbox.any fun o => o.tenantScope = tenant ∧ s.isDue now o

end Due

/-! ## Claims -/

def SchedulerRow.rank (row : SchedulerRow) : Nat ×ₗ Nat ×ₗ String :=
  toLex (row.virtualFinish, toLex (row.servedSequence, row.tenantScope))

def DispatchRow.rank (o : DispatchRow) : Int ×ₗ Nat := toLex (o.availableAt, o.outboxId)

/-- What a claim returns. The number of a final attempt is given as negative. -/
structure Claimed where
  tenantScope : String
  outboxId : Nat
  dispatchId : String
  taskId : String
  attemptNo : Int
  maxAttempts : Nat
  payloadJson : String
deriving DecidableEq, Repr

section Claims

variable (s : Tables) (now : Int) (owner token : String) (leaseUntil : Int)

def selectedTenant : Option SchedulerRow :=
  (sortOn SchedulerRow.rank (s.scheduler.filter fun row => s.hasDue now row.tenantScope)).head?

def candidate (tenant : String) : Option DispatchRow :=
  (sortOn DispatchRow.rank (s.outbox.filter fun o => o.tenantScope = tenant ∧ s.isDue now o)).head?

def DispatchRow.nextAttempt (o : DispatchRow) : Nat :=
  if o.attemptCount < o.maxAttempts then o.attemptCount + 1 else o.attemptCount

/-- The row of an attempt, which may be started a second time. -/
def startAttempt (attempts : List AttemptRow) (o : DispatchRow) : List AttemptRow :=
  attempts.filter (fun a => ¬ (a.tenantScope = o.tenantScope ∧ a.outboxId = o.outboxId ∧
    a.attemptNo = o.nextAttempt)) ++ [⟨o.tenantScope, o.outboxId, o.nextAttempt, token, now, none⟩]

/-- Lease a dispatch of a tenant and advance its row. -/
def leaseDispatch (row : SchedulerRow) (o : DispatchRow) : Tables where
  outbox := s.outbox.map fun other =>
    if other.tenantScope = o.tenantScope ∧ other.outboxId = o.outboxId then
      { other with state := .leased owner token leaseUntil, attemptCount := other.nextAttempt }
    else other
  inbox := s.inbox.map fun r =>
    if o.wasFinal now ∧ r.tenantScope = o.tenantScope ∧ r.dispatchId = o.dispatchId ∧
        r.taskId = o.taskId ∧ r.senderAttemptNo = o.nextAttempt then
      { r with senderLeaseToken := token }
    else r
  attempts := startAttempt now token s.attempts o
  scheduler := s.scheduler.map fun other =>
    if other.tenantScope = row.tenantScope then
      { other with
        virtualFinish := other.virtualFinish + 1
        servedSequence := s.servedSequence + 1 }
    else other
  servedSequence := s.servedSequence + 1

def claimedOf (o : DispatchRow) : Claimed :=
  ⟨o.tenantScope, o.outboxId, o.dispatchId, o.taskId,
    if o.wasFinal now then -o.nextAttempt else o.nextAttempt, o.maxAttempts, o.payloadJson⟩

def claimOutboxBounded : Tables × Option Claimed :=
  match selectedTenant s now with
  | none => (s, none)
  | some row =>
    match candidate s now row.tenantScope with
    | none => (s, none)
    | some o => (leaseDispatch s now owner token leaseUntil row o, some (claimedOf now o))

end Claims

/-- The trigger on new dispatches: every tenant has a row, and a new one starts at zero. -/
def ensureOutboxTenantScheduler (s : Tables) (tenant : String) : Tables :=
  if ∃ row ∈ s.scheduler, row.tenantScope = tenant then s
  else { s with scheduler := s.scheduler ++ [⟨tenant, 0, 0⟩] }

/-- A new dispatch. -/
def enqueue (s : Tables) (o : DispatchRow) : Tables :=
  ensureOutboxTenantScheduler { s with outbox := s.outbox ++ [o] } o.tenantScope

/-! ## The system -/

/-- The transactions on the outbox. Those that finish, renew, retry or supersede dispatches set their
state and time and write their attempts, and those of receivers write the inbox; none of them
writes the scheduler. -/
inductive Call where
  | enqueue (row : DispatchRow) (now : Int)
  | claim (owner token : String) (leaseUntil now : Int)
  | settle (outcome : DispatchRow → DispatchState × Int) (attempts : List AttemptRow) (now : Int)
  | receive (inbox : List InboxRow) (now : Int)

namespace Call

def time : Call → Int
  | enqueue _ now | claim _ _ _ now | settle _ _ now | receive _ now => now

def run (s : Tables) : Call → Tables
  | enqueue o _ => Outbox.enqueue s o
  | claim owner token leaseUntil now => (claimOutboxBounded s now owner token leaseUntil).1
  | settle outcome attempts _ =>
    { s with
      outbox := s.outbox.map fun o =>
        { o with state := (outcome o).1, availableAt := (outcome o).2 }
      attempts }
  | receive inbox _ => { s with inbox }

/-- The tenant a call serves. -/
def served (s : Tables) : Call → Option String
  | claim owner token leaseUntil now =>
    (claimOutboxBounded s now owner token leaseUntil).2.map Claimed.tenantScope
  | _ => none

end Call

/-- One claimer at a time. -/
def outboxSystem : Clocked Tables Call where
  time := Call.time
  next := Call.run

/-- The tenants served by calls, one after another. -/
def services : Tables → List Call → List String
  | _, [] => []
  | s, call :: rest => (call.served s).toList ++ services (call.run s) rest

end SmeshDurable.Outbox
