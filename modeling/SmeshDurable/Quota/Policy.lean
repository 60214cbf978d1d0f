import SmeshDurable.Library.Ranked
import SmeshDurable.Library.TextLines
import SmeshDurable.Store.Schema

/-!
# Quota policies

The policy document an operator supplies: a limit for every dimension and scope, and overrides of
single limits for a time. A policy is a document that passed its checks; limits, the overrides in
force and the charges of an operation are read off it.
-/

namespace SmeshDurable.Quota

open Ranked Transaction TextLines
open Json (number)

/-! ## Vocabulary -/

inductive QuotaOperation where
  | taskCreate
  | taskContinue
  | taskCancel
  | taskGet
  | taskList
  | sendStream
  | subscribe
  | reconnect
  | publicEgress
deriving DecidableEq, Repr

def QuotaOperation.asStr : QuotaOperation → String
  | taskCreate => "taskCreate"
  | taskContinue => "taskContinue"
  | taskCancel => "taskCancel"
  | taskGet => "taskGet"
  | taskList => "taskList"
  | sendStream => "sendStream"
  | subscribe => "subscribe"
  | reconnect => "reconnect"
  | publicEgress => "publicEgress"

inductive QuotaDimension where
  | requestCount
  | concurrentActiveWork
  | inputBytes
  | outputBytes
  | eventCount
  | concurrentStreams
  | concurrentSubscriptions
  | reconnectCount
  | retainedAuthorityBytes
deriving DecidableEq, Repr

namespace QuotaDimension

def asStr : QuotaDimension → String
  | requestCount => "requestCount"
  | concurrentActiveWork => "concurrentActiveWork"
  | inputBytes => "inputBytes"
  | outputBytes => "outputBytes"
  | eventCount => "eventCount"
  | concurrentStreams => "concurrentStreams"
  | concurrentSubscriptions => "concurrentSubscriptions"
  | reconnectCount => "reconnectCount"
  | retainedAuthorityBytes => "retainedAuthorityBytes"

/-- The place in the declared order. -/
def rank : QuotaDimension → Nat
  | requestCount => 0
  | concurrentActiveWork => 1
  | inputBytes => 2
  | outputBytes => 3
  | eventCount => 4
  | concurrentStreams => 5
  | concurrentSubscriptions => 6
  | reconnectCount => 7
  | retainedAuthorityBytes => 8

end QuotaDimension

inductive QuotaScopeKind where
  | tenant
  | account
  | principal
deriving DecidableEq, Repr

namespace QuotaScopeKind

def asStr : QuotaScopeKind → String
  | tenant => "tenant"
  | account => "account"
  | principal => "principal"

def rank : QuotaScopeKind → Nat
  | tenant => 0
  | account => 1
  | principal => 2

end QuotaScopeKind

inductive QuotaAlgorithm where
  | fixedWindow
  | tokenBucket
  | gauge
deriving DecidableEq, Repr

inductive QuotaLeaseKind where
  | messageStream
  | taskSubscription
deriving DecidableEq, Repr

namespace QuotaLeaseKind

def asStr : QuotaLeaseKind → String
  | messageStream => "messageStream"
  | taskSubscription => "taskSubscription"

def dimension : QuotaLeaseKind → QuotaDimension
  | messageStream => .concurrentStreams
  | taskSubscription => .concurrentSubscriptions

end QuotaLeaseKind

inductive QuotaPolicyError where
  | invalid
  | unavailable
deriving DecidableEq, Repr

def maxPolicyBytes : Nat := 256 * 1024
def maxRateCap : Nat := 1000000
def maxConcurrencyCap : Nat := 4096
def maxByteCap : Nat := 64 * 1024 * 1024
def maxEventCap : Nat := 1000000
def maxWindowMillis : Nat := 24 * 60 * 60 * 1000

/-! ## The document -/

structure LimitPair where
  tenant : Nat
  account : Nat
  principal : Nat
deriving DecidableEq, Repr

structure Limits where
  requestCount : LimitPair
  concurrentActiveWork : LimitPair
  inputBytes : LimitPair
  outputBytes : LimitPair
  eventCount : LimitPair
  concurrentStreams : LimitPair
  concurrentSubscriptions : LimitPair
  reconnectCount : LimitPair
  retainedAuthorityBytes : LimitPair
deriving DecidableEq, Repr

structure OverrideDocument where
  overrideId : String
  actor : String
  reason : String
  scopeKind : QuotaScopeKind
  scopeId : String
  operation : QuotaOperation
  dimension : QuotaDimension
  oldLimit : Nat
  newLimit : Nat
  effectiveAt : Int
  expiresAt : Int
deriving DecidableEq, Repr

structure PolicyDocument where
  schemaVersion : String
  policyId : String
  revision : Nat
  requestWindowMillis : Nat
  reconnectWindowMillis : Nat
  limits : Limits
  overrides : List OverrideDocument
deriving DecidableEq, Repr

def LimitPair.toJson (p : LimitPair) : Json :=
  .obj [("tenant", number p.tenant), ("account", number p.account), ("principal", number p.principal)]

def Limits.toJson (l : Limits) : Json :=
  .obj [("requestCount", l.requestCount.toJson),
    ("concurrentActiveWork", l.concurrentActiveWork.toJson), ("inputBytes", l.inputBytes.toJson),
    ("outputBytes", l.outputBytes.toJson), ("eventCount", l.eventCount.toJson),
    ("concurrentStreams", l.concurrentStreams.toJson),
    ("concurrentSubscriptions", l.concurrentSubscriptions.toJson),
    ("reconnectCount", l.reconnectCount.toJson),
    ("retainedAuthorityBytes", l.retainedAuthorityBytes.toJson)]

def OverrideDocument.toJson (o : OverrideDocument) : Json :=
  .obj [("overrideId", .str o.overrideId), ("actor", .str o.actor), ("reason", .str o.reason),
    ("scopeKind", .str o.scopeKind.asStr), ("scopeId", .str o.scopeId),
    ("operation", .str o.operation.asStr), ("dimension", .str o.dimension.asStr),
    ("oldLimit", number o.oldLimit), ("newLimit", number o.newLimit),
    ("effectiveAt", .num (toString o.effectiveAt)), ("expiresAt", .num (toString o.expiresAt))]

def PolicyDocument.toJson (d : PolicyDocument) : Json :=
  .obj [("schemaVersion", .str d.schemaVersion), ("policyId", .str d.policyId),
    ("revision", number d.revision), ("requestWindowMillis", number d.requestWindowMillis),
    ("reconnectWindowMillis", number d.reconnectWindowMillis), ("limits", d.limits.toJson),
    ("overrides", .arr (d.overrides.map OverrideDocument.toJson))]

/-! ## Checks -/

def validId (value : String) (max : Nat) : Bool :=
  value ≠ "" && value.utf8ByteSize ≤ max &&
    value.toList.all fun c => c.isAlphanum || ['.', '_', ':', '-'].contains c

def validVisibleAscii (value : String) (max : Nat) : Bool :=
  value ≠ "" && value.utf8ByteSize ≤ max &&
    value.toList.all fun c => 0x20 ≤ c.toNat && c.toNat ≤ 0x7e

/-- The limits of a dimension. -/
def Limits.pair (l : Limits) : QuotaDimension → LimitPair
  | .requestCount => l.requestCount
  | .concurrentActiveWork => l.concurrentActiveWork
  | .inputBytes => l.inputBytes
  | .outputBytes => l.outputBytes
  | .eventCount => l.eventCount
  | .concurrentStreams => l.concurrentStreams
  | .concurrentSubscriptions => l.concurrentSubscriptions
  | .reconnectCount => l.reconnectCount
  | .retainedAuthorityBytes => l.retainedAuthorityBytes

def LimitPair.at (p : LimitPair) : QuotaScopeKind → Nat
  | .tenant => p.tenant
  | .account => p.account
  | .principal => p.principal

/-- The baseline of a dimension in a scope. -/
def PolicyDocument.limit (d : PolicyDocument) (dimension : QuotaDimension) (scope : QuotaScopeKind) :
    Nat := (d.limits.pair dimension).at scope

def dimensionCap : QuotaDimension → Nat
  | .requestCount | .reconnectCount => maxRateCap
  | .concurrentActiveWork | .concurrentStreams | .concurrentSubscriptions => maxConcurrencyCap
  | .eventCount => maxEventCap
  | .inputBytes | .outputBytes | .retainedAuthorityBytes => maxByteCap

/-- Limits are positive, within the cap and no larger than those of the wider scope. -/
def validatePair (p : LimitPair) (cap : Nat) : Except QuotaPolicyError Unit :=
  require (¬ (p.tenant = 0 ∨ p.account = 0 ∨ p.principal = 0 ∨ cap < p.tenant ∨ cap < p.account ∨
    cap < p.principal ∨ p.tenant < p.account ∨ p.account < p.principal)) .invalid

/-- An override by itself, and its identifier among those that came before. -/
def OverrideDocument.valid (d : PolicyDocument) (ids : List String) (o : OverrideDocument) : Bool :=
  validId o.overrideId 128 && validVisibleAscii o.actor 256 && validVisibleAscii o.reason 1024 &&
    validId o.scopeId 256 && o.oldLimit ≠ 0 && o.newLimit ≠ 0 &&
    o.oldLimit ≤ dimensionCap o.dimension && o.newLimit ≤ dimensionCap o.dimension &&
    o.oldLimit == d.limit o.dimension o.scopeKind && 1 ≤ o.effectiveAt &&
    o.effectiveAt < o.expiresAt && !ids.contains o.overrideId

def checkOverrides (d : PolicyDocument) (ids : List String) :
    List OverrideDocument → Except QuotaPolicyError Unit
  | [] => .ok ()
  | o :: rest => do
      require (o.valid d ids) .invalid
      checkOverrides d (o.overrideId :: ids) rest

/-- Two overrides of one limit that are in force at a common instant. -/
def OverrideDocument.overlaps (left right : OverrideDocument) : Bool :=
  left.scopeKind == right.scopeKind && left.scopeId == right.scopeId &&
    left.operation == right.operation && left.dimension == right.dimension &&
    left.effectiveAt < right.expiresAt && right.effectiveAt < left.expiresAt

def overlapping : List OverrideDocument → Bool
  | [] => false
  | left :: rest => rest.any left.overlaps || overlapping rest

/-- All a document is checked for. -/
def PolicyDocument.check (d : PolicyDocument) : Except QuotaPolicyError Unit := do
  require (d.schemaVersion = "smesh-quota-policy/v1" ∧ validId d.policyId 128 ∧ d.revision ≠ 0 ∧
    (1 ≤ d.requestWindowMillis ∧ d.requestWindowMillis ≤ maxWindowMillis) ∧
    (1 ≤ d.reconnectWindowMillis ∧ d.reconnectWindowMillis ≤ maxWindowMillis)) .invalid
  validatePair d.limits.requestCount maxRateCap
  validatePair d.limits.concurrentActiveWork maxConcurrencyCap
  validatePair d.limits.inputBytes maxByteCap
  validatePair d.limits.outputBytes maxByteCap
  validatePair d.limits.eventCount maxEventCap
  validatePair d.limits.concurrentStreams maxConcurrencyCap
  validatePair d.limits.concurrentSubscriptions maxConcurrencyCap
  validatePair d.limits.reconnectCount maxRateCap
  validatePair d.limits.retainedAuthorityBytes maxByteCap
  require (d.overrides.length ≤ 1024) .invalid
  checkOverrides d [] d.overrides
  require (¬ overlapping d.overrides) .invalid

/-! ## Policies -/

/-- Decodes the bytes of a policy file. -/
class PolicyReader where
  read : List UInt8 → Option PolicyDocument

/-- A document that passed the checks, with its text and digest. -/
structure QuotaPolicy [ContentDigest] where
  document : PolicyDocument
  canonicalJson : String
  digest : String
  checked : document.check = .ok ()
  canonical : canonicalJson = document.toJson.render
  hashed : digest = contentDigest (bytes canonicalJson)

/-- Whether an override is of this limit and in force. -/
def OverrideDocument.applies (o : OverrideDocument) (baseline : Nat) (scopeKind : QuotaScopeKind)
    (scopeId : String) (operation : QuotaOperation) (dimension : QuotaDimension)
    (databaseMillis : Int) : Bool :=
  o.scopeKind == scopeKind && o.scopeId == scopeId && o.operation == operation &&
    o.dimension == dimension && o.oldLimit == baseline && o.effectiveAt ≤ databaseMillis &&
    databaseMillis < o.expiresAt

/-- The limit in force: that of the override found, or the baseline. -/
def PolicyDocument.limitAt (d : PolicyDocument) (scopeKind : QuotaScopeKind) (scopeId : String)
    (operation : QuotaOperation) (dimension : QuotaDimension) (databaseMillis : Int) : Nat :=
  let baseline := d.limit dimension scopeKind
  match d.overrides.find? (·.applies baseline scopeKind scopeId operation dimension databaseMillis) with
  | some o => o.newLimit
  | none => baseline

/-- The window a dimension is counted in. -/
def PolicyDocument.windowMillis (d : PolicyDocument) : QuotaDimension → Option Nat
  | .requestCount => some d.requestWindowMillis
  | .reconnectCount => some d.reconnectWindowMillis
  | _ => none

/-- The execution ceiling: the least baseline of the three scopes. -/
def PolicyDocument.executionLimit (d : PolicyDocument) (dimension : QuotaDimension) : Nat :=
  min (min (d.limit dimension .tenant) (d.limit dimension .account)) (d.limit dimension .principal)

/-! ## Intents -/

/-- Whom an operation is charged to. -/
structure QuotaSubject where
  tenantScope : String
  accountId : String
  principalScope : String
  valid : validBoundedIdentity tenantScope ∧ validBoundedIdentity accountId ∧ principalScope ≠ "" ∧
    principalScope.utf8ByteSize ≤ 256 ∧ principalScope.toList.all (·.toNat < 128)
deriving DecidableEq

def QuotaSubject.new (tenantScope accountId principalScope : String) :
    Except QuotaPolicyError QuotaSubject :=
  if h : validBoundedIdentity tenantScope ∧ validBoundedIdentity accountId ∧ principalScope ≠ "" ∧
      principalScope.utf8ByteSize ≤ 256 ∧ principalScope.toList.all (·.toNat < 128) then
    .ok ⟨tenantScope, accountId, principalScope, h⟩
  else .error .invalid

/-- The scopes of a subject, from the widest. -/
def QuotaSubject.scopes (s : QuotaSubject) : List (QuotaScopeKind × String) :=
  [(.tenant, s.tenantScope), (.account, s.accountId), (.principal, s.principalScope)]

structure QuotaCharge where
  scopeKind : QuotaScopeKind
  scopeId : String
  dimension : QuotaDimension
  algorithm : QuotaAlgorithm
  units : Nat
  capacity : Nat
  windowMillis : Option Nat
deriving DecidableEq, Repr

def QuotaCharge.rank (c : QuotaCharge) : Nat ×ₗ String ×ₗ Nat :=
  toLex (c.scopeKind.rank, toLex (c.scopeId, c.dimension.rank))

structure QuotaIntent where
  policyId : String
  policyRevision : Nat
  policyDigest : String
  tenantScope : String
  accountId : String
  principalScope : String
  operation : QuotaOperation
  semanticId : String
  bindingDigest : String
  charges : List QuotaCharge
deriving DecidableEq, Repr

/-- The dimensions an operation is charged in for one scope, with their units. -/
def operationCharges (d : PolicyDocument) (operation : QuotaOperation) (inputBytes : Nat) :
    List (QuotaDimension × QuotaAlgorithm × Nat × Option Nat) :=
  [(.requestCount, .fixedWindow, 1, d.windowMillis .requestCount)] ++
  (if operation = .taskCreate ∨ operation = .sendStream then
    [(.concurrentActiveWork, .gauge, 1, none)] else []) ++
  (if inputBytes ≠ 0 then
    [(.inputBytes, .fixedWindow, inputBytes, d.windowMillis .requestCount)] else []) ++
  (if operation = .taskCreate ∨ operation = .taskContinue ∨ operation = .sendStream then
    [(.outputBytes, .fixedWindow, d.executionLimit .outputBytes, d.windowMillis .requestCount),
     (.eventCount, .fixedWindow, d.executionLimit .eventCount, d.windowMillis .requestCount)]
   else [])

/-- The dimensions of a response that leaves the gateway. -/
def egressCharges (d : PolicyDocument) (outputBytes eventCount : Nat) :
    List (QuotaDimension × QuotaAlgorithm × Nat × Option Nat) :=
  [(.outputBytes, .fixedWindow, outputBytes, d.windowMillis .requestCount),
    (.eventCount, .fixedWindow, eventCount, d.windowMillis .requestCount)]

/-- The dimensions of a stream that is opened, or opened again. -/
def leaseCharges (d : PolicyDocument) (kind : QuotaLeaseKind) (reconnect : Bool) :
    List (QuotaDimension × QuotaAlgorithm × Nat × Option Nat) :=
  (if reconnect then
    [(.reconnectCount, .tokenBucket, 1, d.windowMillis .reconnectCount)] else []) ++
  [(kind.dimension, .gauge, 1, none)]

/-- The charges of a subject: the same dimensions in each of its scopes, in canonical order. -/
def chargesOf (d : PolicyDocument) (subject : QuotaSubject)
    (dimensions : List (QuotaDimension × QuotaAlgorithm × Nat × Option Nat)) : List QuotaCharge :=
  sortOn QuotaCharge.rank (subject.scopes.flatMap fun (scopeKind, scopeId) =>
    dimensions.map fun (dimension, algorithm, units, windowMillis) =>
      { scopeKind, scopeId, dimension, algorithm, units, capacity := d.limit dimension scopeKind,
        windowMillis })

/-- The policy of a document. -/
def policyOf [ContentDigest] (d : PolicyDocument) (h : d.check = .ok ()) : QuotaPolicy :=
  { document := d, canonicalJson := d.toJson.render, digest := contentDigest (bytes d.toJson.render),
    checked := h, canonical := rfl, hashed := rfl }

namespace QuotaPolicy

variable [ContentDigest]

/-- The size of the file is bounded before it is read. -/
def fromJson [PolicyReader] (input : List UInt8) : Except QuotaPolicyError QuotaPolicy :=
  if input = [] ∨ maxPolicyBytes < input.length then .error .invalid
  else
    match PolicyReader.read input with
    | none => .error .invalid
    | some document => if h : document.check = .ok () then .ok (policyOf document h) else .error .invalid

variable (p : QuotaPolicy)

def policyId : String := p.document.policyId

def revision : Nat := p.document.revision

/-- The texts an intent is bound to, each behind the one before. -/
def binding (subject : QuotaSubject) (rest : List String) : String :=
  contentDigest (bytes ("\x00".intercalate
    ([p.digest, subject.tenantScope, subject.accountId, subject.principalScope] ++ rest)))

def intent (subject : QuotaSubject) (operation : QuotaOperation) (semanticId : String)
    (bindingDigest : String)
    (dimensions : List (QuotaDimension × QuotaAlgorithm × Nat × Option Nat)) : QuotaIntent :=
  { policyId := p.policyId, policyRevision := p.revision, policyDigest := p.digest,
    tenantScope := subject.tenantScope, accountId := subject.accountId,
    principalScope := subject.principalScope, operation, semanticId, bindingDigest,
    charges := chargesOf p.document subject dimensions }

def operationIntent (subject : QuotaSubject) (operation : QuotaOperation) (semanticId : String)
    (inputBytes : Nat) : Except QuotaPolicyError QuotaIntent := do
  require (validId semanticId 256 ∧ inputBytes ≤ maxByteCap) .invalid
  .ok (p.intent subject operation semanticId
    (p.binding subject [operation.asStr, semanticId])
    (operationCharges p.document operation inputBytes))

def egressIntent (subject : QuotaSubject) (semanticId : String) (outputBytes eventCount : Nat) :
    Except QuotaPolicyError QuotaIntent := do
  require (validId semanticId 256 ∧ outputBytes ≠ 0 ∧ outputBytes ≤ maxByteCap ∧ eventCount ≠ 0 ∧
    eventCount ≤ maxEventCap) .invalid
  .ok (p.intent subject .publicEgress semanticId
    (p.binding subject [QuotaOperation.publicEgress.asStr, semanticId])
    (egressCharges p.document outputBytes eventCount))

/-- The operation a lease is opened by. -/
def leaseOperation (kind : QuotaLeaseKind) (reconnect : Bool) : QuotaOperation :=
  if reconnect then .reconnect
  else
    match kind with
    | .messageStream => .sendStream
    | .taskSubscription => .subscribe

def leaseIntent (subject : QuotaSubject) (kind : QuotaLeaseKind) (semanticId : String)
    (reconnect : Bool) : Except QuotaPolicyError QuotaIntent := do
  require (validId semanticId 256) .invalid
  let operation := leaseOperation kind reconnect
  .ok (p.intent subject operation semanticId
    (p.binding subject [operation.asStr, kind.asStr, semanticId])
    (leaseCharges p.document kind reconnect))

end QuotaPolicy

end SmeshDurable.Quota
