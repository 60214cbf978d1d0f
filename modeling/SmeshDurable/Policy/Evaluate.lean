import SmeshDurable.Policy.Evidence

/-!
# Evaluating a completion policy

A snapshot is assessed first: everything in it is checked, the records are put in the order of
their identifiers and tallied, and what was found is sealed in a checkpoint with the reasons
against completion. The decision is then made from the assessment and the ratification.
-/

namespace SmeshDurable.Policy

open Ranked Replay Transaction TextLines
open Json (number)

/-! ## Checkpoints and receipts -/

structure CheckpointClaims where
  taskId : String
  contextId : String
  requestDigest : String
  policyId : String
  policyVersion : Nat
  policyHash : String
  evidenceSnapshotHash : String
  artifactSetDigest : String
  evidenceHashes : List String
  assuranceBps : Nat
deriving DecidableEq, Repr

structure PolicyCheckpoint extends CheckpointClaims where
  sealText : String
deriving DecidableEq, Repr

structure ReceiptClaims extends CheckpointClaims where
  ratificationReceiptHash : Option String
deriving DecidableEq, Repr

structure CompletionReceipt extends ReceiptClaims where
  sealText : String
deriving DecidableEq, Repr

def CheckpointClaims.fields (c : CheckpointClaims) : List (String × Json) :=
  [("taskId", .str c.taskId), ("contextId", .str c.contextId),
    ("requestDigest", .str c.requestDigest), ("policyId", .str c.policyId),
    ("policyVersion", number c.policyVersion), ("policyHash", .str c.policyHash),
    ("evidenceSnapshotHash", .str c.evidenceSnapshotHash),
    ("artifactSetDigest", .str c.artifactSetDigest),
    ("evidenceHashes", .arr (c.evidenceHashes.map .str)),
    ("assuranceBps", number c.assuranceBps)]

def CheckpointClaims.toJson (c : CheckpointClaims) : Json := .obj c.fields

def ReceiptClaims.toJson (c : ReceiptClaims) : Json :=
  .obj (c.fields ++ [("ratificationReceiptHash", c.ratificationReceiptHash.elim .null .str)])

/-- A keyed authentication code of 32 bytes. -/
class ReceiptMac where
  mac (key message : List UInt8) : List UInt8
  mac_length : ∀ key message, (mac key message).length = 32

/-- What is authenticated: the label and the document behind its length. -/
def sealInput (label : String) (claims : Json) : List UInt8 :=
  bytes ("SMESH-A2A\x00" ++ label ++ "\x00v1\x00") ++
    bigEndian (bytes claims.render).length ++ bytes claims.render

def hexNibble (value : UInt8) : Option UInt8 :=
  if 0x30 ≤ value && value ≤ 0x39 then some (value - 0x30)
  else if 0x61 ≤ value && value ≤ 0x66 then some (value - 0x61 + 10)
  else none

def decodePairs : List UInt8 → Option (List UInt8)
  | high :: low :: rest => do
      let high ← hexNibble high
      let low ← hexNibble low
      let tail ← decodePairs rest
      some ((high <<< 4 ||| low) :: tail)
  | _ => some []

def decodeSha256Tag (value : String) : Option (List UInt8) :=
  if (bytes value).take 7 = bytes "sha256:" then
    if ((bytes value).drop 7).length = 64 then decodePairs ((bytes value).drop 7) else none
  else none

section Seals

variable [ReceiptMac]

def computeCheckpointSeal (claims : CheckpointClaims) (key : List UInt8) : String :=
  formatDigest (ReceiptMac.mac key (sealInput "completion-checkpoint" claims.toJson))

def computeReceiptSeal (claims : ReceiptClaims) (key : List UInt8) : String :=
  formatDigest (ReceiptMac.mac key (sealInput "completion-receipt" claims.toJson))

def receiptFromCheckpoint (checkpoint : PolicyCheckpoint) (ratificationReceiptHash : Option String)
    (key : List UInt8) : CompletionReceipt :=
  let claims : ReceiptClaims := { checkpoint.toCheckpointClaims with ratificationReceiptHash }
  { claims with sealText := computeReceiptSeal claims key }

end Seals

/-! ## The tally -/

inductive PolicyBlockReason where
  | blockingContradiction
  | failedReview
  | failedTest
  | insufficientReviews
  | insufficientTests
  | insufficientAttestations
  | insufficientContradictionClearances
  | insufficientAssurance
  | humanRejected
deriving DecidableEq, Repr

/-- The reasons in their order. -/
def PolicyBlockReason.all : List PolicyBlockReason :=
  [.blockingContradiction, .failedReview, .failedTest, .insufficientReviews, .insufficientTests,
    .insufficientAttestations, .insufficientContradictionClearances, .insufficientAssurance,
    .humanRejected]

/-- The sets and lists the records are counted into. -/
structure Tally where
  reasons : List PolicyBlockReason
  reviews : List Nat
  tests : List Nat
  attestations : List Nat
  distinctReviewers : List String
  distinctTesters : List String
  distinctAttesters : List (String × String)
  contradictionClearances : List String

namespace Tally

def empty : Tally := ⟨[], [], [], [], [], [], [], []⟩

def add (t : Tally) : CompletionEvidence → Tally
  | .review claim approved bps =>
    if !approved then { t with reasons := .failedReview :: t.reasons }
    else if claim.issuer ∈ t.distinctReviewers then t
    else { t with distinctReviewers := claim.issuer :: t.distinctReviewers
                  reviews := t.reviews ++ [bps] }
  | .test claim passed bps =>
    if !passed then { t with reasons := .failedTest :: t.reasons }
    else if claim.issuer ∈ t.distinctTesters then t
    else { t with distinctTesters := claim.issuer :: t.distinctTesters
                  tests := t.tests ++ [bps] }
  | .attestation _ _ a bps =>
    if (a.nodeId, a.publicKey) ∈ t.distinctAttesters then t
    else { t with distinctAttesters := (a.nodeId, a.publicKey) :: t.distinctAttesters
                  attestations := t.attestations ++ [bps] }
  | .contradiction claim blocking =>
    if blocking then { t with reasons := .blockingContradiction :: t.reasons }
    else { t with contradictionClearances := t.contradictionClearances.insert claim.issuer }
  | .ratification _ => t

def of (records : List CompletionEvidence) : Tally := records.foldl add empty

end Tally

/-- From the highest to the lowest. -/
def descending (values : List Nat) : List Nat := values.insertionSort (· ≥ ·)

def qualifying (spec : CompletionPolicySpec) (values : List Nat) : Nat :=
  (values.filter (spec.minAssuranceBps ≤ ·)).length

def selectedAssurance (reviews : List Nat) (requiredReviews : Nat) (tests : List Nat)
    (requiredTests : Nat) (attestations : List Nat) (requiredAttestations : Nat) : Nat :=
  (reviews.take requiredReviews ++ tests.take requiredTests ++
    attestations.take requiredAttestations).min?.getD 0

/-- The assurance of a tally. -/
def Tally.assurance (t : Tally) (spec : CompletionPolicySpec) : Nat :=
  selectedAssurance (descending t.reviews) spec.requiredReviews (descending t.tests)
    spec.requiredTests (descending t.attestations) spec.requiredAttestations

/-- Whether a reason stands against completion. -/
def Tally.objects (t : Tally) (spec : CompletionPolicySpec) : PolicyBlockReason → Bool
  | .insufficientReviews => qualifying spec (descending t.reviews) < spec.requiredReviews
  | .insufficientTests => qualifying spec (descending t.tests) < spec.requiredTests
  | .insufficientAttestations =>
    qualifying spec (descending t.attestations) < spec.requiredAttestations
  | .insufficientContradictionClearances =>
    t.contradictionClearances.length < spec.requiredContradictionClearances
  | .insufficientAssurance => t.assurance spec < spec.minAssuranceBps
  | reason => reason ∈ t.reasons

/-- The reasons against completion, as an ordered set lists them. -/
def Tally.blockReasons (t : Tally) (spec : CompletionPolicySpec) : List PolicyBlockReason :=
  PolicyBlockReason.all.filter (t.objects spec)

/-! ## The policy -/

/-- A policy profile that passed its checks, and the key its receipts are sealed with. -/
structure VersionedCompletionPolicy [ContentDigest] where
  spec : CompletionPolicySpec
  policyHash : String
  receiptKey : List UInt8
  checked : ∃ submitted : CompletionPolicySpec, submitted.checked = .ok spec
  hashed : policyHash = canonicalDigest "policy-profile" spec.toJson

structure PolicyBlock where
  checkpoint : PolicyCheckpoint
  reasons : List PolicyBlockReason
deriving DecidableEq, Repr

inductive PolicyDecision where
  | accepted (receipt : CompletionReceipt)
  | awaitingRatification (checkpoint : PolicyCheckpoint)
  | blocked (block : PolicyBlock)
deriving DecidableEq, Repr

def PolicyDecision.isAccepted : PolicyDecision → Bool
  | accepted _ => true
  | _ => false

/-- What a snapshot amounts to under a policy before the ratification is looked at. -/
structure Assessment where
  checkpoint : PolicyCheckpoint
  reasons : List PolicyBlockReason
  ratifications : List RatificationReceipt

namespace VersionedCompletionPolicy

section

variable [ContentDigest]

def newWithReceiptKey (spec : CompletionPolicySpec) (receiptKey : List UInt8) :
    Except PolicyError VersionedCompletionPolicy :=
  match h : spec.checked with
  | .ok checked =>
      .ok { spec := checked, policyHash := canonicalDigest "policy-profile" checked.toJson, receiptKey,
            checked := Exists.intro spec h, hashed := rfl }
  | .error error => .error error

variable (policy : VersionedCompletionPolicy) [ReceiptMac]

def verifyCheckpoint (checkpoint : PolicyCheckpoint) (taskId contextId : String) : Bool :=
  checkpoint.taskId == taskId && checkpoint.contextId == contextId &&
    checkpoint.policyId == policy.spec.policyId &&
    checkpoint.policyVersion == policy.spec.version &&
    checkpoint.policyHash == policy.policyHash &&
    validDigest checkpoint.requestDigest && validDigest checkpoint.evidenceSnapshotHash &&
    validDigest checkpoint.artifactSetDigest && checkpoint.evidenceHashes.all validDigest &&
    decide (policy.spec.minAssuranceBps ≤ checkpoint.assuranceBps) &&
    decodeSha256Tag checkpoint.sealText == some (ReceiptMac.mac policy.receiptKey
      (sealInput "completion-checkpoint" checkpoint.toCheckpointClaims.toJson))

def verifyReceipt (receipt : CompletionReceipt) : Bool :=
  receipt.policyId == policy.spec.policyId && receipt.policyVersion == policy.spec.version &&
    receipt.policyHash == policy.policyHash &&
    decodeSha256Tag receipt.sealText == some (ReceiptMac.mac policy.receiptKey
      (sealInput "completion-receipt" receipt.toReceiptClaims.toJson))

/-- The hash of a snapshot with its artifacts and records sorted. -/
def snapshotHash (snapshot : CompletionSnapshot) (artifacts : List ArtifactManifest)
    (records : List CompletionEvidence) : String :=
  canonicalDigest "evidence-snapshot" (.obj [("taskId", .str snapshot.taskId),
    ("contextId", .str snapshot.contextId), ("requestDigest", .str snapshot.requestDigest),
    ("artifacts", .arr (artifacts.map ArtifactManifest.toJson)),
    ("evidence", .arr (records.map CompletionEvidence.toJson))])

/-- The checkpoint of checked artifacts and records. -/
def checkpointOf (snapshot : CompletionSnapshot) (artifacts : List ArtifactManifest)
    (subject : String) (records : List CompletionEvidence) : PolicyCheckpoint :=
  let claims : CheckpointClaims :=
    { taskId := snapshot.taskId, contextId := snapshot.contextId,
      requestDigest := snapshot.requestDigest, policyId := policy.spec.policyId,
      policyVersion := policy.spec.version, policyHash := policy.policyHash,
      evidenceSnapshotHash := snapshotHash snapshot artifacts records, artifactSetDigest := subject,
      evidenceHashes := records.map fun record => canonicalDigest "evidence-record" record.toJson,
      assuranceBps := (Tally.of records).assurance policy.spec }
  { claims with sealText := computeCheckpointSeal claims policy.receiptKey }

variable [SignatureScheme]

def assess (snapshot : CompletionSnapshot) : Except PolicyError Assessment := do
  validateText "taskId" snapshot.taskId
  validateText "contextId" snapshot.contextId
  validateDigest "requestDigest" snapshot.requestDigest
  require (snapshot.artifacts ≠ []) .missingArtifact
  require (snapshot.artifacts.length ≤ policy.spec.maxArtifacts)
    (.artifactLimitExceeded snapshot.artifacts.length policy.spec.maxArtifacts)
  require (snapshot.evidence.length ≤ policy.spec.maxEvidenceRecords + 1)
    (.evidenceLimitExceeded snapshot.evidence.length (policy.spec.maxEvidenceRecords + 1))
  let artifacts := sortOn ArtifactManifest.rank snapshot.artifacts
  checkArtifacts [] artifacts
  let subject ← artifactSetDigest artifacts
  let records := snapshot.evidence.filter (!·.isRatification)
  let ratifications := snapshot.evidence.filterMap CompletionEvidence.ratification?
  require (records.length ≤ policy.spec.maxEvidenceRecords)
    (.evidenceLimitExceeded records.length policy.spec.maxEvidenceRecords)
  require (ratifications.length ≤ 1) .multipleRatifications
  let records := sortOn CompletionEvidence.rank records
  checkRecords policy.spec subject [] [] records
  .ok { checkpoint := policy.checkpointOf snapshot artifacts subject records,
        reasons := (Tally.of records).blockReasons policy.spec, ratifications }

/-- The decision on a ratification of an assessment without objections. -/
def ratify (checkpoint : PolicyCheckpoint) (ratification : RatificationReceipt) :
    Except PolicyError PolicyDecision := do
  require (ratification.statement = ⟨checkpoint.policyHash, checkpoint.evidenceSnapshotHash,
      checkpoint.artifactSetDigest, ratification.statement.approved⟩) .ratificationStatementMismatch
  require (CompletionPolicySpec.lists policy.spec.ratificationAuthorities ratification.authority)
    .untrustedRatificationAuthority
  require (ratification.authority.verify ratification.statement.digest)
    .invalidRatificationSignature
  if ratification.statement.approved then
    .ok (.accepted (receiptFromCheckpoint checkpoint
      (some (canonicalDigest "ratification-receipt" ratification.toJson)) policy.receiptKey))
  else .ok (.blocked ⟨checkpoint, [.humanRejected]⟩)

def conclude (assessment : Assessment) : Except PolicyError PolicyDecision :=
  if assessment.reasons ≠ [] then .ok (.blocked ⟨assessment.checkpoint, assessment.reasons⟩)
  else if !policy.spec.requireHumanRatification then do
    require (assessment.ratifications = []) .unexpectedRatification
    .ok (.accepted (receiptFromCheckpoint assessment.checkpoint none policy.receiptKey))
  else
    match assessment.ratifications with
    | [] => .ok (.awaitingRatification assessment.checkpoint)
    | ratification :: _ => policy.ratify assessment.checkpoint ratification

def evaluate (snapshot : CompletionSnapshot) : Except PolicyError PolicyDecision := do
  let assessment ← policy.assess snapshot
  policy.conclude assessment

end

end VersionedCompletionPolicy

end SmeshDurable.Policy
