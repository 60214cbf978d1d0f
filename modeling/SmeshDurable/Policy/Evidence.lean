import SmeshDurable.Artifact.Manifest
import SmeshDurable.Library.JsonText
import SmeshDurable.Library.Ranked
import SmeshDurable.Library.TextLines
import SmeshDurable.Replay.Event

/-!
# Completion evidence

What a completion decision is made from: the artifacts proposed, the records of reviewers,
testers, attesters and contradiction monitors about them, and the ratification of a human.
Every record is checked on its own before any of them is counted.
-/

namespace SmeshDurable.Policy

open Ranked Replay Transaction TextLines
open Json (number)

def completionPolicyV1 : String := "smesh-completion/v1"
def maxTextBytes : Nat := 512
def maxEvidencePayloadBytes : Nat := 64 * 1024

/-- Why an evaluation, or a policy, is refused. -/
inductive PolicyError where
  | invalidPolicy (message : String)
  | missingArtifact
  | artifactLimitExceeded (actual limit : Nat)
  | evidenceLimitExceeded (actual limit : Nat)
  | invalidDigest (field value : String)
  | evidencePayloadTooLarge (limit : Nat)
  | evidenceDigestMismatch
  | duplicateEvidenceId (id : String)
  | duplicateEvidenceProvenance (identity : String)
  | duplicateArtifactDigest (digest : String)
  | subjectDigestMismatch (expected actual : String)
  | invalidAssurance (assurance : Nat)
  | invalidAttestation (nodeId : String)
  | untrustedEvidenceIssuer (kind issuer : String)
  | multipleRatifications
  | unexpectedRatification
  | ratificationStatementMismatch
  | untrustedRatificationAuthority
  | invalidRatificationSignature
  | invalidText (field : String) (limit : Nat)
deriving DecidableEq, Repr

/-! ## Texts and digests -/

/-- The characters with the Unicode property of white space. -/
def isWhitespace (c : Char) : Bool :=
  (0x09 ≤ c.toNat && c.toNat ≤ 0x0d) || (0x2000 ≤ c.toNat && c.toNat ≤ 0x200a) ||
    [0x20, 0x85, 0xa0, 0x1680, 0x2028, 0x2029, 0x202f, 0x205f, 0x3000].contains c.toNat

/-- Neither empty nor blank, within the bound and without control characters. -/
def validText (value : String) : Bool :=
  value ≠ "" && value.utf8ByteSize ≤ maxTextBytes && !value.toList.all isWhitespace &&
    !value.toList.any Catalog.isControl

def validateText (field value : String) : Except PolicyError Unit :=
  require (validText value) (.invalidText field maxTextBytes)

def isHexByte (b : UInt8) : Bool := (0x30 ≤ b && b ≤ 0x39) || (0x61 ≤ b && b ≤ 0x66)

def validDigest (value : String) : Bool :=
  (bytes value).length == 71 && (bytes value).take 7 == bytes "sha256:" &&
    ((bytes value).drop 7).all isHexByte

def validateDigest (field value : String) : Except PolicyError Unit :=
  require (validDigest value) (.invalidDigest field value)

/-- A digest is written as `sha256:` and 64 hexadecimal digits. -/
class HexDigest extends ContentDigest where
  contentDigest_valid : ∀ bytes, validDigest (contentDigest bytes) = true

/-- What the digest of a document is taken of. -/
def digestInput (domain : String) (value : Json) : List UInt8 :=
  bytes "SMESH-A2A\x00completion-policy\x00smesh-json-v1\x00" ++
    bigEndian (bytes domain).length ++ bytes domain ++
    bigEndian (bytes value.render).length ++ bytes value.render

def canonicalDigest [ContentDigest] (domain : String) (value : Json) : String :=
  contentDigest (digestInput domain value)

/-! ## Artifacts -/

structure ArtifactManifest where
  name : String
  mediaType : String
  digest : String
deriving DecidableEq, Repr

namespace ArtifactManifest

def rank (a : ArtifactManifest) : String ×ₗ String ×ₗ String :=
  toLex (a.digest, toLex (a.name, a.mediaType))

def toJson (a : ArtifactManifest) : Json :=
  .obj [("name", .str a.name), ("mediaType", .str a.mediaType), ("digest", .str a.digest)]

end ArtifactManifest

/-- The check of sorted artifacts, of which the digests `seen` have come before. -/
def checkArtifacts (seen : List String) : List ArtifactManifest → Except PolicyError Unit
  | [] => .ok ()
  | artifact :: rest => do
      validateText "artifact.name" artifact.name
      validateText "artifact.mediaType" artifact.mediaType
      validateDigest "artifact.digest" artifact.digest
      require (artifact.digest ∉ seen) (.duplicateArtifactDigest artifact.digest)
      checkArtifacts (artifact.digest :: seen) rest

def artifactSetDigest [ContentDigest] (artifacts : List ArtifactManifest) :
    Except PolicyError String := do
  require (artifacts ≠ []) .missingArtifact
  let normalized := sortOn ArtifactManifest.rank artifacts
  checkArtifacts [] normalized
  .ok (canonicalDigest "artifact-set" (.arr (normalized.map ArtifactManifest.toJson)))

/-! ## Evidence -/

structure ClosedAttestation where
  nodeId : String
  publicKey : String
  signature : String
deriving DecidableEq, Repr

/-- Whether a signature under a public key is one of the digest. -/
class SignatureScheme where
  verify (nodeId publicKey signature claimHash : String) : Bool

namespace ClosedAttestation

def verify [SignatureScheme] (a : ClosedAttestation) (claimHash : String) : Bool :=
  SignatureScheme.verify a.nodeId a.publicKey a.signature claimHash

def toJson (a : ClosedAttestation) : Json :=
  .obj [("nodeId", .str a.nodeId), ("publicKey", .str a.publicKey),
    ("signature", .str a.signature)]

end ClosedAttestation

structure RatificationStatement where
  policyHash : String
  evidenceSnapshotHash : String
  artifactSetDigest : String
  approved : Bool
deriving DecidableEq, Repr

namespace RatificationStatement

def toJson (s : RatificationStatement) : Json :=
  .obj [("policyHash", .str s.policyHash), ("evidenceSnapshotHash", .str s.evidenceSnapshotHash),
    ("artifactSetDigest", .str s.artifactSetDigest), ("approved", .bool s.approved)]

def digest [ContentDigest] (s : RatificationStatement) : String :=
  canonicalDigest "ratification-statement" s.toJson

end RatificationStatement

structure RatificationReceipt where
  statement : RatificationStatement
  authority : ClosedAttestation
deriving DecidableEq, Repr

def RatificationReceipt.toJson (r : RatificationReceipt) : Json :=
  .obj [("statement", r.statement.toJson), ("authority", r.authority.toJson)]

/-- What a reviewer, a tester or a contradiction monitor hands in, apart from the verdict. -/
structure ClaimedEvidence where
  id : String
  issuer : String
  subjectDigest : String
  evidence : List UInt8
  evidenceDigest : String
deriving DecidableEq, Repr

inductive CompletionEvidence where
  | review (claim : ClaimedEvidence) (approved : Bool) (assuranceBps : Nat)
  | test (claim : ClaimedEvidence) (passed : Bool) (assuranceBps : Nat)
  | attestation (id subjectDigest : String) (attestation : ClosedAttestation) (assuranceBps : Nat)
  | contradiction (claim : ClaimedEvidence) (blocking : Bool)
  | ratification (receipt : RatificationReceipt)
deriving DecidableEq, Repr

namespace CompletionEvidence

def id : CompletionEvidence → Option String
  | review claim _ _ | test claim _ _ | contradiction claim _ => some claim.id
  | attestation id _ _ _ => some id
  | ratification _ => none

def subjectDigest : CompletionEvidence → Option String
  | review claim _ _ | test claim _ _ | contradiction claim _ => some claim.subjectDigest
  | attestation _ subjectDigest _ _ => some subjectDigest
  | ratification _ => none

def assuranceBps : CompletionEvidence → Option Nat
  | review _ _ bps | test _ _ bps | attestation _ _ _ bps => some bps
  | contradiction _ _ | ratification _ => none

def provenanceIdentity : CompletionEvidence → Option String
  | review claim _ _ | test claim _ _ | contradiction claim _ => some claim.evidenceDigest
  | attestation _ _ a _ => some ("attestation:" ++ a.nodeId ++ ":" ++ a.publicKey ++ ":" ++ a.signature)
  | ratification _ => none

def isRatification : CompletionEvidence → Bool
  | ratification _ => true
  | _ => false

def ratification? : CompletionEvidence → Option RatificationReceipt
  | ratification receipt => some receipt
  | _ => none

/-- Records sort by their identifiers. -/
def rank (record : CompletionEvidence) : WithBot String := record.id

/-- The members of a claim, between the tag and the verdict. -/
def claimFields (claim : ClaimedEvidence) : List (String × Json) :=
  [("id", .str claim.id), ("issuer", .str claim.issuer),
    ("subject_digest", .str claim.subjectDigest),
    ("evidence", .arr (claim.evidence.map fun byte => number byte.toNat)),
    ("evidence_digest", .str claim.evidenceDigest)]

def toJson : CompletionEvidence → Json
  | review claim approved bps =>
    .obj (("kind", .str "review") :: claimFields claim ++
      [("approved", .bool approved), ("assurance_bps", number bps)])
  | test claim passed bps =>
    .obj (("kind", .str "test") :: claimFields claim ++
      [("passed", .bool passed), ("assurance_bps", number bps)])
  | attestation id subjectDigest a bps =>
    .obj [("kind", .str "attestation"), ("id", .str id), ("subject_digest", .str subjectDigest),
      ("attestation", a.toJson), ("assurance_bps", number bps)]
  | contradiction claim blocking =>
    .obj (("kind", .str "contradiction") :: claimFields claim ++ [("blocking", .bool blocking)])
  | ratification receipt =>
    .obj [("kind", .str "ratification"), ("statement", receipt.statement.toJson),
      ("authority", receipt.authority.toJson)]

end CompletionEvidence

structure CompletionSnapshot where
  taskId : String
  contextId : String
  requestDigest : String
  artifacts : List ArtifactManifest
  evidence : List CompletionEvidence
deriving DecidableEq, Repr

/-! ## The policy document -/

structure TrustedAuthority where
  nodeId : String
  publicKey : String
deriving DecidableEq, Repr

namespace TrustedAuthority

def rank (a : TrustedAuthority) : String ×ₗ String := toLex (a.nodeId, a.publicKey)

def toJson (a : TrustedAuthority) : Json :=
  .obj [("nodeId", .str a.nodeId), ("publicKey", .str a.publicKey)]

end TrustedAuthority

structure CompletionPolicySpec where
  policyId : String
  version : Nat
  requiredReviews : Nat
  requiredTests : Nat
  requiredAttestations : Nat
  requiredContradictionClearances : Nat
  minAssuranceBps : Nat
  requireHumanRatification : Bool
  reviewIssuers : List String
  testIssuers : List String
  contradictionIssuers : List String
  attestationAuthorities : List TrustedAuthority
  ratificationAuthorities : List TrustedAuthority
  maxEvidenceRecords : Nat
  maxArtifacts : Nat
deriving DecidableEq, Repr

namespace CompletionPolicySpec

def development : CompletionPolicySpec where
  policyId := completionPolicyV1
  version := 1
  requiredReviews := 1
  requiredTests := 1
  requiredAttestations := 0
  requiredContradictionClearances := 1
  minAssuranceBps := 7500
  requireHumanRatification := false
  reviewIssuers := ["review-authority"]
  testIssuers := ["test-authority"]
  contradictionIssuers := ["contradiction-monitor"]
  attestationAuthorities := []
  ratificationAuthorities := []
  maxEvidenceRecords := 32
  maxArtifacts := 16

def toJson (s : CompletionPolicySpec) : Json :=
  .obj [("policyId", .str s.policyId), ("version", number s.version),
    ("requiredReviews", number s.requiredReviews), ("requiredTests", number s.requiredTests),
    ("requiredAttestations", number s.requiredAttestations),
    ("requiredContradictionClearances", number s.requiredContradictionClearances),
    ("minAssuranceBps", number s.minAssuranceBps),
    ("requireHumanRatification", .bool s.requireHumanRatification),
    ("reviewIssuers", .arr (s.reviewIssuers.map .str)),
    ("testIssuers", .arr (s.testIssuers.map .str)),
    ("contradictionIssuers", .arr (s.contradictionIssuers.map .str)),
    ("attestationAuthorities", .arr (s.attestationAuthorities.map TrustedAuthority.toJson)),
    ("ratificationAuthorities", .arr (s.ratificationAuthorities.map TrustedAuthority.toJson)),
    ("maxEvidenceRecords", number s.maxEvidenceRecords), ("maxArtifacts", number s.maxArtifacts)]

/-- Whether one of the authorities has the node identifier and the key of an attestation. -/
def lists (authorities : List TrustedAuthority) (a : ClosedAttestation) : Bool :=
  authorities.any fun authority => authority.nodeId == a.nodeId && authority.publicKey == a.publicKey

end CompletionPolicySpec

/-- Some neighbours of a sorted list are equal. -/
def hasRepeat {α : Type} [DecidableEq α] (xs : List α) : Bool :=
  (xs.zip xs.tail).any fun pair => pair.1 == pair.2

def normalizeIssuers (field : String) (issuers : List String) :
    Except PolicyError (List String) := do
  let sorted := sortOn (fun issuer => issuer) issuers
  sorted.forM fun issuer => validateText field issuer
  require (¬ hasRepeat sorted) (.invalidPolicy (field ++ " must contain unique values"))
  .ok sorted

def normalizeAuthorities (field : String) (authorities : List TrustedAuthority) :
    Except PolicyError (List TrustedAuthority) := do
  let sorted := sortOn TrustedAuthority.rank authorities
  sorted.forM fun authority => do
    validateText (field ++ ".nodeId") authority.nodeId
    validateText (field ++ ".publicKey") authority.publicKey
  require (¬ hasRepeat sorted) (.invalidPolicy (field ++ " must contain unique values"))
  .ok sorted

/-- The checks a policy document passes, with its issuers and authorities sorted. -/
def CompletionPolicySpec.checked (s : CompletionPolicySpec) :
    Except PolicyError CompletionPolicySpec := do
  validateText "policyId" s.policyId
  require (s.version = 1) (.invalidPolicy "only completion policy version 1 is supported")
  require (¬ (s.requiredReviews = 0 ∨ s.requiredTests = 0))
    (.invalidPolicy "at least one review and one test are mandatory")
  require (1 ≤ s.minAssuranceBps ∧ s.minAssuranceBps ≤ 10000)
    (.invalidPolicy "minAssuranceBps must be between 1 and 10000")
  require (¬ (s.maxEvidenceRecords = 0 ∨ s.maxArtifacts = 0))
    (.invalidPolicy "evidence and artifact limits must be non-zero")
  require (s.requiredReviews + s.requiredTests + s.requiredAttestations +
      s.requiredContradictionClearances ≤ s.maxEvidenceRecords)
    (.invalidPolicy "required evidence exceeds maxEvidenceRecords")
  let reviewIssuers ← normalizeIssuers "reviewIssuers" s.reviewIssuers
  let testIssuers ← normalizeIssuers "testIssuers" s.testIssuers
  let contradictionIssuers ← normalizeIssuers "contradictionIssuers" s.contradictionIssuers
  let attestationAuthorities ←
    normalizeAuthorities "attestationAuthorities" s.attestationAuthorities
  let ratificationAuthorities ←
    normalizeAuthorities "ratificationAuthorities" s.ratificationAuthorities
  require (s.requiredReviews ≤ reviewIssuers.length ∧ s.requiredTests ≤ testIssuers.length ∧
      s.requiredAttestations ≤ attestationAuthorities.length)
    (.invalidPolicy "configured evidence authorities cannot satisfy required counts")
  require (s.requiredContradictionClearances ≠ 0)
    (.invalidPolicy "at least one contradiction clearance is mandatory")
  require (s.requiredContradictionClearances ≤ contradictionIssuers.length)
    (.invalidPolicy "configured contradiction issuers cannot satisfy required clearances")
  require (¬ (s.requireHumanRatification ∧ ratificationAuthorities = []))
    (.invalidPolicy "human ratification requires at least one authority")
  require (¬ (¬ s.requireHumanRatification ∧ ratificationAuthorities ≠ []))
    (.invalidPolicy "authorities are invalid when human ratification is disabled")
  .ok { s with reviewIssuers, testIssuers, contradictionIssuers, attestationAuthorities,
               ratificationAuthorities }

/-! ## The check of one record -/

section Record

variable [ContentDigest]

def validateClaimedEvidence (kind : String) (claim : ClaimedEvidence) (allowed : List String) :
    Except PolicyError Unit := do
  validateText "evidence.issuer" claim.issuer
  require (claim.issuer ∈ allowed) (.untrustedEvidenceIssuer kind claim.issuer)
  require (claim.evidence.length ≤ maxEvidencePayloadBytes)
    (.evidencePayloadTooLarge maxEvidencePayloadBytes)
  validateDigest "evidence.evidenceDigest" claim.evidenceDigest
  require (contentDigest claim.evidence = claim.evidenceDigest) .evidenceDigestMismatch

variable [SignatureScheme]

def validateEvidenceRecord (record : CompletionEvidence) (subject : String)
    (spec : CompletionPolicySpec) : Except PolicyError Unit :=
  match record with
  | .review claim _ _ => validateClaimedEvidence "review" claim spec.reviewIssuers
  | .test claim _ _ => validateClaimedEvidence "test" claim spec.testIssuers
  | .contradiction claim _ =>
    validateClaimedEvidence "contradiction" claim spec.contradictionIssuers
  | .attestation _ _ a _ => do
      validateText "attestation.nodeId" a.nodeId
      validateText "attestation.publicKey" a.publicKey
      require (a.verify subject) (.invalidAttestation a.nodeId)
      require (CompletionPolicySpec.lists spec.attestationAuthorities a)
        (.untrustedEvidenceIssuer "attestation" a.nodeId)
  | .ratification _ => .error .unexpectedRatification

/-- The check of one record among others, whose identifiers and provenances have come before. -/
def checkRecord (spec : CompletionPolicySpec) (subject : String) (ids provenance : List String)
    (record : CompletionEvidence) : Except PolicyError (String × String) := do
  let id ← expect record.id .unexpectedRatification
  validateText "evidence.id" id
  require (id ∉ ids) (.duplicateEvidenceId id)
  let actual ← expect record.subjectDigest .unexpectedRatification
  validateDigest "evidence.subjectDigest" actual
  require (actual = subject) (.subjectDigestMismatch subject actual)
  require (∀ assurance ∈ record.assuranceBps, assurance ≤ 10000)
    (.invalidAssurance (record.assuranceBps.getD 0))
  validateEvidenceRecord record subject spec
  let identity ← expect record.provenanceIdentity .unexpectedRatification
  require (identity ∉ provenance) (.duplicateEvidenceProvenance identity)
  .ok (id, identity)

def checkRecords (spec : CompletionPolicySpec) (subject : String) :
    (ids provenance : List String) → List CompletionEvidence → Except PolicyError Unit
  | _, _, [] => .ok ()
  | ids, provenance, record :: rest => do
      let (id, identity) ← checkRecord spec subject ids provenance record
      checkRecords spec subject (id :: ids) (identity :: provenance) rest

end Record

end SmeshDurable.Policy
