import SmeshDurable.Store.Schema

/-!
# Artifact manifests

The immutable description of a published artifact: who produced it, how it is classified,
under which encryption domain it is stored, from which artifacts it was derived and how long
it is retained. Manifests, producers, domains and policies can only be built from checked
parts, and the types here carry what was checked.
-/

namespace SmeshDurable.Catalog

open Transaction

inductive ArtifactStoreError where
  | invalid
  | denied
  | unavailable
  | integrity
  | conflict
  | retained
deriving DecidableEq, Repr

def manifestDomain : List UInt8 := "smesh-artifact-manifest/v1\x00".toUTF8.data.toList
def artifactChunkBytes : Nat := 4 * 1024 * 1024
def maxNameBytes : Nat := 255
def maxDescriptionBytes : Nat := 4096
def maxIdBytes : Nat := 256
def maxDerivedFrom : Nat := 32

/-! ## Texts -/

def validIdentity (value : String) : Bool :=
  value ≠ "" && value.utf8ByteSize ≤ maxIdBytes &&
    value.toUTF8.data.toList.all fun b => 0x21 ≤ b && b ≤ 0x7e

def isAsciiAlphanumeric (b : UInt8) : Bool :=
  (0x30 ≤ b && b ≤ 0x39) || (0x41 ≤ b && b ≤ 0x5a) || (0x61 ≤ b && b ≤ 0x7a)

/-- Letters, digits and `-`, `_`, `.`, `~`; neither `.` nor `..`. -/
def validArtifactId (value : String) : Bool :=
  value ≠ "" && value.utf8ByteSize ≤ maxIdBytes && value ≠ "." && value ≠ ".." &&
    value.toUTF8.data.toList.all fun b =>
      isAsciiAlphanumeric b || b == 0x2d || b == 0x5f || b == 0x2e || b == 0x7e

def isControl (c : Char) : Bool := c.toNat < 0x20 || (0x7f ≤ c.toNat && c.toNat ≤ 0x9f)

def validVisible (value : String) (max : Nat) : Bool :=
  value ≠ "" && value.utf8ByteSize ≤ max &&
    value.toList.all fun c => !isControl c && c ≠ '/' && c ≠ '\\'

def validateIdentity (value : String) : Except ArtifactStoreError Unit :=
  require (validIdentity value) .invalid

def validateArtifactId (value : String) : Except ArtifactStoreError Unit :=
  require (validArtifactId value) .invalid

def validateVisible (value : String) (max : Nat) : Except ArtifactStoreError Unit :=
  require (validVisible value max) .invalid

/-- Reads a media type and prints it back. -/
class MimeParser where
  parse : String → Option String

def normalizeMediaType [MimeParser] (value : String) : Except ArtifactStoreError String := do
  let parsed ← expect (MimeParser.parse value) .invalid
  let normalized := parsed.map Char.toLower
  require (normalized.utf8ByteSize ≤ 255) .invalid
  require ('\n' ∉ normalized.toList ∧ '\r' ∉ normalized.toList) .invalid
  .ok normalized

/-! ## The parts of a manifest -/

inductive ArtifactClassification where
  | publicAccess
  | internal
  | confidential
  | secret
deriving DecidableEq, Repr

namespace ArtifactClassification

/-- The place in the declared order, which is the order of sensitivity. -/
def rank : ArtifactClassification → Nat
  | .publicAccess => 0
  | .internal => 1
  | .confidential => 2
  | .secret => 3

instance : LE ArtifactClassification := ⟨fun a b => a.rank ≤ b.rank⟩

instance (a b : ArtifactClassification) : Decidable (a ≤ b) :=
  inferInstanceAs (Decidable (a.rank ≤ b.rank))

def name : ArtifactClassification → String
  | .publicAccess => "public"
  | .internal => "internal"
  | .confidential => "confidential"
  | .secret => "secret"

end ArtifactClassification

structure EncryptionDomain where
  value : String
  valid : validIdentity value
deriving DecidableEq

structure ArtifactProducer where
  tenant : String
  owner : String
  task : String
  context : String
  message : String
  dispatch : String
  valid : [tenant, owner, task, context, message, dispatch].all validIdentity
deriving DecidableEq

inductive DerivedRelation where
  | transformation
  | summary
  | extraction
  | redaction
deriving DecidableEq, Repr

def DerivedRelation.rank : DerivedRelation → Nat
  | .transformation => 0
  | .summary => 1
  | .extraction => 2
  | .redaction => 3

def DerivedRelation.name : DerivedRelation → String
  | .transformation => "transformation"
  | .summary => "summary"
  | .extraction => "extraction"
  | .redaction => "redaction"

structure DerivedFrom where
  relation : DerivedRelation
  artifactId : String
  valid : validArtifactId artifactId
deriving DecidableEq

/-- The derived order: by relation, then by identifier. -/
def DerivedFrom.le (a b : DerivedFrom) : Bool :=
  a.relation.rank < b.relation.rank ||
    (a.relation.rank == b.relation.rank && a.artifactId ≤ b.artifactId)

structure ArtifactPolicySnapshot where
  policyId : String
  revision : Nat
  digest : String
  createdAt : Int
  retainUntil : Int
  valid : validIdentity policyId ∧ 0 < revision ∧ createdAt ≤ retainUntil
deriving DecidableEq

structure ArtifactChunkV1 where
  ordinal : Nat
  offset : Nat
  length : Nat
  digest : String
deriving DecidableEq

/-! ## Manifests -/

/-- A manifest; no artifact is derived from itself. -/
structure ArtifactManifestV1 where
  artifactId : String
  name : String
  description : Option String
  mediaType : String
  classification : ArtifactClassification
  encryptionDomain : EncryptionDomain
  keyGeneration : String
  producer : ArtifactProducer
  derivedFrom : List DerivedFrom
  policy : ArtifactPolicySnapshot
  contentDigest : String
  plaintextLength : Nat
  chunks : List ArtifactChunkV1
  foreign : ∀ edge ∈ derivedFrom, edge.artifactId ≠ artifactId
deriving DecidableEq

/-- The scope an encryption domain starts with. -/
def EncryptionDomain.scope (domain : EncryptionDomain) : String :=
  String.ofList (domain.value.toList.takeWhile (· ≠ '/'))

/-- Some neighbours of the sorted list are equal. -/
def hasRepeat (edges : List DerivedFrom) : Bool :=
  (edges.zip edges.tail).any fun pair => pair.1 == pair.2

section Digests

variable [ContentDigest]

/-- One chunk; an ordinal or an offset that does not fit its integer is refused. -/
def artifactChunk (bytes : List UInt8) (ordinal : Nat) :
    Except ArtifactStoreError ArtifactChunkV1 := do
  require (ordinal < 2 ^ 32) .invalid
  require (ordinal * artifactChunkBytes < 2 ^ 64) .invalid
  .ok ⟨ordinal, ordinal * artifactChunkBytes, bytes.length, contentDigest bytes⟩

def artifactChunks (plaintext : List UInt8) : Except ArtifactStoreError (List ArtifactChunkV1) :=
  (plaintext.toChunks artifactChunkBytes).zipIdx.mapM fun (bytes, ordinal) =>
    artifactChunk bytes ordinal

def ArtifactManifestV1.new [MimeParser] (artifactId name : String) (description : Option String)
    (mediaType : String) (classification : ArtifactClassification)
    (encryptionDomain : EncryptionDomain) (keyGeneration : String) (producer : ArtifactProducer)
    (derivedFrom : List DerivedFrom) (policy : ArtifactPolicySnapshot) (plaintext : List UInt8) :
    Except ArtifactStoreError ArtifactManifestV1 := do
  let mediaType ← normalizeMediaType mediaType
  validateArtifactId artifactId
  validateVisible name maxNameBytes
  validateIdentity keyGeneration
  require (∀ value ∈ description, validVisible value maxDescriptionBytes) .invalid
  require (producer.tenant = encryptionDomain.scope) .invalid
  require (derivedFrom.length ≤ maxDerivedFrom) .invalid
  let sorted := derivedFrom.insertionSort fun a b => a.le b = true
  require (¬ hasRepeat sorted) .invalid
  if foreign : ∀ edge ∈ sorted, edge.artifactId ≠ artifactId then do
    let chunks ← artifactChunks plaintext
    .ok { artifactId, name, description, mediaType, classification, encryptionDomain,
          keyGeneration, producer, derivedFrom := sorted, policy,
          contentDigest := ContentDigest.contentDigest plaintext, plaintextLength := plaintext.length,
          chunks, foreign }
  else .error .invalid

end Digests

namespace ArtifactManifestV1

def producerJson (producer : ArtifactProducer) : Json :=
  .obj [("tenant", .str producer.tenant), ("owner", .str producer.owner),
    ("task", .str producer.task), ("context", .str producer.context),
    ("message", .str producer.message), ("dispatch", .str producer.dispatch)]

def derivedFromJson (edge : DerivedFrom) : Json :=
  .obj [("relation", .str edge.relation.name), ("artifactId", .str edge.artifactId)]

def policyJson (policy : ArtifactPolicySnapshot) : Json :=
  .obj [("policyId", .str policy.policyId), ("revision", .num (toString policy.revision)),
    ("digest", .str policy.digest), ("createdAt", .num (toString policy.createdAt)),
    ("retainUntil", .num (toString policy.retainUntil))]

def chunkJson (chunk : ArtifactChunkV1) : Json :=
  .obj [("ordinal", .num (toString chunk.ordinal)), ("offset", .num (toString chunk.offset)),
    ("length", .num (toString chunk.length)), ("digest", .str chunk.digest)]

/-- The canonical form; the key generation is not part of it. -/
def canonical (m : ArtifactManifestV1) : Json :=
  .obj [("schema", .str "smesh-artifact-manifest/v1"), ("artifactId", .str m.artifactId),
    ("name", .str m.name), ("description", m.description.elim .null .str),
    ("mediaType", .str m.mediaType), ("classification", .str m.classification.name),
    ("encryptionDomain", .str m.encryptionDomain.value), ("producer", producerJson m.producer),
    ("derivedFrom", .arr (m.derivedFrom.map derivedFromJson)), ("policy", policyJson m.policy),
    ("contentDigest", .str m.contentDigest),
    ("plaintextLength", .num (toString m.plaintextLength)),
    ("chunks", .arr (m.chunks.map chunkJson))]

def manifestDigest [ContentDigest] (m : ArtifactManifestV1) : String :=
  ContentDigest.contentDigest (manifestDomain ++ m.canonical.render.toUTF8.data.toList)

end ArtifactManifestV1

def verifyPlaintext [ContentDigest] (manifest : ArtifactManifestV1) (bytes : List UInt8) :
    Except ArtifactStoreError Unit :=
  require (bytes.length = manifest.plaintextLength ∧
    contentDigest bytes = manifest.contentDigest) .integrity

end SmeshDurable.Catalog
