import SmeshDurable.Artifact.Blobs
import SmeshDurable.Library.JsonText
import SmeshDurable.Library.TextLines

/-!
# Publishing and resolving

The catalog over the blob store it writes to. A new blob is the plaintext encrypted under the
manifest of the artifact it was made for; other artifacts with the same content may come to
share it, and are then read under their own manifests. The part of a `StoredArtifact` that only
reading uses is kept with the file under its path. Cipher and keyring are parameters; what is
drawn at random and what the file system answers are part of a call.
-/

namespace SmeshDurable.Catalog

open Transaction TextLines

/-! ## The blob store -/

/-- Authenticated encryption: what is opened under the key, the nonce and the associated data it
was sealed with is what was sealed. -/
class Aead where
  encrypt (key nonce aad plaintext : List UInt8) : List UInt8
  decrypt (key nonce aad ciphertext : List UInt8) : Option (List UInt8)
  decrypt_encrypt : ∀ key nonce aad plaintext,
    decrypt key nonce aad (encrypt key nonce aad plaintext) = some plaintext

/-- An open store: its limit, its keyring, and the directory a manifest is filed under. -/
structure PosixArtifactBlobStore where
  maxArtifactBytes : Nat
  key : String → Except ArtifactStoreError (List UInt8)
  shard : ArtifactManifestV1 → String

/-- A file, and the fields of the object it was written for. -/
structure StoredBlob where
  nonce : List UInt8
  ciphertextDigest : String
  ciphertextLength : Nat
  keyGeneration : String
  file : List UInt8

/-- What the file system answers while a new object is staged and promoted. -/
inductive StageOutcome where
  | stored
  | linked (error : ArtifactStoreError)
  | failed (error : ArtifactStoreError)
deriving DecidableEq

/-- What a publication draws at random, and how its files fare. -/
structure Draw where
  nonce : List UInt8
  generation : String
  outcome : StageOutcome

def storedDomain : List UInt8 := bytes "smesh-artifact-ciphertext/v1\x00"

/-- The data a ciphertext is bound to. -/
def aad (m : ArtifactManifestV1) : List UInt8 :=
  bytes ("smesh-artifact-aead/v1\x00" ++ m.producer.tenant ++ "\x00" ++ m.producer.owner ++ "\x00" ++
    m.encryptionDomain.value ++ "\x00" ++ m.classification.name ++ "\x00" ++ m.contentDigest ++
    "\x00" ++ toString m.plaintextLength ++ "\x00" ++ m.keyGeneration)

section Store

variable [ContentDigest] [Aead] (store : PosixArtifactBlobStore)

def storedDigest (file : List UInt8) : String := contentDigest (storedDomain ++ file)

namespace PosixArtifactBlobStore

def stage (m : ArtifactManifestV1) (plaintext nonce : List UInt8) :
    Except ArtifactStoreError StoredBlob := do
  require (plaintext.length ≤ store.maxArtifactBytes) .invalid
  verifyPlaintext m plaintext
  let key ← store.key m.keyGeneration
  let ciphertext := Aead.encrypt key nonce (aad m) plaintext
  .ok { nonce, ciphertextDigest := storedDigest ciphertext, ciphertextLength := ciphertext.length,
        keyGeneration := m.keyGeneration, file := ciphertext }

/-- The path of a new object. -/
def relativePath (m : ArtifactManifestV1) (generation : String) : String :=
  "objects/" ++ store.shard m ++ "/" ++ generation

/-- Staging and promotion of a new object. A name that is taken is a conflict. -/
def promotion (blobs : Finset String) (m : ArtifactManifestV1) (plaintext : List UInt8)
    (draw : Draw) : Promotion :=
  match store.stage m plaintext draw.nonce with
  | .error error => .failed error
  | .ok _ =>
    if store.relativePath m draw.generation ∈ blobs then .failed .conflict
    else
      match draw.outcome with
      | .stored => .stored ⟨store.relativePath m draw.generation⟩
      | .linked error => .linked ⟨store.relativePath m draw.generation⟩ error
      | .failed error => .failed error

end PosixArtifactBlobStore

/-! ## The catalog over its store -/

/-- The catalog, and what was written under each path. -/
structure ArtifactVault where
  catalog : ArtifactCatalog
  objects : String → Option StoredBlob

def ArtifactVault.new : ArtifactVault := ⟨.new, fun _ => none⟩

namespace ArtifactVault

variable (v : ArtifactVault)

def publish (m : ArtifactManifestV1) (plaintext : List UInt8) (draw : Draw) :
    Except ArtifactStoreError Unit × ArtifactVault :=
  let path := store.relativePath m draw.generation
  let (result, catalog) :=
    v.catalog.publish m plaintext (store.promotion v.catalog.blobs m plaintext draw)
  (result,
    { catalog
      objects := if path ∈ catalog.blobs ∧ path ∉ v.catalog.blobs then
          Function.update v.objects path (store.stage m plaintext draw.nonce).toOption
        else v.objects })

/-- The stretch of a resolution under the lock. -/
def lookup (tenant owner task artifactId : String) : Except ArtifactStoreError CatalogEntry :=
  expect ((v.catalog.entries[(⟨tenant, artifactId⟩ : ArtifactKey)]?).filter
    (·.authorized owner task)) .denied

def readVerified (m : ArtifactManifestV1) (object : StoredArtifact) :
    Except ArtifactStoreError (List UInt8) := do
  let blob ← expect (v.objects object.relativePath) .unavailable
  require (blob.keyGeneration = m.keyGeneration) .integrity
  require (object.relativePath ∈ v.catalog.blobs) .unavailable
  require (blob.file.length = blob.ciphertextLength) .integrity
  require (storedDigest blob.file = blob.ciphertextDigest) .integrity
  let key ← store.key blob.keyGeneration
  let plaintext ← expect (Aead.decrypt key blob.nonce (aad m) blob.file) .integrity
  verifyPlaintext m plaintext
  .ok plaintext

def resolve (tenant owner task artifactId : String) : Except ArtifactStoreError (List UInt8) := do
  let entry ← v.lookup tenant owner task artifactId
  v.readVerified store entry.manifest entry.object

end ArtifactVault

/-! ## The system -/

def CatalogCall.publishes : CatalogCall → Bool
  | .publish .. => true
  | _ => false

/-- A publication, or one of the other calls and steps of the catalog. -/
inductive VaultCall where
  | publish (m : ArtifactManifestV1) (plaintext : List UInt8) (draw : Draw)
  | other (call : CatalogCall) (hother : call.publishes = false)

structure VaultAction where
  now : Int
  call : VaultCall

namespace VaultCall

/-- The call as the catalog sees it. -/
def catalogCall (v : ArtifactVault) : VaultCall → CatalogCall
  | .publish m plaintext draw =>
    .publish m plaintext (store.promotion v.catalog.blobs m plaintext draw)
  | .other call _ => call

def perform (v : ArtifactVault) (now : Int) : VaultCall → ArtifactVault
  | .publish m plaintext draw => (v.publish store m plaintext draw).2
  | .other call _ => { v with catalog := call.perform v.catalog now }

/-- The catalog of the vault takes the steps of the catalog. -/
theorem catalog_perform (v : ArtifactVault) (now : Int) (call : VaultCall) :
    (call.perform store v now).catalog = (call.catalogCall store v).perform v.catalog now := by
  cases call with
  | publish m plaintext draw => rfl
  | other call hother => rfl

end VaultCall

def vaultSystem : Clocked ArtifactVault VaultAction where
  time := VaultAction.now
  next v a := a.call.perform store v a.now

end Store

end SmeshDurable.Catalog
