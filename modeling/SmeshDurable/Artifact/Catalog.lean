import Mathlib.Data.Finset.Basic
import Mathlib.Logic.Function.Basic
import SmeshDurable.Artifact.Manifest
import SmeshDurable.Library.Timed

/-!
# The artifact catalog

Entries by tenant and artifact identifier, the blobs they refer to, and the collections in
progress. Every call holds the catalog's lock from start to end except a collection, which
takes it three times and deletes the blob in between without it; the steps of the system are
the stretches under the lock and that deletion, in any interleaving. Random generations and
tokens, and what the file system answers, are part of the step.
-/

namespace SmeshDurable.Catalog

open Transaction

/-! ## The state -/

structure ArtifactKey where
  tenant : String
  artifactId : String
deriving DecidableEq, Repr

namespace ArtifactKey

/-- By tenant, then by identifier. -/
def compare (a b : ArtifactKey) : Ordering :=
  compareLex (compareOn tenant) (compareOn artifactId) a b

instance : Std.TransCmp compare := inferInstanceAs (Std.TransCmp (compareLex _ _))

instance : Std.LawfulEqCmp compare where
  eq_of_compare {a b} h := by
    obtain ⟨htenant, hid⟩ := compareLex_eq_eq.mp h
    cases a
    cases b
    simp_all [compareOn]

end ArtifactKey

def ArtifactManifestV1.key (m : ArtifactManifestV1) : ArtifactKey :=
  ⟨m.producer.tenant, m.artifactId⟩

/-- The artifact an edge of the manifest points to. -/
def ArtifactManifestV1.parentKey (m : ArtifactManifestV1) (edge : DerivedFrom) : ArtifactKey :=
  ⟨m.producer.tenant, edge.artifactId⟩

structure StoredArtifact where
  relativePath : String
deriving DecidableEq

/-- A catalog entry; leases are kept with the instant they expire at. -/
structure CatalogEntry where
  manifest : ArtifactManifestV1
  object : StoredArtifact
  referenceLive : Bool
  tombstoned : Bool
  holds : Finset String
  leases : Std.ExtTreeMap String Int
  deletionFence : Nat

def CatalogEntry.path (e : CatalogEntry) : String := e.object.relativePath

inductive RetentionDecision where
  | live
  | held
  | deleted
deriving DecidableEq

/-- Where a collection stands: before it looks for other users of the blob, before it deletes
the blob, before it removes the entry. -/
inductive CollectionPhase where
  | checking
  | deleting
  | removing
deriving DecidableEq

/-- A collection between two of its steps. -/
structure Collection where
  key : ArtifactKey
  object : StoredArtifact
  fence : Nat
  phase : CollectionPhase

def Collection.path (c : Collection) : String := c.object.relativePath

/-- The catalog, the blobs in its store, and the collection each thread is running. -/
structure ArtifactCatalog where
  entries : Std.ExtTreeMap ArtifactKey CatalogEntry ArtifactKey.compare
  blobs : Finset String
  running : Nat → Option Collection

def ArtifactCatalog.new : ArtifactCatalog := ⟨∅, ∅, fun _ => none⟩

/-- The result of a call and the state it leaves; a failed call may have changed it. -/
abbrev Outcome (α : Type) := Except ArtifactStoreError α × ArtifactCatalog

/-- What the blob store made of a new object. It may have been linked under its final name
although the promotion was reported as failed. -/
inductive Promotion where
  | stored (object : StoredArtifact)
  | linked (object : StoredArtifact) (error : ArtifactStoreError)
  | failed (error : ArtifactStoreError)

/-- What deleting a blob came to; it may be gone although the deletion was reported as
failed. -/
inductive Deletion where
  | done
  | unsynced
  | failed
deriving DecidableEq

def i64Max : Int := 2 ^ 63 - 1
def u64Max : Nat := 2 ^ 64 - 1

namespace CatalogEntry

/-- The entry of a newly published artifact. -/
def published (m : ArtifactManifestV1) (object : StoredArtifact) : CatalogEntry :=
  { manifest := m, object, referenceLive := true, tombstoned := false, holds := ∅, leases := ∅,
    deletionFence := 0 }

def authorized (e : CatalogEntry) (owner task : String) : Bool :=
  !e.tombstoned && e.referenceLive && e.manifest.producer.owner == owner &&
    e.manifest.producer.task == task

/-- The checks a new artifact makes of each artifact it is derived from. -/
def mayBeParent (m : ArtifactManifestV1) (e : CatalogEntry) : Bool :=
  !e.tombstoned && e.manifest.classification ≤ m.classification &&
    e.manifest.encryptionDomain = m.encryptionDomain

/-- A new artifact may share the blob of this entry. -/
def sharable (m : ArtifactManifestV1) (e : CatalogEntry) : Bool :=
  !e.tombstoned && e.manifest.producer.tenant == m.producer.tenant &&
    e.manifest.producer.owner == m.producer.owner &&
    e.manifest.contentDigest == m.contentDigest &&
    e.manifest.classification = m.classification &&
    e.manifest.encryptionDomain = m.encryptionDomain &&
    e.manifest.keyGeneration == m.keyGeneration

/-- The entry without the leases that have expired. -/
def expire (e : CatalogEntry) (now : Int) : CatalogEntry :=
  { e with leases := e.leases.filter fun _ expiry => now < expiry }

end CatalogEntry

namespace ArtifactCatalog

variable (s : ArtifactCatalog)

def put (key : ArtifactKey) (e : CatalogEntry) : ArtifactCatalog :=
  { s with entries := s.entries.insert key e }

def run (thread : Nat) (c : Option Collection) : ArtifactCatalog :=
  { s with running := Function.update s.running thread c }

/-! ## Calls under the lock -/

def publish [ContentDigest] (m : ArtifactManifestV1) (bytes : List UInt8)
    (promotion : Promotion) : Outcome Unit :=
  match verifyPlaintext m bytes with
  | .error error => (.error error, s)
  | .ok () =>
    match s.entries[m.key]? with
    | some existing =>
      (if existing.manifest.manifestDigest = m.manifestDigest then .ok ()
        else .error .conflict, s)
    | none =>
      if m.derivedFrom.all fun edge =>
          (s.entries[m.parentKey edge]?).any (CatalogEntry.mayBeParent m) then
        match s.entries.toList.find? fun pair => CatalogEntry.sharable m pair.2 with
        | some (_, existing) => (.ok (), s.put m.key (.published m existing.object))
        | none =>
          match promotion with
          | .stored object =>
            (.ok (), { s.put m.key (.published m object) with
              blobs := insert object.relativePath s.blobs })
          | .linked object error =>
            (.error error, { s with blobs := insert object.relativePath s.blobs })
          | .failed error => (.error error, s)
      else (.error .denied, s)

def acquireReadLease (tenant owner task artifactId : String) (now ttl : Int) (token : String) :
    Outcome String :=
  if ttl ≤ 0 then (.error .invalid, s)
  else
    match (s.entries[(⟨tenant, artifactId⟩ : ArtifactKey)]?).filter (·.authorized owner task) with
    | none => (.error .denied, s)
    | some e =>
      if now + ttl ≤ i64Max then
        (.ok token, s.put ⟨tenant, artifactId⟩
          { e with leases := e.leases.insert token (now + ttl) })
      else (.error .invalid, s)

def releaseReadLease (token : String) : Outcome Unit :=
  match s.entries.toList.find? fun pair => (pair.2.leases[token]?).isSome with
  | some (key, e) => (.ok (), s.put key { e with leases := e.leases.erase token })
  | none => (.error .denied, s)

def placeLegalHold (tenant artifactId hold : String) : Outcome Unit :=
  if validIdentity hold then
    match s.entries[(⟨tenant, artifactId⟩ : ArtifactKey)]? with
    | none => (.error .denied, s)
    | some e => (.ok (), s.put ⟨tenant, artifactId⟩ { e with holds := insert hold e.holds })
  else (.error .invalid, s)

def releaseLegalHold (tenant artifactId hold : String) : Outcome Unit :=
  match s.entries[(⟨tenant, artifactId⟩ : ArtifactKey)]? with
  | none => (.error .denied, s)
  | some e =>
    (if hold ∈ e.holds then .ok () else .error .denied,
      s.put ⟨tenant, artifactId⟩ { e with holds := e.holds.erase hold })

def releaseReference (tenant task artifactId : String) : Outcome Unit :=
  match (s.entries[(⟨tenant, artifactId⟩ : ArtifactKey)]?).filter
      (·.manifest.producer.task == task) with
  | none => (.error .denied, s)
  | some e => (.ok (), s.put ⟨tenant, artifactId⟩ { e with referenceLive := false })

/-! ## Collection -/

/-- The first stretch of a collection: it ends there with a decision, or the entry is a
tombstone and the thread goes on with the collection. -/
def gcTombstone (thread : Nat) (tenant artifactId : String) (now : Int) (batch : Nat) :
    Outcome (Option RetentionDecision) :=
  if 1 ≤ batch ∧ batch ≤ 1000 then
    match s.entries[(⟨tenant, artifactId⟩ : ArtifactKey)]? with
    | none => (.error .denied, s)
    | some entry =>
      let e := entry.expire now
      if e.holds ≠ ∅ then (.ok (some .held), s.put ⟨tenant, artifactId⟩ e)
      else if e.referenceLive ∨ ¬ e.leases.isEmpty ∨ now < e.manifest.policy.retainUntil then
        (.ok (some .live), s.put ⟨tenant, artifactId⟩ e)
      else if e.deletionFence + 1 ≤ u64Max then
        (.ok none, (s.put ⟨tenant, artifactId⟩
            { e with tombstoned := true, deletionFence := e.deletionFence + 1 }).run thread
          (some ⟨⟨tenant, artifactId⟩, e.object, e.deletionFence + 1, .checking⟩))
      else (.error .unavailable, s.put ⟨tenant, artifactId⟩ { e with tombstoned := true })
  else (.error .invalid, s)

/-- Another entry than the collected one still needs the blob. -/
def shares (c : Collection) : Bool :=
  s.entries.toList.any fun pair =>
    pair.1 ≠ c.key && !pair.2.tombstoned && pair.2.path == c.path

def gcCheck (thread : Nat) (c : Collection) : ArtifactCatalog :=
  s.run thread (some { c with phase := if s.shares c then .removing else .deleting })

/-- The deletion, without the lock. A blob that is already gone counts as deleted. -/
def gcDelete (thread : Nat) (c : Collection) : Deletion → ArtifactCatalog
  | .done => { s.run thread (some { c with phase := .removing }) with
      blobs := s.blobs.erase c.path }
  | .unsynced => { s.run thread none with blobs := s.blobs.erase c.path }
  | .failed => s.run thread none

def gcRemove (thread : Nat) (c : Collection) : Outcome RetentionDecision :=
  match s.entries[c.key]? with
  | none => (.error .conflict, s.run thread none)
  | some e =>
    if !e.tombstoned ∨ e.deletionFence ≠ c.fence then (.error .conflict, s.run thread none)
    else (.ok .deleted, { s.run thread none with entries := s.entries.erase c.key })

end ArtifactCatalog

/-! ## The system -/

inductive CatalogCall where
  | publish (m : ArtifactManifestV1) (bytes : List UInt8) (promotion : Promotion)
  | acquireReadLease (tenant owner task artifactId : String) (ttl : Int) (token : String)
  | releaseReadLease (token : String)
  | placeLegalHold (tenant artifactId hold : String)
  | releaseLegalHold (tenant artifactId hold : String)
  | releaseReference (tenant task artifactId : String)
  | gc (thread : Nat) (tenant artifactId : String) (batch : Nat)
  | gcResume (thread : Nat) (deletion : Deletion)

structure CatalogAction where
  now : Int
  call : CatalogCall

/-- The next step of a collection in progress. -/
def Collection.resume (s : ArtifactCatalog) (thread : Nat) (c : Collection)
    (deletion : Deletion) : ArtifactCatalog :=
  match c.phase with
  | .checking => s.gcCheck thread c
  | .deleting => s.gcDelete thread c deletion
  | .removing => (s.gcRemove thread c).2

/-- A thread that is running a collection does not start another. -/
def CatalogCall.perform [ContentDigest] (s : ArtifactCatalog) (now : Int) :
    CatalogCall → ArtifactCatalog
  | .publish m bytes promotion => (s.publish m bytes promotion).2
  | .acquireReadLease tenant owner task artifactId ttl token =>
    (s.acquireReadLease tenant owner task artifactId now ttl token).2
  | .releaseReadLease token => (s.releaseReadLease token).2
  | .placeLegalHold tenant artifactId hold => (s.placeLegalHold tenant artifactId hold).2
  | .releaseLegalHold tenant artifactId hold => (s.releaseLegalHold tenant artifactId hold).2
  | .releaseReference tenant task artifactId => (s.releaseReference tenant task artifactId).2
  | .gc thread tenant artifactId batch =>
    match s.running thread with
    | none => (s.gcTombstone thread tenant artifactId now batch).2
    | some _ => s
  | .gcResume thread deletion =>
    match s.running thread with
    | none => s
    | some c => c.resume s thread deletion

def catalogSystem [ContentDigest] : Clocked ArtifactCatalog CatalogAction where
  time := CatalogAction.now
  next s a := a.call.perform s a.now

/-! ## What a step does -/

namespace ArtifactCatalog

variable {s : ArtifactCatalog} {key k : ArtifactKey} {e : CatalogEntry} {thread : Nat}
  {c : Option Collection}

@[simp] theorem getElem?_put : (s.put key e).entries[k]? =
    if key = k then some e else s.entries[k]? := by
  simp [put, Std.ExtTreeMap.getElem?_insert]

theorem put_eq_some {x : CatalogEntry} : (s.put key e).entries[k]? = some x ↔
    (key = k ∧ e = x) ∨ (key ≠ k ∧ s.entries[k]? = some x) := by
  rw [getElem?_put]
  by_cases h : key = k <;> simp [h]

@[simp] theorem blobs_put : (s.put key e).blobs = s.blobs := rfl

@[simp] theorem running_put : (s.put key e).running = s.running := rfl

@[simp] theorem entries_run : (s.run thread c).entries = s.entries := rfl

@[simp] theorem blobs_run : (s.run thread c).blobs = s.blobs := rfl

theorem find?_entries {p : ArtifactKey × CatalogEntry → Bool} {pair : ArtifactKey × CatalogEntry}
    (h : s.entries.toList.find? p = some pair) :
    s.entries[pair.1]? = some pair.2 ∧ p pair = true :=
  ⟨Std.ExtTreeMap.mem_toList_iff_getElem?_eq_some.mp (List.mem_of_find?_eq_some h),
    List.find?_some h⟩

end ArtifactCatalog

/-! ## A sample -/

def sampleProducer : ArtifactProducer :=
  ⟨"tenant", "owner", "task", "context", "message", "dispatch", by decide⟩

def sampleParent (artifactId : String) (valid : validArtifactId artifactId) : DerivedFrom :=
  ⟨.summary, artifactId, valid⟩

/-- The manifest of an empty artifact that need not be retained. -/
def sampleManifest [ContentDigest] (artifactId : String) (derivedFrom : List DerivedFrom)
    (foreign : ∀ edge ∈ derivedFrom, edge.artifactId ≠ artifactId) : ArtifactManifestV1 :=
  { artifactId, name := "name", description := none, mediaType := "text/plain",
    classification := .internal, encryptionDomain := ⟨"tenant/domain", by decide⟩,
    keyGeneration := "key", producer := sampleProducer, derivedFrom,
    policy := ⟨"policy", 1, contentDigest [], 0, 0, by decide⟩,
    contentDigest := contentDigest [], plaintextLength := 0, chunks := [], foreign }

/-- The first artifact of the samples is derived from nothing. -/
theorem first_underived : ∀ edge ∈ ([] : List DerivedFrom), edge.artifactId ≠ "first" :=
  List.forall_mem_nil _

end SmeshDurable.Catalog
