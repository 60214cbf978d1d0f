import SmeshDurable.Artifact.Catalog

/-!
# The effects of catalog steps

Each step either publishes an entry, changes the leases, holds or reference of one entry,
makes an entry a tombstone, or moves a collection on. Invariants of the catalog are proved
over these effects.
-/

namespace SmeshDurable.Catalog

/-- An entry before and after a call that touches only who needs it. -/
structure CatalogEntry.Touched (call : CatalogCall) (now : Int) (key : ArtifactKey)
    (e e' : CatalogEntry) : Prop where
  manifest : e'.manifest = e.manifest
  object : e'.object = e.object
  tombstoned : e'.tombstoned = e.tombstoned
  referenceLive : e'.referenceLive = true → e.referenceLive = true
  referenceLive_kept : e.referenceLive = true → e'.referenceLive = true ∨
    ∃ task, call = .releaseReference key.tenant task key.artifactId
  holds : ∀ hold ∈ e'.holds,
    hold ∈ e.holds ∨ call = .placeLegalHold key.tenant key.artifactId hold
  holds_kept : ∀ hold ∈ e.holds,
    hold ∈ e'.holds ∨ call = .releaseLegalHold key.tenant key.artifactId hold
  leases : ∀ (token : String) (expiry : Int), e'.leases[token]? = some expiry →
    e.leases[token]? = some expiry ∨ e.tombstoned = false
  leases_kept : ∀ (token : String) (expiry : Int), e.leases[token]? = some expiry → now < expiry →
    e'.leases[token]? = some expiry ∨ call = .releaseReadLease token ∨
      ∃ owner task ttl, call = .acquireReadLease key.tenant owner task key.artifactId ttl token

/-- Nothing prevents the collection of an entry. -/
structure CatalogEntry.Collectable (e : CatalogEntry) (now : Int) : Prop where
  referenceLive : e.referenceLive = false
  retainUntil : e.manifest.policy.retainUntil ≤ now
  leases : ∀ (token : String) (expiry : Int), e.leases[token]? = some expiry → expiry ≤ now
  holds : e.holds = ∅

/-- The tombstone of an entry: what it was, without leases. -/
structure CatalogEntry.Buried (e e' : CatalogEntry) : Prop where
  manifest : e'.manifest = e.manifest
  object : e'.object = e.object
  tombstoned : e'.tombstoned = true
  referenceLive : e'.referenceLive = e.referenceLive
  holds : e'.holds = e.holds
  leases : e'.leases = ∅

/-- The artifacts a new one is derived from are there and may be its parents. -/
def ArtifactCatalog.Parents (s : ArtifactCatalog) (m : ArtifactManifestV1) : Prop :=
  ∀ edge ∈ m.derivedFrom, ∃ parent, s.entries[m.parentKey edge]? = some parent ∧
    parent.mayBeParent m = true

/-- What a step of the catalog does. -/
inductive CatalogEffect (s : ArtifactCatalog) (now : Int) : CatalogCall → ArtifactCatalog → Prop
  | unchanged {call : CatalogCall} : CatalogEffect s now call s
  | shared {m : ArtifactManifestV1} {bytes : List UInt8} {promotion : Promotion}
      {k : ArtifactKey} {other : CatalogEntry} (hnew : s.entries[m.key]? = none)
      (hparents : s.Parents m) (hother : s.entries[k]? = some other)
      (hsharable : other.sharable m = true) :
      CatalogEffect s now (.publish m bytes promotion) (s.put m.key (.published m other.object))
  | stored {m : ArtifactManifestV1} {bytes : List UInt8} {object : StoredArtifact}
      (hnew : s.entries[m.key]? = none) (hparents : s.Parents m) :
      CatalogEffect s now (.publish m bytes (.stored object))
        { s.put m.key (.published m object) with blobs := insert object.relativePath s.blobs }
  | linked {m : ArtifactManifestV1} {bytes : List UInt8} {object : StoredArtifact}
      {error : ArtifactStoreError} :
      CatalogEffect s now (.publish m bytes (.linked object error))
        { s with blobs := insert object.relativePath s.blobs }
  | touched {call : CatalogCall} {key : ArtifactKey} {e e' : CatalogEntry}
      (he : s.entries[key]? = some e) (htouched : e.Touched call now key e') :
      CatalogEffect s now call (s.put key e')
  | buried {call : CatalogCall} {key : ArtifactKey} {e e' : CatalogEntry}
      {running : Nat → Option Collection} (he : s.entries[key]? = some e)
      (hdue : e.Collectable now) (hburied : e.Buried e')
      (hrunning : ∀ thread c, running thread = some c → s.running thread = some c ∨
        c.key = key ∧ c.object = e.object ∧ c.phase = .checking) :
      CatalogEffect s now call { s.put key e' with running := running }
  | checked {call : CatalogCall} {thread : Nat} {c : Collection} {phase : CollectionPhase}
      (hc : s.running thread = some c) (hphase : c.phase = .checking)
      (hchecked : phase = .deleting ∧ s.shares c = false ∨ phase = .removing) :
      CatalogEffect s now call (s.run thread (some { c with phase := phase }))
  | deleted {call : CatalogCall} {thread : Nat} {c : Collection} {next : Option Collection}
      (hc : s.running thread = some c) (hphase : c.phase = .deleting)
      (hnext : next = none ∨ next = some { c with phase := .removing }) :
      CatalogEffect s now call { s.run thread next with blobs := s.blobs.erase c.path }
  | removed {call : CatalogCall} {thread : Nat} {c : Collection} {e : CatalogEntry}
      (he : s.entries[c.key]? = some e) (htombstoned : e.tombstoned = true) :
      CatalogEffect s now call { s.run thread none with entries := s.entries.erase c.key }
  | ended {call : CatalogCall} {thread : Nat} : CatalogEffect s now call (s.run thread none)

/-! ## Touched entries -/

section Touched

variable {now : Int} {call : CatalogCall} {key : ArtifactKey} {e : CatalogEntry}

namespace CatalogEntry

theorem expire_leases (token : String) :
    (e.expire now).leases[token]? = (e.leases[token]?).filter (now < ·) := by
  simp only [expire, Std.ExtTreeMap.getElem?_filter]
  cases e.leases[token]? <;> simp

theorem Collectable.of_expire (hreference : e.referenceLive = false)
    (hretain : e.manifest.policy.retainUntil ≤ now) (hleases : (e.expire now).leases = ∅)
    (hholds : e.holds = ∅) : e.Collectable now := by
  refine ⟨hreference, hretain, ?_, hholds⟩
  intro token expiry hlease
  have hnone : (e.expire now).leases[token]? = none := by simp [hleases]
  rw [expire_leases, hlease] at hnone
  simpa using hnone

theorem touched_expire : e.Touched call now key (e.expire now) where
  manifest := rfl
  object := rfl
  tombstoned := rfl
  referenceLive := id
  referenceLive_kept := .inl
  holds := fun _ hhold => .inl hhold
  holds_kept := fun _ hhold => .inl hhold
  leases := by
    intro token expiry hlease
    rw [expire_leases, Option.filter_eq_some_iff] at hlease
    exact .inl hlease.1
  leases_kept := by
    intro token expiry hlease hexpiry
    rw [expire_leases, hlease]
    simp [hexpiry]

end CatalogEntry

end Touched

/-! ## Calls under the lock -/

section Effect

variable {s : ArtifactCatalog} {now : Int}

theorem parents_iff_all {m : ArtifactManifestV1} :
    s.Parents m ↔ (m.derivedFrom.all fun edge =>
      (s.entries[m.parentKey edge]?).any (CatalogEntry.mayBeParent m)) = true := by
  simp only [ArtifactCatalog.Parents, List.all_eq_true, Option.any_eq_true]

theorem publish_effect [ContentDigest] (m : ArtifactManifestV1) (bytes : List UInt8) (promotion : Promotion) :
    CatalogEffect s now (.publish m bytes promotion) (s.publish m bytes promotion).2 := by
  unfold ArtifactCatalog.publish
  cases verifyPlaintext m bytes with
  | error error => exact .unchanged
  | ok _ =>
    cases hentry : s.entries[m.key]? with
    | some existing => exact .unchanged
    | none =>
      dsimp only
      split
      case isFalse => exact .unchanged
      case isTrue hall =>
        have hparents := parents_iff_all.mpr hall
        cases hfind : s.entries.toList.find? fun pair => pair.2.sharable m with
        | some pair =>
          obtain ⟨hother, hsharable⟩ := ArtifactCatalog.find?_entries hfind
          exact .shared hentry hparents hother hsharable
        | none =>
          cases promotion with
          | stored object => exact .stored hentry hparents
          | linked object error => exact .linked
          | failed error => exact .unchanged

theorem acquireReadLease_effect (tenant owner task artifactId : String) (ttl : Int)
    (token : String) :
    CatalogEffect s now (.acquireReadLease tenant owner task artifactId ttl token)
      (s.acquireReadLease tenant owner task artifactId now ttl token).2 := by
  unfold ArtifactCatalog.acquireReadLease
  split
  · exact .unchanged
  split
  · exact .unchanged
  next e hfilter =>
    obtain ⟨he, hauthorized⟩ := Option.filter_eq_some_iff.mp hfilter
    split
    case isFalse => exact .unchanged
    case isTrue =>
      refine .touched he ⟨rfl, rfl, rfl, id, .inl, fun _ h => .inl h, fun _ h => .inl h, ?_, ?_⟩
      · intro _ _ _
        right
        simp only [CatalogEntry.authorized, Bool.and_eq_true, Bool.not_eq_true'] at hauthorized
        exact hauthorized.1.1.1
      · intro other expiry hlease _
        by_cases hsame : token = other
        · subst hsame
          exact .inr (.inr ⟨owner, task, ttl, rfl⟩)
        · simp [Std.ExtTreeMap.getElem?_insert, hsame, hlease]

theorem releaseReadLease_effect (token : String) :
    CatalogEffect s now (.releaseReadLease token) (s.releaseReadLease token).2 := by
  unfold ArtifactCatalog.releaseReadLease
  split
  next key e hfind =>
    obtain ⟨he, -⟩ := ArtifactCatalog.find?_entries hfind
    refine .touched he ⟨rfl, rfl, rfl, id, .inl, fun _ h => .inl h, fun _ h => .inl h, ?_, ?_⟩
    · intro other expiry hlease
      rw [Std.ExtTreeMap.getElem?_erase] at hlease
      split at hlease
      · cases hlease
      · exact .inl hlease
    · intro other expiry hlease _
      by_cases hsame : token = other
      · exact .inr (.inl (hsame ▸ rfl))
      · simp [Std.ExtTreeMap.getElem?_erase, hsame, hlease]
  · exact .unchanged

theorem placeLegalHold_effect (tenant artifactId hold : String) :
    CatalogEffect s now (.placeLegalHold tenant artifactId hold)
      (s.placeLegalHold tenant artifactId hold).2 := by
  unfold ArtifactCatalog.placeLegalHold
  split
  case isFalse => exact .unchanged
  split
  · exact .unchanged
  next e he =>
    refine .touched he ⟨rfl, rfl, rfl, id, .inl, ?_, ?_, fun _ _ h => .inl h, fun _ _ h _ => .inl h⟩
    · intro other hother
      rcases Finset.mem_insert.mp hother with rfl | hold
      · exact .inr rfl
      · exact .inl hold
    · intro other hother
      exact .inl (Finset.mem_insert_of_mem hother)

theorem releaseLegalHold_effect (tenant artifactId hold : String) :
    CatalogEffect s now (.releaseLegalHold tenant artifactId hold)
      (s.releaseLegalHold tenant artifactId hold).2 := by
  unfold ArtifactCatalog.releaseLegalHold
  split
  · exact .unchanged
  next e he =>
    refine .touched he ⟨rfl, rfl, rfl, id, .inl, ?_, ?_, fun _ _ h => .inl h, fun _ _ h _ => .inl h⟩
    · intro other hother
      exact .inl (Finset.mem_of_mem_erase hother)
    · intro other hother
      by_cases hsame : other = hold
      · exact .inr (hsame ▸ rfl)
      · exact .inl (Finset.mem_erase.mpr ⟨hsame, hother⟩)

theorem releaseReference_effect (tenant task artifactId : String) :
    CatalogEffect s now (.releaseReference tenant task artifactId)
      (s.releaseReference tenant task artifactId).2 := by
  unfold ArtifactCatalog.releaseReference
  split
  · exact .unchanged
  next e hfilter =>
    obtain ⟨he, -⟩ := Option.filter_eq_some_iff.mp hfilter
    exact .touched he ⟨rfl, rfl, rfl, fun h => by simp at h, fun _ => .inr ⟨task, rfl⟩,
      fun _ h => .inl h, fun _ h => .inl h, fun _ _ h => .inl h, fun _ _ h _ => .inl h⟩

/-! ## Collections -/

theorem gcTombstone_effect {call : CatalogCall} (thread : Nat) (tenant artifactId : String)
    (batch : Nat) :
    CatalogEffect s now call (s.gcTombstone thread tenant artifactId now batch).2 := by
  unfold ArtifactCatalog.gcTombstone
  split
  case isFalse => exact .unchanged
  split
  · exact .unchanged
  next e he =>
    dsimp only
    split
    · exact .touched he CatalogEntry.touched_expire
    next hholds =>
      split
      · exact .touched he CatalogEntry.touched_expire
      next hdue =>
        simp only [not_or, Bool.not_eq_true, Bool.not_eq_false, not_not, not_lt] at hdue hholds
        have hleases := Std.ExtTreeMap.isEmpty_iff.mp hdue.2.1
        have hcollectable : e.Collectable now := .of_expire hdue.1 hdue.2.2 hleases hholds
        split
        · refine .buried he hcollectable ⟨rfl, rfl, rfl, rfl, rfl, hleases⟩ ?_
          intro other c hc
          by_cases hsame : other = thread
          · subst hsame
            obtain rfl : _ = c := by simpa using hc
            exact .inr ⟨rfl, rfl, rfl⟩
          · left
            simpa [Function.update_of_ne hsame] using hc
        · exact .buried he hcollectable ⟨rfl, rfl, rfl, rfl, rfl, hleases⟩ fun _ _ hc => .inl hc

theorem resume_effect {call : CatalogCall} {thread : Nat} {c : Collection} (deletion : Deletion)
    (hc : s.running thread = some c) :
    CatalogEffect s now call (c.resume s thread deletion) := by
  unfold Collection.resume
  cases hphase : c.phase with
  | checking =>
    refine .checked hc hphase ?_
    cases hshares : s.shares c <;> simp
  | deleting =>
    cases deletion with
    | done => exact .deleted hc hphase (.inr rfl)
    | unsynced => exact .deleted hc hphase (.inl rfl)
    | failed => exact .ended
  | removing =>
    dsimp only [ArtifactCatalog.gcRemove]
    split
    · exact .ended
    next e he =>
      split
      · exact .ended
      next hstill =>
        simp only [not_or, Bool.not_eq_true', Bool.not_eq_false] at hstill
        exact .removed he hstill.1

/-- Every step of the system has one of the effects. -/
theorem perform_effect [ContentDigest] (call : CatalogCall) :
    CatalogEffect s now call (call.perform s now) := by
  cases call with
  | publish m bytes promotion => exact publish_effect m bytes promotion
  | acquireReadLease tenant owner task artifactId ttl token =>
    exact acquireReadLease_effect tenant owner task artifactId ttl token
  | releaseReadLease token => exact releaseReadLease_effect token
  | placeLegalHold tenant artifactId hold => exact placeLegalHold_effect tenant artifactId hold
  | releaseLegalHold tenant artifactId hold => exact releaseLegalHold_effect tenant artifactId hold
  | releaseReference tenant task artifactId => exact releaseReference_effect tenant task artifactId
  | gc thread tenant artifactId batch =>
    rw [CatalogCall.perform]
    cases s.running thread with
    | none => exact gcTombstone_effect thread tenant artifactId batch
    | some _ => exact .unchanged
  | gcResume thread deletion =>
    rw [CatalogCall.perform]
    cases hc : s.running thread with
    | none => exact .unchanged
    | some c => exact resume_effect deletion hc

end Effect

end SmeshDurable.Catalog
