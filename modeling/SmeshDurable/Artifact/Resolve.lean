import SmeshDurable.Artifact.Vault

/-!
# What is published is resolved

The manifests that may share a blob agree on everything its ciphertext is bound to, so an
artifact is read back whichever manifest its blob was encrypted under.
-/

namespace SmeshDurable.Catalog

open CanonicalJson Transaction TextLines

/-! ## Manifests and their digests -/

/-- The bytes the digest of a manifest is taken of. -/
def ArtifactManifestV1.digestInput (m : ArtifactManifestV1) : List UInt8 :=
  manifestDomain ++ bytes m.canonical.render

theorem isNumeral_toString_int (n : Int) : IsNumeral (toString n) := by
  cases n with
  | ofNat n => exact isNumeral_repr n
  | negSucc n =>
    have hdigits := isNumeral_repr (n + 1)
    have htext : toString (Int.negSucc n) = "-" ++ (n + 1).repr := rfl
    rw [htext]
    refine ⟨by simp, fun c hc => ?_⟩
    rw [String.toList_append, List.mem_append] at hc
    rcases hc with hsign | hdigit
    · have hall : "-".toList.all numeralChar = true := by decide
      exact List.all_eq_true.mp hall c hsign
    · exact hdigits.2 c hdigit

theorem numerals_canonical (m : ArtifactManifestV1) : Numerals m.canonical := by
  have hstr : ∀ text, Numerals (.str text) := fun text => .str text trivial
  have hnat : ∀ n : Nat, Numerals (.num (toString n)) := fun n => .num _ (isNumeral_repr n)
  have hint : ∀ n : Int, Numerals (.num (toString n)) := fun n => .num _ (isNumeral_toString_int n)
  have hobj : ∀ fields : List (String × Json), (∀ field ∈ fields, Numerals field.2) →
      Numerals (.obj fields) := fun fields h => .obj fields trivial h
  have harr : ∀ items : List Json, (∀ item ∈ items, Numerals item) → Numerals (.arr items) :=
    fun items h => .arr items trivial h
  have hdescription : Numerals (m.description.elim .null .str) := by
    cases m.description with
    | none => exact .null trivial
    | some text => exact hstr text
  have hproducer : Numerals (ArtifactManifestV1.producerJson m.producer) := by
    apply hobj
    simp [hstr]
  have hderived : Numerals (.arr (m.derivedFrom.map ArtifactManifestV1.derivedFromJson)) := by
    apply harr
    intro item hitem
    obtain ⟨edge, -, rfl⟩ := List.mem_map.mp hitem
    apply hobj
    simp [hstr]
  have hpolicy : Numerals (ArtifactManifestV1.policyJson m.policy) := by
    apply hobj
    simp only [List.mem_cons, List.not_mem_nil, or_false, forall_eq_or_imp, forall_eq]
    exact ⟨hstr _, hnat _, hstr _, hint _, hint _⟩
  have hchunks : Numerals (.arr (m.chunks.map ArtifactManifestV1.chunkJson)) := by
    apply harr
    intro item hitem
    obtain ⟨chunk, -, rfl⟩ := List.mem_map.mp hitem
    apply hobj
    simp only [List.mem_cons, List.not_mem_nil, or_false, forall_eq_or_imp, forall_eq]
    exact ⟨hnat _, hnat _, hnat _, hstr _⟩
  apply hobj
  simp only [List.mem_cons, List.not_mem_nil, or_false, forall_eq_or_imp, forall_eq]
  exact ⟨hstr _, hstr _, hstr _, hdescription, hstr _, hstr _, hstr _, hproducer, hderived, hpolicy,
    hstr _, hnat _, hchunks⟩

/-- Manifests with one canonical text are of one producer and one content. -/
theorem digestInput_cancel {m m' : ArtifactManifestV1} (h : m.digestInput = m'.digestInput) :
    m.producer = m'.producer ∧ m.contentDigest = m'.contentDigest := by
  have hrender := bytes_injective (List.append_cancel_left h)
  have hcanonical := render_injective (numerals_canonical m) (numerals_canonical m') hrender
  simp only [ArtifactManifestV1.canonical, ArtifactManifestV1.producerJson, Json.obj.injEq,
    List.cons.injEq, Prod.mk.injEq, Json.str.injEq, true_and, and_true] at hcanonical
  obtain ⟨-, -, -, -, -, -, ⟨htenant, howner, htask, hcontext, hmessage, hdispatch⟩, -, -, hcontent, -⟩ :=
    hcanonical
  refine ⟨?_, hcontent⟩
  cases hproducer : m.producer
  cases hproducer' : m'.producer
  simp_all

/-! ## Blobs -/

section Blob

variable [ContentDigest] [Aead] {store : PosixArtifactBlobStore} {v : ArtifactVault}
  {m m' : ArtifactManifestV1} {plaintext nonce : List UInt8} {blob : StoredBlob}

theorem stage_eq_ok (h : store.stage m plaintext nonce = .ok blob) :
    plaintext.length ≤ store.maxArtifactBytes ∧ verifyPlaintext m plaintext = .ok () ∧
      ∃ key, store.key m.keyGeneration = .ok key ∧
        blob = ⟨nonce, storedDigest (Aead.encrypt key nonce (aad m) plaintext),
          (Aead.encrypt key nonce (aad m) plaintext).length, m.keyGeneration,
          Aead.encrypt key nonce (aad m) plaintext⟩ := by
  simp only [PosixArtifactBlobStore.stage, bind_eq_ok, require_eq_ok, Except.ok.injEq] at h
  obtain ⟨_, hlength, _, hverify, key, hkey, rfl⟩ := h
  exact ⟨hlength, hverify, key, hkey, rfl⟩

/-- A blob is the same for two manifests that agree on what its ciphertext is bound to. -/
theorem stage_congr (h : store.stage m plaintext nonce = .ok blob) (haad : aad m = aad m')
    (hkey : m.keyGeneration = m'.keyGeneration) (hverify : verifyPlaintext m' plaintext = .ok ()) :
    store.stage m' plaintext nonce = .ok blob := by
  obtain ⟨hlength, -, key, hget, rfl⟩ := stage_eq_ok h
  rw [hkey] at hget
  simp only [PosixArtifactBlobStore.stage, bind_eq_ok, require_eq_ok, Except.ok.injEq]
  refine ⟨(), hlength, (), hverify, key, hget, ?_⟩
  rw [haad, hkey]

/-- A blob that is there is read back under the manifest it was made for. -/
theorem readVerified_of_stage {object : StoredArtifact}
    (hblob : v.objects object.relativePath = some blob)
    (hpresent : object.relativePath ∈ v.catalog.blobs)
    (h : store.stage m plaintext nonce = .ok blob) :
    v.readVerified store m object = .ok plaintext := by
  obtain ⟨-, hverify, key, hkey, rfl⟩ := stage_eq_ok h
  simp only [ArtifactVault.readVerified, bind_eq_ok, expect_eq_ok, require_eq_ok]
  exact ⟨_, hblob, (), rfl, (), hpresent, (), rfl, (), rfl, key, hkey, plaintext,
    Aead.decrypt_encrypt .., (), hverify, rfl⟩

end Blob

/-! ## Publications -/

/-- How a publication ends. -/
inductive PublishOutcome [ContentDigest] (s : ArtifactCatalog) (m : ArtifactManifestV1)
    (plaintext : List UInt8) : Promotion → Except ArtifactStoreError Unit → ArtifactCatalog → Prop
  | refused {promotion : Promotion} {error : ArtifactStoreError} :
      PublishOutcome s m plaintext promotion (.error error) s
  | known {promotion : Promotion} {existing : CatalogEntry}
      (hexisting : s.entries[m.key]? = some existing)
      (hverify : verifyPlaintext m plaintext = .ok ())
      (hdigest : existing.manifest.manifestDigest = m.manifestDigest) :
      PublishOutcome s m plaintext promotion (.ok ()) s
  | shared {promotion : Promotion} {k : ArtifactKey} {other : CatalogEntry}
      (hnew : s.entries[m.key]? = none) (hverify : verifyPlaintext m plaintext = .ok ())
      (hother : s.entries[k]? = some other) (hsharable : other.sharable m = true) :
      PublishOutcome s m plaintext promotion (.ok ()) (s.put m.key (.published m other.object))
  | stored {object : StoredArtifact} (hnew : s.entries[m.key]? = none) :
      PublishOutcome s m plaintext (.stored object) (.ok ())
        { s.put m.key (.published m object) with blobs := insert object.relativePath s.blobs }
  | linked {object : StoredArtifact} {error : ArtifactStoreError} :
      PublishOutcome s m plaintext (.linked object error) (.error error)
        { s with blobs := insert object.relativePath s.blobs }

theorem publish_outcome [ContentDigest] (s : ArtifactCatalog) (m : ArtifactManifestV1)
    (plaintext : List UInt8) (promotion : Promotion) :
    PublishOutcome s m plaintext promotion (s.publish m plaintext promotion).1
      (s.publish m plaintext promotion).2 := by
  unfold ArtifactCatalog.publish
  cases hverify : verifyPlaintext m plaintext with
  | error error => exact .refused
  | ok _ =>
    cases hentry : s.entries[m.key]? with
    | some existing =>
      dsimp only
      split
      case isTrue hdigest => exact .known hentry hverify hdigest
      case isFalse => exact .refused
    | none =>
      dsimp only
      split
      case isFalse => exact .refused
      case isTrue =>
        cases hfind : s.entries.toList.find? fun pair => pair.2.sharable m with
        | some pair =>
          obtain ⟨hother, hsharable⟩ := ArtifactCatalog.find?_entries hfind
          exact .shared hentry hverify hother hsharable
        | none =>
          cases promotion with
          | stored object => exact .stored hentry
          | linked object error => exact .linked
          | failed error => exact .refused

/-- A publication that succeeds found the artifact in the catalog, or put it there. -/
theorem publish_eq_ok [ContentDigest] {s : ArtifactCatalog} {m : ArtifactManifestV1}
    {plaintext : List UInt8} {promotion : Promotion}
    (h : (s.publish m plaintext promotion).1 = .ok ()) :
    (∃ existing, s.entries[m.key]? = some existing ∧ verifyPlaintext m plaintext = .ok () ∧
      existing.manifest.manifestDigest = m.manifestDigest ∧
      (s.publish m plaintext promotion).2 = s) ∨
    s.entries[m.key]? = none ∧ ∃ object,
      (s.publish m plaintext promotion).2.entries[m.key]? = some (.published m object) := by
  have houtcome := publish_outcome s m plaintext promotion
  rw [h] at houtcome
  generalize (s.publish m plaintext promotion).2 = s' at houtcome ⊢
  cases houtcome with
  | known hexisting hverify hdigest => exact .inl ⟨_, hexisting, hverify, hdigest, rfl⟩
  | shared hnew => exact .inr ⟨hnew, _, ArtifactCatalog.put_eq_some.mpr (.inl ⟨rfl, rfl⟩)⟩
  | stored hnew => exact .inr ⟨hnew, _, ArtifactCatalog.put_eq_some.mpr (.inl ⟨rfl, rfl⟩)⟩

/-! ## The invariant -/

section Vault

variable [ContentDigest] [Aead] (store : PosixArtifactBlobStore) (known : Set (List UInt8))

/-- The blob of an entry holds a plaintext that its manifest describes, encrypted under that
manifest. -/
structure ArtifactVault.Filled (v : ArtifactVault) (e : CatalogEntry) (plaintext : List UInt8) :
    Prop where
  known : plaintext ∈ known
  sealed : ∃ blob nonce, v.objects e.path = some blob ∧
    store.stage e.manifest plaintext nonce = .ok blob

/-- Every entry that is no tombstone has its blob, filled, and entries are found under the keys
of their manifests. -/
structure ArtifactVault.Sound (v : ArtifactVault) : Prop where
  keeps : v.catalog.Keeps
  filled : ∀ (key : ArtifactKey) (e : CatalogEntry), v.catalog.entries[key]? = some e →
    e.tombstoned = false → ∃ plaintext, v.Filled store known e plaintext
  keyed : ∀ (key : ArtifactKey) (e : CatalogEntry), v.catalog.entries[key]? = some e →
    e.manifest.key = key ∧ e.manifest.digestInput ∈ known

/-- What a publication hashes is known. -/
def VaultCall.Hashes : VaultCall → Prop
  | .publish m plaintext _ => plaintext ∈ known ∧ m.digestInput ∈ known
  | .other .. => True

/-- The steps of a run: random values are new, no artifact takes over a blob that an older
collection of its identifier is about to check, and what is hashed is known. -/
structure VaultAction.Conforms (v : ArtifactVault) (a : VaultAction) : Prop where
  fresh : (a.call.catalogCall store v).Fresh v.catalog
  settled : (a.call.catalogCall store v).Settled v.catalog
  hashes : a.call.Hashes known

variable {store known} {v v' : ArtifactVault} {e e' : CatalogEntry} {m : ArtifactManifestV1}
  {plaintext : List UInt8}

theorem sound_new : ArtifactVault.new.Sound store known where
  keeps := keeps_new
  filled := fun key e he => by simp [ArtifactVault.new, ArtifactCatalog.new] at he
  keyed := fun key e he => by simp [ArtifactVault.new, ArtifactCatalog.new] at he

omit [Aead] in
theorem verifyPlaintext_eq_ok : verifyPlaintext m plaintext = .ok () ↔
    plaintext.length = m.plaintextLength ∧ contentDigest plaintext = m.contentDigest := by
  simp [verifyPlaintext]

namespace ArtifactVault

theorem Filled.congr (h : v.Filled store known e plaintext)
    (hobjects : v'.objects e.path = v.objects e.path) (hmanifest : e'.manifest = e.manifest)
    (hobject : e'.object = e.object) : v'.Filled store known e' plaintext := by
  have hpath : e'.path = e.path := congrArg StoredArtifact.relativePath hobject
  obtain ⟨hmem, blob, nonce, hblob, hstage⟩ := h
  refine ⟨hmem, blob, nonce, ?_, ?_⟩
  · rw [hpath, hobjects, hblob]
  · rw [hmanifest, hstage]

theorem Filled.verified (h : v.Filled store known e plaintext) :
    verifyPlaintext e.manifest plaintext = .ok () := by
  obtain ⟨-, blob, nonce, -, hstage⟩ := h
  exact (stage_eq_ok hstage).2.1

/-- A blob that may be shared holds the plaintext of the new artifact, bound to what the new
manifest says. -/
theorem Filled.share {other : CatalogEntry} {plain : List UInt8}
    (hknown : Set.InjOn contentDigest known) (h : v.Filled store known other plain)
    (hsharable : other.sharable m = true) (hverify : verifyPlaintext m plaintext = .ok ())
    (hplaintext : plaintext ∈ known) :
    v.Filled store known (.published m other.object) plaintext := by
  have hverified := h.verified
  obtain ⟨hmem, blob, nonce, hblob, hstage⟩ := h
  simp only [CatalogEntry.sharable, Bool.and_eq_true, beq_iff_eq, decide_eq_true_eq] at hsharable
  obtain ⟨⟨⟨⟨⟨⟨-, htenant⟩, howner⟩, hcontent⟩, hclassification⟩, hdomain⟩, hkey⟩ := hsharable
  rw [verifyPlaintext_eq_ok] at hverified
  have hverify' := verifyPlaintext_eq_ok.mp hverify
  obtain rfl : plain = plaintext := by
    apply hknown hmem hplaintext
    rw [hverified.2, hverify'.2, hcontent]
  refine ⟨hmem, blob, nonce, hblob, stage_congr hstage ?_ hkey hverify⟩
  show aad other.manifest = aad m
  unfold aad
  rw [htenant, howner, hdomain, hclassification, hcontent, hkey, ← hverified.1, ← hverify'.1]

end ArtifactVault

/-! ## Steps -/

section Steps

variable {s s' : ArtifactCatalog} {now : Int} {call : CatalogCall} {key : ArtifactKey}

omit [ContentDigest] [Aead] in
/-- The entries after a call that does not publish. -/
theorem entry_of_effect (heffect : CatalogEffect s now call s') (hother : call.publishes = false)
    (he : s'.entries[key]? = some e') :
    ∃ e : CatalogEntry, s.entries[key]? = some e ∧ e'.manifest = e.manifest ∧
      e'.object = e.object ∧ (e'.tombstoned = false → e.tombstoned = false) := by
  cases heffect with
  | unchanged => exact ⟨e', he, rfl, rfl, id⟩
  | shared => cases hother
  | stored => cases hother
  | linked => cases hother
  | touched hx htouched =>
    rcases ArtifactCatalog.put_eq_some.mp he with ⟨rfl, rfl⟩ | ⟨-, he⟩
    · exact ⟨_, hx, htouched.manifest, htouched.object, htouched.tombstoned.symm.trans⟩
    · exact ⟨e', he, rfl, rfl, id⟩
  | buried hx hdue hburied =>
    rcases ArtifactCatalog.put_eq_some.mp he with ⟨rfl, rfl⟩ | ⟨-, he⟩
    · refine ⟨_, hx, hburied.manifest, hburied.object, fun hlive => ?_⟩
      rw [hburied.tombstoned] at hlive
      cases hlive
    · exact ⟨e', he, rfl, rfl, id⟩
  | checked => exact ⟨e', he, rfl, rfl, id⟩
  | deleted => exact ⟨e', he, rfl, rfl, id⟩
  | removed =>
    rw [Std.ExtTreeMap.getElem?_erase] at he
    split at he
    · cases he
    · exact ⟨e', he, rfl, rfl, id⟩
  | ended => exact ⟨e', he, rfl, rfl, id⟩

omit [ContentDigest] [Aead] in
/-- A referenced entry stays, unless its reference is released. -/
theorem live_of_effect (heffect : CatalogEffect s now call s') (he : s.entries[key]? = some e)
    (hlive : e.referenceLive = true) (hstands : e.tombstoned = false)
    (hkept : ∀ task, call ≠ .releaseReference key.tenant task key.artifactId) :
    ∃ e' : CatalogEntry, s'.entries[key]? = some e' ∧ e'.manifest = e.manifest ∧
      e'.object = e.object ∧ e'.referenceLive = true ∧ e'.tombstoned = false := by
  have hnew : ∀ {m : ArtifactManifestV1} {x : CatalogEntry}, s.entries[m.key]? = none →
      (s.put m.key x).entries[key]? = some e := by
    intro m x hnone
    rw [ArtifactCatalog.put_eq_some]
    refine .inr ⟨?_, he⟩
    rintro rfl
    rw [hnone] at he
    cases he
  cases heffect with
  | unchanged => exact ⟨e, he, rfl, rfl, hlive, hstands⟩
  | shared hnone => exact ⟨e, hnew hnone, rfl, rfl, hlive, hstands⟩
  | stored hnone => exact ⟨e, hnew hnone, rfl, rfl, hlive, hstands⟩
  | linked => exact ⟨e, he, rfl, rfl, hlive, hstands⟩
  | @touched _ k x x' hx htouched =>
    by_cases hsame : k = key
    · subst hsame
      obtain rfl : x = e := Option.some.inj (hx.symm.trans he)
      refine ⟨x', ArtifactCatalog.put_eq_some.mpr (.inl ⟨rfl, rfl⟩), htouched.manifest,
        htouched.object, ?_, htouched.tombstoned.trans hstands⟩
      rcases htouched.referenceLive_kept hlive with hlive' | ⟨task, hrelease⟩
      · exact hlive'
      · exact absurd hrelease (hkept task)
    · exact ⟨e, ArtifactCatalog.put_eq_some.mpr (.inr ⟨hsame, he⟩), rfl, rfl, hlive, hstands⟩
  | @buried _ k x x' _ hx hdue =>
    refine ⟨e, ArtifactCatalog.put_eq_some.mpr (.inr ⟨?_, he⟩), rfl, rfl, hlive, hstands⟩
    rintro rfl
    obtain rfl : x = e := Option.some.inj (hx.symm.trans he)
    rw [hdue.referenceLive] at hlive
    cases hlive
  | checked => exact ⟨e, he, rfl, rfl, hlive, hstands⟩
  | deleted => exact ⟨e, he, rfl, rfl, hlive, hstands⟩
  | @removed _ _ c x hx htombstoned =>
    refine ⟨e, ?_, rfl, rfl, hlive, hstands⟩
    rw [Std.ExtTreeMap.getElem?_erase, if_neg, he]
    intro hsame
    obtain rfl := Std.LawfulEqCmp.eq_of_compare hsame
    obtain rfl : x = e := Option.some.inj (hx.symm.trans he)
    rw [hstands] at htombstoned
    cases htombstoned
  | ended => exact ⟨e, he, rfl, rfl, hlive, hstands⟩

end Steps

theorem promotion_eq_stored {blobs : Finset String} {draw : Draw} {object : StoredArtifact}
    (h : store.promotion blobs m plaintext draw = .stored object) :
    object = ⟨store.relativePath m draw.generation⟩ ∧
      store.relativePath m draw.generation ∉ blobs ∧
      ∃ blob, store.stage m plaintext draw.nonce = .ok blob := by
  unfold PosixArtifactBlobStore.promotion at h
  split at h
  · cases h
  next blob hstage =>
    split at h
    · cases h
    next hfree =>
      split at h
      · cases h
        exact ⟨rfl, hfree, blob, hstage⟩
      · cases h
      · cases h

theorem objects_publish (m : ArtifactManifestV1) (plaintext : List UInt8) (draw : Draw) (now : Int) :
    ((VaultCall.publish m plaintext draw).perform store v now).objects =
      if store.relativePath m draw.generation ∈
          ((VaultCall.publish m plaintext draw).perform store v now).catalog.blobs ∧
        store.relativePath m draw.generation ∉ v.catalog.blobs then
        Function.update v.objects (store.relativePath m draw.generation)
          (store.stage m plaintext draw.nonce).toOption
      else v.objects := rfl

/-- What was written under the path of a blob stays. -/
theorem objects_perform {path : String} (hpath : path ∈ v.catalog.blobs) (call : VaultCall)
    (now : Int) : (call.perform store v now).objects path = v.objects path := by
  cases call with
  | other call hother => rfl
  | publish m plaintext draw =>
    rw [objects_publish]
    by_cases hwritten : store.relativePath m draw.generation ∈
        ((VaultCall.publish m plaintext draw).perform store v now).catalog.blobs ∧
      store.relativePath m draw.generation ∉ v.catalog.blobs
    · rw [if_pos hwritten, Function.update_of_ne]
      rintro rfl
      exact hwritten.2 hpath
    · rw [if_neg hwritten]

/-- A newly published entry and its blob. -/
theorem filled_of_outcome {draw : Draw} {result : Except ArtifactStoreError Unit}
    {s' : ArtifactCatalog} (hknown : Set.InjOn contentDigest known) (h : v.Sound store known)
    (hplaintext : plaintext ∈ known)
    (houtcome : PublishOutcome v.catalog m plaintext
      (store.promotion v.catalog.blobs m plaintext draw) result s')
    (hobjects : ∀ path, path ∈ v.catalog.blobs → v'.objects path = v.objects path)
    (hwritten : store.relativePath m draw.generation ∈ s'.blobs →
      store.relativePath m draw.generation ∉ v.catalog.blobs →
      v'.objects (store.relativePath m draw.generation) =
        (store.stage m plaintext draw.nonce).toOption)
    {key : ArtifactKey} (he : s'.entries[key]? = some e) :
    v.catalog.entries[key]? = some e ∨
      key = m.key ∧ ∃ object, e = .published m object ∧ v'.Filled store known e plaintext := by
  generalize hpromotion : store.promotion v.catalog.blobs m plaintext draw = promotion at houtcome
  cases houtcome with
  | refused => exact .inl he
  | known => exact .inl he
  | @shared _ k other hnew hverify hother hsharable =>
    rcases ArtifactCatalog.put_eq_some.mp he with ⟨rfl, rfl⟩ | ⟨-, he⟩
    · have hlive := CatalogEntry.tombstoned_of_sharable hsharable
      obtain ⟨plain, hfilled⟩ := h.filled k other hother hlive
      have hshared := hfilled.share hknown hsharable hverify hplaintext
      refine .inr ⟨rfl, other.object, rfl, hshared.congr ?_ rfl rfl⟩
      exact hobjects _ (h.keeps.present k other hother hlive)
    · exact .inl he
  | @stored object hnew =>
    rcases ArtifactCatalog.put_eq_some.mp he with ⟨rfl, rfl⟩ | ⟨-, he⟩
    · obtain ⟨rfl, hfree, blob, hstage⟩ := promotion_eq_stored hpromotion
      have hobject := hwritten (Finset.mem_insert_self _ _) hfree
      rw [hstage] at hobject
      exact .inr ⟨rfl, _, rfl, hplaintext, blob, draw.nonce, hobject, hstage⟩
    · exact .inl he
  | linked => exact .inl he

namespace ArtifactVault.Sound

variable {a : VaultAction}

theorem keeps_perform (h : v.Sound store known) (hconforms : a.Conforms store known v) :
    (a.call.perform store v a.now).catalog.Keeps := by
  rw [VaultCall.catalog_perform]
  exact h.keeps.effect hconforms.fresh hconforms.settled (perform_effect _)

/-- Entries that were there keep their blobs. -/
theorem filled_perform (h : v.Sound store known) {key : ArtifactKey}
    (he : v.catalog.entries[key]? = some e) (hstands : e.tombstoned = false)
    (hmanifest : e'.manifest = e.manifest) (hobject : e'.object = e.object)
    (hfilled : v.Filled store known e plaintext) :
    (a.call.perform store v a.now).Filled store known e' plaintext := by
  apply hfilled.congr _ hmanifest hobject
  exact objects_perform (h.keeps.present key e he hstands) a.call a.now

theorem entry_of_publish (hknown : Set.InjOn contentDigest known) (h : v.Sound store known)
    {draw : Draw} {now : Int} (hplaintext : plaintext ∈ known) {key : ArtifactKey}
    (he : ((VaultCall.publish m plaintext draw).perform store v now).catalog.entries[key]? = some e) :
    v.catalog.entries[key]? = some e ∨ key = m.key ∧ ∃ object, e = .published m object ∧
      ((VaultCall.publish m plaintext draw).perform store v now).Filled store known e plaintext := by
  apply filled_of_outcome hknown h hplaintext (publish_outcome v.catalog m plaintext _) _ _ he
  · exact fun path hpath => objects_perform hpath _ now
  · intro hafter hbefore
    rw [objects_publish, if_pos ⟨hafter, hbefore⟩, Function.update_self]

/-- One step. -/
theorem perform (hknown : Set.InjOn contentDigest known) (h : v.Sound store known)
    (hconforms : a.Conforms store known v) : (a.call.perform store v a.now).Sound store known := by
  have hkeeps := h.keeps_perform hconforms
  obtain ⟨now, call⟩ := a
  cases call with
  | other call hother =>
    have heffect : CatalogEffect v.catalog now call (call.perform v.catalog now) :=
      perform_effect call
    refine ⟨hkeeps, fun key e' he' hstands => ?_, fun key e' he' => ?_⟩
    · obtain ⟨e, he, hmanifest, hobject, hbefore⟩ := entry_of_effect heffect hother he'
      obtain ⟨plaintext, hfilled⟩ := h.filled key e he (hbefore hstands)
      exact ⟨plaintext, hfilled.congr rfl hmanifest hobject⟩
    · obtain ⟨e, he, hmanifest, -, -⟩ := entry_of_effect heffect hother he'
      rw [hmanifest]
      exact h.keyed key e he
  | publish m plaintext draw =>
    obtain ⟨hplaintext, hinput⟩ : plaintext ∈ known ∧ m.digestInput ∈ known := hconforms.hashes
    refine ⟨hkeeps, fun key e he hstands => ?_, fun key e he => ?_⟩
    · rcases h.entry_of_publish hknown hplaintext he with hold | ⟨-, object, -, hfilled⟩
      · obtain ⟨plain, hfilled⟩ := h.filled key e hold hstands
        exact ⟨plain, h.filled_perform (a := ⟨now, .publish m plaintext draw⟩) hold hstands rfl rfl
          hfilled⟩
      · exact ⟨plaintext, hfilled⟩
    · rcases h.entry_of_publish hknown hplaintext he with hold | ⟨rfl, object, rfl, -⟩
      · exact h.keyed key e hold
      · exact ⟨rfl, hinput⟩

end ArtifactVault.Sound

/-! ## Runs -/

/-- The call releases the reference of an artifact. -/
def VaultCall.Releases (key : ArtifactKey) (call : VaultCall) : Prop :=
  ∃ task h, call = .other (.releaseReference key.tenant task key.artifactId) h

/-- An entry that is referenced, with the manifest and the object it was published with, and its
plaintext. -/
def ArtifactVault.Serves (store : PosixArtifactBlobStore) (known : Set (List UInt8))
    (v : ArtifactVault) (key : ArtifactKey) (m : ArtifactManifestV1) (object : StoredArtifact)
    (plaintext : List UInt8) : Prop :=
  ∃ e : CatalogEntry, v.catalog.entries[key]? = some e ∧ e.manifest = m ∧ e.object = object ∧
    e.referenceLive = true ∧ e.tombstoned = false ∧ v.Filled store known e plaintext

variable {key : ArtifactKey} {object : StoredArtifact} {start t t' : Int}

theorem sound_of_run (hknown : Set.InjOn contentDigest known)
    (hrun : (vaultSystem store).Run (fun v a => a.Conforms store known v) v t v' t')
    (h : v.Sound store known) : v'.Sound store known := by
  induction hrun with
  | refl => exact h
  | step _ _ hconforms ih => exact ih.perform hknown hconforms

theorem ArtifactVault.Serves.perform {a : VaultAction} (h : v.Serves store known key m object plaintext)
    (hsound : v.Sound store known) (hkept : ¬ a.call.Releases key) :
    (a.call.perform store v a.now).Serves store known key m object plaintext := by
  obtain ⟨e, he, rfl, rfl, hlive, hstands, hfilled⟩ := h
  have heffect : CatalogEffect v.catalog a.now (a.call.catalogCall store v)
      (a.call.perform store v a.now).catalog := by
    rw [VaultCall.catalog_perform]
    exact perform_effect _
  have hcall : ∀ task, a.call.catalogCall store v ≠
      .releaseReference key.tenant task key.artifactId := by
    intro task hcall
    cases hkind : a.call with
    | publish m plaintext draw =>
      rw [hkind] at hcall
      cases hcall
    | other call hother =>
      rw [hkind] at hcall
      obtain rfl : call = _ := hcall
      exact hkept ⟨task, hother, hkind⟩
  obtain ⟨e', he', hmanifest, hobject, hlive', hstands'⟩ :=
    live_of_effect heffect he hlive hstands hcall
  exact ⟨e', he', hmanifest, hobject, hlive', hstands',
    hsound.filled_perform he hstands hmanifest hobject hfilled⟩

/-- From a state in which an artifact is served: runs that do not release it. -/
def VaultAction.Spares (store : PosixArtifactBlobStore) (known : Set (List UInt8)) (key : ArtifactKey)
    (v : ArtifactVault) (a : VaultAction) : Prop :=
  a.Conforms store known v ∧ ¬ a.call.Releases key

theorem serves_of_run (hknown : Set.InjOn contentDigest known) (hsound : v.Sound store known)
    (hrun : (vaultSystem store).Run (VaultAction.Spares store known key) v t v' t')
    (h : v.Serves store known key m object plaintext) :
    v'.Sound store known ∧ v'.Serves store known key m object plaintext := by
  induction hrun with
  | refl => exact ⟨hsound, h⟩
  | step _ _ hspares ih =>
    exact ⟨ih.1.perform hknown hspares.1, ih.2.perform ih.1 hspares.2⟩

omit [ContentDigest] [Aead] in
theorem lookup_eq_ok {tenant owner task artifactId : String} :
    v.lookup tenant owner task artifactId = .ok e ↔
      v.catalog.entries[(⟨tenant, artifactId⟩ : ArtifactKey)]? = some e ∧
        e.tombstoned = false ∧ e.referenceLive = true ∧ e.manifest.producer.owner = owner ∧
        e.manifest.producer.task = task := by
  simp only [ArtifactVault.lookup, expect_eq_ok, Option.filter_eq_some_iff, CatalogEntry.authorized,
    Bool.and_eq_true, Bool.not_eq_true', beq_iff_eq, and_assoc]

theorem ArtifactVault.Serves.read (h : v.Serves store known key m object plaintext)
    (hsound : v.Sound store known) : v.readVerified store m object = .ok plaintext := by
  obtain ⟨e, he, rfl, rfl, -, hstands, -, blob, nonce, hblob, hstage⟩ := h
  exact readVerified_of_stage hblob (hsound.keeps.present key e he hstands) hstage

/-- The artifact of a manifest is resolved by its producer as it was published, and by no one
else; a resolution reads the entry in one state and the blob in a later one. -/
structure ArtifactVault.Resolves (store : PosixArtifactBlobStore) (m : ArtifactManifestV1)
    (plaintext : List UInt8) (v v' : ArtifactVault) : Prop where
  own : ∃ e, v.lookup m.producer.tenant m.producer.owner m.producer.task m.artifactId = .ok e ∧
    v'.readVerified store e.manifest e.object = .ok plaintext
  denied : ∀ owner task, owner ≠ m.producer.owner ∨ task ≠ m.producer.task →
    v.lookup m.producer.tenant owner task m.artifactId = .error .denied
  foreign : ∀ tenant owner task e, tenant ≠ m.producer.tenant →
    v.lookup tenant owner task m.artifactId = .ok e →
      e.manifest.producer.tenant = tenant ∧ e.manifest.producer.owner = owner ∧
        e.manifest.producer.task = task

theorem ArtifactVault.Serves.resolves {m' : ArtifactManifestV1}
    (h : v.Serves store known m.key m' object plaintext)
    (hafter : v'.Serves store known m.key m' object plaintext) (hsound : v.Sound store known)
    (hsound' : v'.Sound store known) (hproducer : m'.producer = m.producer) :
    v.Resolves store m plaintext v' := by
  have hread := hafter.read hsound'
  obtain ⟨e, he, rfl, rfl, hlive, hstands, -⟩ := h
  refine ⟨⟨e, lookup_eq_ok.mpr ⟨he, hstands, hlive, ?_, ?_⟩, hread⟩, ?_, ?_⟩
  · rw [hproducer]
  · rw [hproducer]
  · intro owner task hother
    cases hlookup : v.lookup m.producer.tenant owner task m.artifactId with
    | error error =>
      unfold ArtifactVault.lookup expect at hlookup
      split at hlookup
      · cases hlookup
      · cases hlookup
        rfl
    | ok e' =>
      obtain ⟨he', -, -, howner, htask⟩ := lookup_eq_ok.mp hlookup
      obtain rfl : e = e' := Option.some.inj (he.symm.trans he')
      rw [hproducer] at howner htask
      rcases hother with hother | hother
      · exact absurd howner.symm hother
      · exact absurd htask.symm hother
  · intro tenant owner task e' _ hlookup
    obtain ⟨he', -, -, howner, htask⟩ := lookup_eq_ok.mp hlookup
    have hkey := (hsound.keyed _ e' he').1
    exact ⟨congrArg ArtifactKey.tenant hkey, howner, htask⟩

/-- A publication that found a referenced entry, or none, leaves its artifact served. -/
theorem serves_of_publish {now : Int} {draw : Draw} (hknown : Set.InjOn contentDigest known)
    (hsound : v.Sound store known)
    (hconforms : VaultAction.Conforms store known v ⟨now, .publish m plaintext draw⟩)
    (hpublish : (v.publish store m plaintext draw).1 = .ok ())
    (hstands : ∀ e : CatalogEntry, v.catalog.entries[m.key]? = some e →
      e.referenceLive = true ∧ e.tombstoned = false) :
    ∃ m' object, (v.publish store m plaintext draw).2.Serves store known m.key m' object plaintext ∧
      m'.producer = m.producer := by
  obtain ⟨hplaintext, hinput⟩ : plaintext ∈ known ∧ m.digestInput ∈ known := hconforms.hashes
  rcases publish_eq_ok hpublish with ⟨e, he, hverify, hdigest, hsame⟩ | ⟨hnew, object, he⟩
  · obtain ⟨hlive, hentry⟩ := hstands e he
    -- the entry that was found describes the same content of the same producer
    obtain ⟨hproducer, hcontent⟩ :=
      digestInput_cancel (hknown (hsound.keyed _ e he).2 hinput hdigest)
    obtain ⟨plain, hfilled⟩ := hsound.filled _ e he hentry
    obtain rfl : plain = plaintext := by
      apply hknown hfilled.known hplaintext
      rw [(verifyPlaintext_eq_ok.mp hfilled.verified).2, (verifyPlaintext_eq_ok.mp hverify).2, hcontent]
    have he' : (v.publish store m plain draw).2.catalog.entries[m.key]? = some e := by
      show ((v.catalog.publish m plain _).2).entries[m.key]? = some e
      rw [hsame]
      exact he
    exact ⟨e.manifest, e.object, ⟨e, he', rfl, rfl, hlive, hentry,
      hsound.filled_perform (a := ⟨now, .publish m plain draw⟩) he hentry rfl rfl hfilled⟩, hproducer⟩
  · have he : ((VaultCall.publish m plaintext draw).perform store v now).catalog.entries[m.key]? =
        some (.published m object) := he
    rcases hsound.entry_of_publish hknown hplaintext he with hold | ⟨-, -, -, hfilled⟩
    · rw [hnew] at hold
      cases hold
    · exact ⟨m, object, ⟨_, he, rfl, rfl, rfl, rfl, hfilled⟩, rfl⟩

/-- Whatever was published, shared, released and collected before and after: an artifact whose
publication succeeded is resolved by its producer as it was published, and by no one else, as
long as its reference is not released, exactly if the publication did not find its identifier
released or collected. -/
theorem published_resolves_iff (hknown : Set.InjOn contentDigest known)
    (hrun : (vaultSystem store).Run (fun v a => a.Conforms store known v) .new start v t)
    (now : Int) (m : ArtifactManifestV1) (plaintext : List UInt8) (draw : Draw)
    (hconforms : VaultAction.Conforms store known v ⟨now, .publish m plaintext draw⟩)
    (hpublish : (v.publish store m plaintext draw).1 = .ok ()) :
    (∀ v₂ t₂ v₃ t₃, (vaultSystem store).Run (VaultAction.Spares store known m.key)
          (v.publish store m plaintext draw).2 now v₂ t₂ →
        (vaultSystem store).Run (VaultAction.Spares store known m.key) v₂ t₂ v₃ t₃ →
        v₂.Resolves store m plaintext v₃) ↔
      ∀ e : CatalogEntry, v.catalog.entries[m.key]? = some e →
        e.referenceLive = true ∧ e.tombstoned = false := by
  have hsound := sound_of_run hknown hrun sound_new
  have hafter : ((v.publish store m plaintext draw).2).Sound store known :=
    hsound.perform hknown hconforms
  constructor
  · intro hresolves e he
    obtain ⟨⟨e', hlookup, -⟩, -, -⟩ := hresolves _ now _ now .refl .refl
    obtain ⟨he', hstands, hlive, -, -⟩ := lookup_eq_ok.mp hlookup
    rcases publish_eq_ok hpublish with ⟨-, -, -, -, hsame⟩ | ⟨hnew, -⟩
    · have hbefore : v.catalog.entries[m.key]? = some e' := by
        rw [← hsame]
        exact he'
      obtain rfl : e = e' := Option.some.inj (he.symm.trans hbefore)
      exact ⟨hlive, hstands⟩
    · rw [hnew] at he
      cases he
  · intro hstands v₂ t₂ v₃ t₃ hrun₂ hrun₃
    obtain ⟨m', object, hserves, hproducer⟩ :=
      serves_of_publish hknown hsound hconforms hpublish hstands
    obtain ⟨hsound₂, hserves₂⟩ := serves_of_run hknown hafter hrun₂ hserves
    obtain ⟨hsound₃, hserves₃⟩ := serves_of_run hknown hsound₂ hrun₃ hserves₂
    exact hserves₂.resolves hserves₃ hsound₂ hsound₃ hproducer

end Vault

/-! ## Samples -/

/-- Encryption that hides nothing. -/
@[reducible] def plainAead : Aead where
  encrypt _ _ _ plaintext := plaintext
  decrypt _ _ _ ciphertext := some ciphertext
  decrypt_encrypt _ _ _ _ := rfl

attribute [local instance] checksumDigest plainAead

def sampleStore : PosixArtifactBlobStore := ⟨16, fun _ => .ok [], fun _ => "00"⟩

def sampleFirst : ArtifactManifestV1 := sampleManifest "first" [] first_underived

/-- The byte strings that the samples hash. -/
def sampleKnown : Set (List UInt8) := {x | x = [] ∨ x = sampleFirst.digestInput}

def publishSample : VaultCall := .publish sampleFirst [] ⟨[], "a", .stored⟩

theorem sampleKnown_injOn : Set.InjOn contentDigest sampleKnown := by
  have hne : contentDigest [] ≠ contentDigest sampleFirst.digestInput := by decide +kernel
  intro a ha b hb heq
  rcases ha with rfl | rfl <;> rcases hb with rfl | rfl
  · rfl
  · exact absurd heq hne
  · exact absurd heq.symm hne
  · rfl

theorem publishSample_conforms :
    VaultAction.Conforms sampleStore sampleKnown .new ⟨0, publishSample⟩ := by
  refine ⟨?_, ?_, .inl rfl, .inr rfl⟩
  rotate_left
  · rintro thread c ⟨⟩
  show CatalogCall.Fresh .new (.publish sampleFirst [] _)
  cases sampleStore.promotion ArtifactVault.new.catalog.blobs sampleFirst [] ⟨[], "a", .stored⟩ with
  | stored object => exact ⟨fun key e he => by simp [ArtifactCatalog.new] at he, nofun⟩
  | linked object error => trivial
  | failed error => trivial

/-- The first publication is resolved. -/
theorem sample_published_resolves :
    (∀ v₂ t₂ v₃ t₃, (vaultSystem sampleStore).Run
          (VaultAction.Spares sampleStore sampleKnown sampleFirst.key)
          (ArtifactVault.new.publish sampleStore sampleFirst [] ⟨[], "a", .stored⟩).2 0 v₂ t₂ →
        (vaultSystem sampleStore).Run (VaultAction.Spares sampleStore sampleKnown sampleFirst.key)
          v₂ t₂ v₃ t₃ →
        v₂.Resolves sampleStore sampleFirst [] v₃) ↔
      ∀ e : CatalogEntry, ArtifactVault.new.catalog.entries[sampleFirst.key]? = some e →
        e.referenceLive = true ∧ e.tombstoned = false :=
  published_resolves_iff (t := 0) sampleKnown_injOn .refl 0 sampleFirst [] ⟨[], "a", .stored⟩
    publishSample_conforms (by decide)

/-- The artifact is published and released. -/
def releasedSample : ArtifactVault :=
  (VaultCall.other (.releaseReference "tenant" "task" "first") rfl).perform sampleStore
    (publishSample.perform sampleStore .new 0) 0

theorem releasedSample_run :
    (vaultSystem sampleStore).Run (fun v a => a.Conforms sampleStore sampleKnown v) .new 0
      releasedSample 0 := by
  have hpublished : (vaultSystem sampleStore).Run (fun v a => a.Conforms sampleStore sampleKnown v)
      .new 0 (publishSample.perform sampleStore .new 0) 0 :=
    .step .refl (le_refl (0 : Int)) publishSample_conforms
  have hrelease : VaultAction.Conforms sampleStore sampleKnown (publishSample.perform sampleStore .new 0)
      ⟨0, .other (.releaseReference "tenant" "task" "first") rfl⟩ := ⟨trivial, trivial, trivial⟩
  exact hpublished.step le_rfl hrelease

theorem releasedSample_conforms :
    VaultAction.Conforms sampleStore sampleKnown releasedSample ⟨0, publishSample⟩ := by
  have htaken : sampleStore.relativePath sampleFirst "a" ∈ releasedSample.catalog.blobs := by
    decide
  refine ⟨?_, ?_, .inl rfl, .inr rfl⟩
  rotate_left
  · rintro thread c ⟨⟩
  show CatalogCall.Fresh _ (.publish sampleFirst [] _)
  cases hpromotion : sampleStore.promotion releasedSample.catalog.blobs sampleFirst []
      ⟨[], "a", .stored⟩ with
  | stored object => exact absurd htaken (promotion_eq_stored hpromotion).2.1
  | linked object error => trivial
  | failed error => trivial

/-- An artifact is published, released and published again: the second publication succeeds, and
the artifact is not resolved. -/
theorem republished_not_resolved : ∃ v : ArtifactVault,
    Set.InjOn contentDigest sampleKnown ∧
    (vaultSystem sampleStore).Run (fun v a => a.Conforms sampleStore sampleKnown v) .new 0 v 0 ∧
    VaultAction.Conforms sampleStore sampleKnown v ⟨0, publishSample⟩ ∧
    (v.publish sampleStore sampleFirst [] ⟨[], "a", .stored⟩).1 = .ok () ∧
    (v.publish sampleStore sampleFirst [] ⟨[], "a", .stored⟩).2.resolve sampleStore "tenant" "owner"
      "task" "first" = .error .denied :=
  ⟨releasedSample, sampleKnown_injOn, releasedSample_run, releasedSample_conforms,
    by decide +kernel, by decide +kernel⟩

end SmeshDurable.Catalog
