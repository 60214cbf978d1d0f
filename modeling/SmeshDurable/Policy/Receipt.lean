import SmeshDurable.Policy.Sufficiency

/-!
# What a receipt stands for

An accepted snapshot has the evidence its policy asks for, and its receipt and checkpoint verify
under that policy and under no other profile.
-/

namespace SmeshDurable.Policy

open CanonicalJson Ranked Replay Transaction TextLines
open Json (number number_injective)

/-! ## Seals -/

/-- The two digits of a byte. -/
def nibbles (byte : UInt8) : List UInt8 :=
  [Nat.digitChar (byte.toNat / 16), Nat.digitChar (byte.toNat % 16)].flatMap String.utf8EncodeChar

theorem decodePairs_nibbles (byte : UInt8) (rest : List UInt8) :
    (nibbles byte).length = 2 ∧
      decodePairs (nibbles byte ++ rest) = (decodePairs rest).map (byte :: ·) := by
  have hall : ∀ n ∈ List.range 256, (nibbles (UInt8.ofNat n)).length = 2 ∧
      decodePairs (nibbles (UInt8.ofNat n)) = some [UInt8.ofNat n] := by decide +kernel
  obtain ⟨hlength, hdecode⟩ := hall byte.toNat (List.mem_range.mpr byte.toNat_lt)
  rw [UInt8.ofNat_toNat] at hlength hdecode
  refine ⟨hlength, ?_⟩
  obtain ⟨high, low, heq⟩ := List.length_eq_two.mp hlength
  rw [heq] at hdecode ⊢
  simp only [decodePairs, Option.bind_eq_bind, Option.bind_some, Option.bind_eq_some_iff,
    Option.some.injEq, List.cons.injEq, and_true] at hdecode
  obtain ⟨first, hfirst, second, hsecond, rfl⟩ := hdecode
  simp only [List.cons_append, List.nil_append, decodePairs, hfirst, hsecond, Option.bind_eq_bind,
    Option.bind_some]
  cases decodePairs rest <;> rfl

/-- A seal is read back as the bytes it was written from. -/
theorem decodeSha256Tag_formatDigest {tag : List UInt8} (h : tag.length = 32) :
    decodeSha256Tag (formatDigest tag) = some tag := by
  have hbytes : bytes (formatDigest tag) = bytes "sha256:" ++ tag.flatMap nibbles := by
    rw [formatDigest, bytes_append]
    congr 1
    rw [bytes_eq, String.toList_ofList, List.flatMap_assoc]
    rfl
  have hseven : (bytes "sha256:").length = 7 := by decide
  have hdecode : (tag.flatMap nibbles).length = 2 * tag.length ∧
      decodePairs (tag.flatMap nibbles) = some tag := by
    clear hbytes h
    induction tag with
    | nil => exact ⟨rfl, rfl⟩
    | cons byte rest ih =>
      obtain ⟨hlength, hpairs⟩ := decodePairs_nibbles byte (rest.flatMap nibbles)
      rw [List.flatMap_cons, List.length_append, hlength, hpairs, ih.1, ih.2, List.length_cons]
      exact ⟨by omega, rfl⟩
  rw [decodeSha256Tag, hbytes, List.take_left' hseven, List.drop_left' hseven, if_pos rfl,
    if_pos (by omega), hdecode.2]

/-! ## Documents and their digests -/

theorem numerals_number (n : Nat) : Numerals (number n) := .num _ (isNumeral_repr n)

theorem bigEndian_length (n : Nat) : (bigEndian n).length = 8 := rfl

/-- Documents with one digest input are equal. -/
theorem digestInput_inj {domain : String} {v w : Json} (hv : Numerals v) (hw : Numerals w)
    (h : digestInput domain v = digestInput domain w) : v = w := by
  simp only [digestInput, List.append_assoc, List.append_cancel_left_eq] at h
  have htail := (List.append_inj h (by rw [bigEndian_length, bigEndian_length])).2
  exact render_injective hv hw (bytes_injective htail)

/-- The document an artifact set is hashed as. -/
def artifactSetJson (artifacts : List ArtifactManifest) : Json :=
  .arr ((sortOn ArtifactManifest.rank artifacts).map ArtifactManifest.toJson)

theorem numerals_str (text : String) : Numerals (.str text) := .str text trivial

theorem numerals_map {α : Type} {f : α → Json} (hf : ∀ a, Numerals (f a)) (items : List α) :
    Numerals (.arr (items.map f)) :=
  numerals_arr.mpr (List.forall_mem_map.mpr fun a _ => hf a)

theorem numerals_artifactSetJson (artifacts : List ArtifactManifest) :
    Numerals (artifactSetJson artifacts) :=
  numerals_map (fun a => by simp [ArtifactManifest.toJson, numerals_obj, numerals_str]) _

/-- Artifact sets that are hashed alike hold the same artifacts. -/
theorem perm_of_artifactSetJson {artifacts artifacts' : List ArtifactManifest}
    (h : artifactSetJson artifacts = artifactSetJson artifacts') : artifacts.Perm artifacts' := by
  have hinjective : Function.Injective ArtifactManifest.toJson := by
    rintro ⟨name, mediaType, digest⟩ ⟨name', mediaType', digest'⟩ heq
    simp only [ArtifactManifest.toJson, Json.obj.injEq, List.cons.injEq, Prod.mk.injEq,
      Json.str.injEq, true_and, and_true] at heq
    obtain ⟨rfl, rfl, rfl⟩ := heq
    rfl
  simp only [artifactSetJson, Json.arr.injEq] at h
  have hsorted := List.map_injective_iff.mpr hinjective h
  exact (sortOn_perm _ artifacts).symm.trans (hsorted ▸ sortOn_perm _ artifacts')

theorem numerals_spec (spec : CompletionPolicySpec) : Numerals spec.toJson := by
  have hauthority : ∀ authority : TrustedAuthority, Numerals authority.toJson := fun authority => by
    simp [TrustedAuthority.toJson, numerals_obj, numerals_str]
  refine .obj _ trivial ?_
  simp only [List.mem_cons, List.not_mem_nil, or_false, forall_eq_or_imp, forall_eq]
  exact ⟨numerals_str _, numerals_number _, numerals_number _, numerals_number _, numerals_number _,
    numerals_number _, numerals_number _, .bool _ trivial, numerals_map numerals_str _,
    numerals_map numerals_str _, numerals_map numerals_str _, numerals_map hauthority _,
    numerals_map hauthority _, numerals_number _, numerals_number _⟩

/-- The document of a policy profile determines it. -/
theorem spec_toJson_injective : Function.Injective CompletionPolicySpec.toJson := by
  have hauthority : Function.Injective TrustedAuthority.toJson := by
    rintro ⟨nodeId, publicKey⟩ ⟨nodeId', publicKey'⟩ h
    simp only [TrustedAuthority.toJson, Json.obj.injEq, List.cons.injEq, Prod.mk.injEq,
      Json.str.injEq, true_and, and_true] at h
    obtain ⟨rfl, rfl⟩ := h
    rfl
  have hauthorities := List.map_injective_iff.mpr hauthority
  have hstrs := List.map_injective_iff.mpr fun a b (h : Json.str a = .str b) => Json.str.inj h
  intro a b h
  simp only [CompletionPolicySpec.toJson, Json.obj.injEq, List.cons.injEq, Prod.mk.injEq,
    Json.str.injEq, Json.bool.injEq, Json.arr.injEq, true_and, and_true, number_injective.eq_iff,
    hauthorities.eq_iff, hstrs.eq_iff] at h
  obtain ⟨hid, hversion, hreviews, htests, hattestations, hclearances, hassurance, hhuman, hreviewers,
    htesters, hmonitors, hattesters, hratifiers, hrecords, hartifacts⟩ := h
  cases a
  cases b
  simp_all

/-! ## The document of a snapshot -/

/-- The document a snapshot is hashed as: its ratifications are not part of it. -/
def snapshotJson (s : CompletionSnapshot) : Json :=
  .obj [("taskId", .str s.taskId), ("contextId", .str s.contextId),
    ("requestDigest", .str s.requestDigest), ("artifacts", artifactSetJson s.artifacts),
    ("evidence", .arr (s.records.map CompletionEvidence.toJson))]

theorem numerals_evidence (record : CompletionEvidence) : Numerals record.toJson := by
  have hbool : ∀ value, Numerals (.bool value) := fun value => .bool value trivial
  have hevidence : ∀ evidence : List UInt8,
      Numerals (.arr (evidence.map fun byte => number byte.toNat)) :=
    numerals_map fun byte => numerals_number _
  cases record <;>
    simp [CompletionEvidence.toJson, CompletionEvidence.claimFields, ClosedAttestation.toJson,
      RatificationStatement.toJson, numerals_obj, numerals_str, numerals_number, hbool, hevidence]

theorem numerals_snapshotJson (s : CompletionSnapshot) : Numerals (snapshotJson s) := by
  simp [snapshotJson, numerals_obj, numerals_str, numerals_artifactSetJson,
    numerals_map numerals_evidence]

/-- The document of a record determines it. -/
theorem evidence_toJson_injective : Function.Injective CompletionEvidence.toJson := by
  have hevidence : Function.Injective (List.map fun byte : UInt8 => number byte.toNat) :=
    List.map_injective_iff.mpr fun a b h => UInt8.toNat_inj.mp (number_injective h)
  -- records of different kinds differ in their first member
  rintro (⟨⟨⟩, _, _⟩ | ⟨⟨⟩, _, _⟩ | ⟨_, _, ⟨⟩, _⟩ | ⟨⟨⟩, _⟩ | ⟨⟨⟨⟩, ⟨⟩⟩⟩)
    (⟨⟨⟩, _, _⟩ | ⟨⟨⟩, _, _⟩ | ⟨_, _, ⟨⟩, _⟩ | ⟨⟨⟩, _⟩ | ⟨⟨⟨⟩, ⟨⟩⟩⟩) h <;>
  simp only [CompletionEvidence.toJson, CompletionEvidence.claimFields, ClosedAttestation.toJson,
    RatificationStatement.toJson, List.cons_append, List.nil_append, Json.obj.injEq,
    List.cons.injEq, Prod.mk.injEq, Json.str.injEq, Json.bool.injEq, Json.arr.injEq,
    hevidence.eq_iff, number_injective.eq_iff, String.reduceEq, true_and, and_true, false_and,
    and_false, and_assoc] at h <;>
  simp [h]

/-- Snapshots that are hashed alike have the same task, request, artifacts and records. -/
theorem eq_of_snapshotJson {s s' : CompletionSnapshot} (h : snapshotJson s = snapshotJson s') :
    s.taskId = s'.taskId ∧ s.contextId = s'.contextId ∧ s.requestDigest = s'.requestDigest ∧
      s.artifacts.Perm s'.artifacts ∧ s.records = s'.records := by
  simp only [snapshotJson, Json.obj.injEq, List.cons.injEq, Prod.mk.injEq, Json.str.injEq,
    Json.arr.injEq, true_and, and_true] at h
  exact ⟨h.1, h.2.1, h.2.2.1, perm_of_artifactSetJson h.2.2.2.1,
    List.map_injective_iff.mpr evidence_toJson_injective h.2.2.2.2⟩

/-! ## Accepted snapshots -/

theorem le_assurance_of_blockReasons {t : Tally} {spec : CompletionPolicySpec}
    (h : t.blockReasons spec = []) : spec.minAssuranceBps ≤ t.assurance spec := by
  have hnone := List.filter_eq_nil_iff.mp h .insufficientAssurance (by decide)
  simpa [Tally.objects] using hnone

section Accepted

variable [HexDigest] [SignatureScheme] [ReceiptMac]

/-- What stands behind a receipt for a snapshot, as far as the digests of `known` inputs tell. -/
structure Substantiated (known : Set (List UInt8)) (policy : VersionedCompletionPolicy)
    (s : CompletionSnapshot) (receipt : CompletionReceipt) : Prop where
  /-- Each requirement is met by valid records of different issuers. -/
  issuers : ∀ r : Requirement, ∃ records : List CompletionEvidence,
    r.required policy.spec ≤ records.length ∧ (records.map r.issuer).Nodup ∧
      ∀ record ∈ records, record ∈ s.evidence ∧ record.Valid policy.spec s.subject ∧
        Qualifies policy.spec s r record
  /-- A record is about no other artifacts than those of the snapshot. -/
  bound : ∀ record ∈ s.evidence, record.isRatification = false → ∀ artifacts digest,
    digestInput "artifact-set" (artifactSetJson artifacts) ∈ known →
    artifactSetDigest artifacts = .ok digest → record.subjectDigest = some digest →
      artifacts.Perm s.artifacts
  /-- No record is negative. -/
  positive : ∀ record ∈ s.evidence, record.objection = none
  assurance : policy.spec.minAssuranceBps ≤ receipt.assuranceBps
  /-- A ratification that is required approves this very evaluation. -/
  ratified : policy.spec.requireHumanRatification = true → ∃ ratification ∈ s.ratifications,
    ratification.statement = ⟨receipt.policyHash, receipt.evidenceSnapshotHash,
      receipt.artifactSetDigest, true⟩ ∧
    CompletionPolicySpec.lists policy.spec.ratificationAuthorities ratification.authority = true ∧
    ratification.authority.verify ratification.statement.digest = true ∧
    receipt.ratificationReceiptHash =
      some (canonicalDigest "ratification-receipt" ratification.toJson)
  /-- The snapshot hash that the receipt and its ratification name is the one of this snapshot and
  of no other. -/
  hashed : ∀ (other : VersionedCompletionPolicy) (s' : CompletionSnapshot),
    digestInput "evidence-snapshot" (snapshotJson s') ∈ known →
    (other.assessmentOf s').checkpoint.evidenceSnapshotHash = receipt.evidenceSnapshotHash →
      s'.taskId = s.taskId ∧ s'.contextId = s.contextId ∧ s'.requestDigest = s.requestDigest ∧
        s'.artifacts.Perm s.artifacts ∧ s'.records = s.records
  /-- The receipt is for the snapshot and its policy. -/
  claims : receipt.toCheckpointClaims = (policy.assessmentOf s).checkpoint.toCheckpointClaims
  receipt_verified : policy.verifyReceipt receipt = true
  checkpoint_verified : policy.verifyCheckpoint (policy.assessmentOf s).checkpoint
    s.taskId s.contextId = true
  /-- No policy with another hash, and none with another profile, takes the receipt or the
  checkpoint. -/
  exclusive : ∀ other : VersionedCompletionPolicy, (other.verifyReceipt receipt = true ∨
      ∃ taskId contextId,
        other.verifyCheckpoint (policy.assessmentOf s).checkpoint taskId contextId = true) →
    other.policyHash = policy.policyHash ∧
      (digestInput "policy-profile" other.spec.toJson ∈ known → other.spec = policy.spec)

variable {policy : VersionedCompletionPolicy} {s : CompletionSnapshot} {receipt : CompletionReceipt}
  {known : Set (List UInt8)}

omit [SignatureScheme] [ReceiptMac] in
theorem validDigest_canonicalDigest (domain : String) (value : Json) :
    validDigest (canonicalDigest domain value) = true := HexDigest.contentDigest_valid _

/-- An acceptance is of an assessment without objections, ratified if that is required. -/
theorem evaluate_eq_accepted (h : policy.evaluate s = .ok (.accepted receipt)) :
    Admissible policy s ∧ (Tally.of s.records).blockReasons policy.spec = [] ∧
      ∃ hash, receipt = receiptFromCheckpoint (policy.assessmentOf s).checkpoint hash
          policy.receiptKey ∧
        (policy.spec.requireHumanRatification = true → ∃ ratification ∈ s.ratifications,
          hash = some (canonicalDigest "ratification-receipt" ratification.toJson) ∧
          ratification.statement.approved = true ∧
          policy.ratify (policy.assessmentOf s).checkpoint ratification = .ok (.accepted receipt)) := by
  obtain ⟨hs, hconclude⟩ := evaluate_eq_ok.mp h
  refine ⟨hs, ?_⟩
  rcases conclude_eq_ok hconclude with ⟨-, heq⟩ | ⟨hnone, hhuman, -, heq⟩ | ⟨-, -, -, heq⟩ |
    ⟨hnone, -, ratification, rest, hsome, hratify⟩
  · cases heq
  · cases heq
    refine ⟨hnone, none, rfl, fun hrequired => ?_⟩
    rw [hhuman] at hrequired
    cases hrequired
  · cases heq
  · obtain ⟨-, -, -, hdecision⟩ := ratify_eq_ok hratify
    have hmem : ratification ∈ s.ratifications := by
      have hlist : s.ratifications = ratification :: rest := hsome
      rw [hlist]
      exact List.mem_cons_self
    split at hdecision
    case isTrue happroved =>
      cases hdecision
      exact ⟨hnone, _, rfl, fun _ => ⟨ratification, hmem, rfl, happroved, hratify⟩⟩
    case isFalse => cases hdecision

/-- The checkpoint of an evaluation verifies if nothing stands against completion. -/
theorem verifyCheckpoint_assessmentOf (hs : Admissible policy s)
    (h : (Tally.of s.records).blockReasons policy.spec = []) :
    policy.verifyCheckpoint (policy.assessmentOf s).checkpoint s.taskId s.contextId = true := by
  have hassurance := le_assurance_of_blockReasons h
  have hhashes : ∀ hash ∈ s.records.map fun record => canonicalDigest "evidence-record" record.toJson,
      validDigest hash = true := by
    intro hash hmem
    obtain ⟨record, -, rfl⟩ := List.mem_map.mp hmem
    exact validDigest_canonicalDigest _ _
  have hseal := decodeSha256Tag_formatDigest (ReceiptMac.mac_length policy.receiptKey
    (sealInput "completion-checkpoint" (policy.assessmentOf s).checkpoint.toCheckpointClaims.toJson))
  simp only [VersionedCompletionPolicy.verifyCheckpoint, Bool.and_eq_true, beq_iff_eq,
    decide_eq_true_eq, List.all_eq_true]
  exact ⟨⟨⟨⟨⟨⟨⟨⟨⟨⟨rfl, rfl⟩, rfl⟩, rfl⟩, rfl⟩, hs.requestDigest⟩, validDigest_canonicalDigest _ _⟩,
    validDigest_canonicalDigest _ _⟩, hhashes⟩, hassurance⟩, hseal⟩

omit [SignatureScheme] in
theorem verifyReceipt_receiptFromCheckpoint (s : CompletionSnapshot) (hash : Option String) :
    policy.verifyReceipt (receiptFromCheckpoint (policy.assessmentOf s).checkpoint hash
      policy.receiptKey) = true := by
  have hseal := decodeSha256Tag_formatDigest (ReceiptMac.mac_length policy.receiptKey
    (sealInput "completion-receipt" (receiptFromCheckpoint (policy.assessmentOf s).checkpoint hash
      policy.receiptKey).toReceiptClaims.toJson))
  simp only [VersionedCompletionPolicy.verifyReceipt, Bool.and_eq_true, beq_iff_eq]
  exact ⟨⟨⟨rfl, rfl⟩, rfl⟩, hseal⟩

omit [SignatureScheme] [ReceiptMac] in
/-- Policies with one hash have one profile, if the digest tells their inputs apart. -/
theorem spec_eq_of_policyHash (hinj : Set.InjOn contentDigest known)
    {other : VersionedCompletionPolicy}
    (hprofile : digestInput "policy-profile" policy.spec.toJson ∈ known)
    (hother : digestInput "policy-profile" other.spec.toJson ∈ known)
    (h : other.policyHash = policy.policyHash) : other.spec = policy.spec := by
  rw [other.hashed, policy.hashed] at h
  exact spec_toJson_injective (digestInput_inj (numerals_spec _) (numerals_spec _)
    (hinj hother hprofile h))

/-- Whatever is accepted has the evidence the policy asks for, and its receipt and checkpoint verify
under this policy only. -/
theorem accepted_substantiated (hinj : Set.InjOn contentDigest known)
    (hset : digestInput "artifact-set" (artifactSetJson s.artifacts) ∈ known)
    (hprofile : digestInput "policy-profile" policy.spec.toJson ∈ known)
    (hsnapshot : digestInput "evidence-snapshot" (snapshotJson s) ∈ known)
    (h : policy.evaluate s = .ok (.accepted receipt)) : Substantiated known policy s receipt := by
  obtain ⟨hs, hnone, hash, rfl, hratified⟩ := evaluate_eq_accepted h
  obtain ⟨hled, hpositive, -⟩ := hs.blockReasons_eq_nil.mp hnone
  have hcheckpoint := verifyCheckpoint_assessmentOf hs hnone
  exact
    { issuers := by
        intro r
        refine ⟨r.counted policy.spec s.records, ?_, r.counted_nodup _ _, fun record hrecord => ?_⟩
        · rw [← Tally.qualifying_values, hs.qualifying_eq]
          exact hled r
        · obtain ⟨hfirst, hassurance⟩ := List.mem_filter.mp hrecord
          have hpositives := firstsFrom_sublist.subset hfirst
          obtain ⟨hmem, hissuer⟩ := List.mem_filter.mp hpositives
          have hevidence := (CompletionSnapshot.mem_records.mp hmem).1
          refine ⟨hevidence, hs.records_valid record hmem, (hs.qualifies_iff hevidence).mpr ⟨hissuer, ?_⟩⟩
          simpa using hassurance
      bound := by
        intro record hrecord hother artifacts digest hknown hdigest habout
        have hvalid := hs.records_valid record (CompletionSnapshot.mem_records.mpr ⟨hrecord, hother⟩)
        obtain ⟨-, -, -, rfl⟩ := artifactSetDigest_eq_ok.mp hdigest
        rw [hvalid.about, Option.some.injEq] at habout
        have hinput := hinj hset hknown habout
        have hjson := digestInput_inj (numerals_artifactSetJson _) (numerals_artifactSetJson _) hinput
        exact perm_of_artifactSetJson hjson.symm
      positive := hpositive
      assurance := le_assurance_of_blockReasons hnone
      ratified := by
        intro hhuman
        obtain ⟨ratification, hmem, hhash, happroved, hratify⟩ := hratified hhuman
        obtain ⟨hstatement, hlisted, hverified, -⟩ := ratify_eq_ok hratify
        rw [happroved] at hstatement
        exact ⟨ratification, hmem, hstatement, hlisted, hverified, hhash⟩
      hashed := fun _ s' hknown hhash => eq_of_snapshotJson (digestInput_inj
        (numerals_snapshotJson _) (numerals_snapshotJson _) (hinj hknown hsnapshot hhash))
      claims := rfl
      receipt_verified := verifyReceipt_receiptFromCheckpoint s hash
      checkpoint_verified := hcheckpoint
      exclusive := by
        intro other hother
        have hsame : other.policyHash = policy.policyHash := by
          rcases hother with hreceipt | ⟨taskId, contextId, hcheckpoint⟩
          · simp only [VersionedCompletionPolicy.verifyReceipt, Bool.and_eq_true, beq_iff_eq] at hreceipt
            exact hreceipt.1.2.symm
          · simp only [VersionedCompletionPolicy.verifyCheckpoint, Bool.and_eq_true, beq_iff_eq]
              at hcheckpoint
            exact hcheckpoint.1.1.1.1.1.1.2.symm
        exact ⟨hsame, fun hknown => spec_eq_of_policyHash hinj hprofile hknown hsame⟩ }

end Accepted

/-! ## A receipt of the development profile -/

section Sample

attribute [local instance] checksumDigest

theorem validDigest_checksum (input : List UInt8) : validDigest (contentDigest input) = true := by
  have hseven : (bytes "sha256:").length = 7 := by decide
  have hbytes : bytes (contentDigest input) =
      bytes "sha256:" ++ (Checksum.digits input).flatMap String.utf8EncodeChar := by
    show bytes ("sha256:" ++ String.ofList (Checksum.digits input)) = _
    rw [bytes_append]
    congr 1
    rw [bytes_eq, String.toList_ofList]
  have hlength : (bytes (contentDigest input)).length = 71 :=
    (length_bytes _).trans (contentDigest_size input)
  have hdigit : ∀ n ∈ List.range 16,
      (String.utf8EncodeChar (Checksum.hexDigit n)).all isHexByte = true := by decide
  have hhex : ((Checksum.digits input).flatMap String.utf8EncodeChar).all isHexByte = true := by
    rw [List.all_flatMap, List.all_eq_true]
    intro c hc
    rcases List.mem_append.mp hc with hzero | hmem
    · rw [List.eq_of_mem_replicate hzero]
      decide
    · obtain ⟨i, -, rfl⟩ := List.mem_map.mp hmem
      exact hdigit _ (List.mem_range.mpr (Nat.mod_lt _ (by decide)))
  simp only [validDigest, Bool.and_eq_true, beq_iff_eq]
  rw [hlength, hbytes, List.take_left' hseven, List.drop_left' hseven]
  exact ⟨⟨rfl, rfl⟩, hhex⟩

end Sample

@[reducible] def checksumHexDigest : HexDigest where
  toContentDigest := checksumDigest
  contentDigest_valid := validDigest_checksum

section Evaluated

attribute [local instance] checksumHexDigest sampleMac sampleSignatures

/-- The development profile, with an attestation and a human ratification besides. -/
def ratifiedSpec : CompletionPolicySpec :=
  { CompletionPolicySpec.development with
    requiredAttestations := 1, requireHumanRatification := true
    attestationAuthorities := [⟨"node", "key"⟩], ratificationAuthorities := [⟨"human", "key"⟩] }

def ratifiedPolicy : VersionedCompletionPolicy where
  spec := ratifiedSpec
  policyHash := canonicalDigest "policy-profile" ratifiedSpec.toJson
  receiptKey := [1]
  checked := ⟨ratifiedSpec, by decide⟩
  hashed := rfl

/-- A review, an attestation and what else is handed in. -/
def attestedSnapshot (more : List CompletionEvidence) : CompletionSnapshot :=
  sampleSnapshot ([sampleReview "b" 4 9000, .attestation "att"
    (canonicalDigest "artifact-set" (.arr [sampleArtifact.toJson])) ⟨"node", "key", "nodekey"⟩
    9000] ++ more)

/-- The attested snapshot with its ratification. -/
def ratifiedSnapshot : CompletionSnapshot :=
  let checkpoint := (ratifiedPolicy.assessmentOf (attestedSnapshot [])).checkpoint
  attestedSnapshot [.ratification ⟨⟨checkpoint.policyHash, checkpoint.evidenceSnapshotHash,
    checkpoint.artifactSetDigest, true⟩, ⟨"human", "key", "humankey"⟩⟩]

theorem ratified_accepted_substantiated : ∃ receipt,
    ratifiedPolicy.evaluate ratifiedSnapshot = .ok (.accepted receipt) ∧
    ratifiedPolicy.spec.requireHumanRatification = true ∧
    Substantiated {digestInput "artifact-set" (artifactSetJson [sampleArtifact]),
        digestInput "policy-profile" ratifiedSpec.toJson,
        digestInput "evidence-snapshot" (snapshotJson ratifiedSnapshot)}
      ratifiedPolicy ratifiedSnapshot receipt := by
  have haccepted : (ratifiedPolicy.evaluate ratifiedSnapshot).toOption.any
      PolicyDecision.isAccepted = true := by decide +kernel
  obtain ⟨receipt, hreceipt⟩ : ∃ receipt,
      ratifiedPolicy.evaluate ratifiedSnapshot = .ok (.accepted receipt) := by
    generalize ratifiedPolicy.evaluate ratifiedSnapshot = result at haccepted
    match result, haccepted with
    | .ok (.accepted receipt), _ => exact ⟨receipt, rfl⟩
  have hdistinct : [digestInput "artifact-set" (artifactSetJson [sampleArtifact]),
      digestInput "policy-profile" ratifiedSpec.toJson,
      digestInput "evidence-snapshot" (snapshotJson ratifiedSnapshot)].Pairwise
        (fun x y => contentDigest x ≠ contentDigest y) := by decide +kernel
  simp only [List.pairwise_cons, List.mem_cons, List.not_mem_nil, or_false, forall_eq_or_imp,
    forall_eq] at hdistinct
  obtain ⟨⟨hprofile, hsnapshot⟩, hother, -⟩ := hdistinct
  refine ⟨receipt, hreceipt, rfl, accepted_substantiated ?_ ?_ ?_ ?_ hreceipt⟩
  · rintro x (rfl | rfl | rfl) y (rfl | rfl | rfl) h
    · rfl
    · exact absurd h hprofile
    · exact absurd h hsnapshot
    · exact absurd h.symm hprofile
    · rfl
    · exact absurd h hother
    · exact absurd h.symm hsnapshot
    · exact absurd h.symm hother
    · rfl
  · exact Set.mem_insert _ _
  · exact Set.mem_insert_of_mem _ (Set.mem_insert _ _)
  · exact Set.mem_insert_of_mem _ (Set.mem_insert_of_mem _ rfl)

end Evaluated

end SmeshDurable.Policy
