import SmeshDurable.Policy.Evaluate

/-!
# What an assessment looks at

An assessment succeeds exactly on the snapshots whose parts are all well formed, and its result
is a function of the artifacts and records as sets: neither the order they come in nor the order
in which the checks are made matters for it.
-/

namespace SmeshDurable.Policy

open Ranked Replay Transaction TextLines

@[simp] theorem validateText_eq_ok {field value : String} {u : Unit} :
    validateText field value = .ok u ↔ validText value = true := require_eq_ok

@[simp] theorem validateDigest_eq_ok {field value : String} {u : Unit} :
    validateDigest field value = .ok u ↔ validDigest value = true := require_eq_ok

/-! ## Artifacts -/

theorem ArtifactManifest.rank_injective : Function.Injective ArtifactManifest.rank := by
  rintro ⟨name, mediaType, digest⟩ ⟨name', mediaType', digest'⟩ h
  simp only [rank, EmbeddingLike.apply_eq_iff_eq, Prod.mk.injEq] at h
  obtain ⟨rfl, rfl, rfl⟩ := h
  rfl

/-- The texts of a manifest are well formed. -/
structure ArtifactManifest.Valid (a : ArtifactManifest) : Prop where
  name : validText a.name = true
  mediaType : validText a.mediaType = true
  digest : validDigest a.digest = true

theorem checkArtifacts_eq_ok {seen : List String} {artifacts : List ArtifactManifest} {u : Unit} :
    checkArtifacts seen artifacts = .ok u ↔ (∀ a ∈ artifacts, a.Valid ∧ a.digest ∉ seen) ∧
      (artifacts.map ArtifactManifest.digest).Nodup := by
  induction artifacts generalizing seen with
  | nil => simp [checkArtifacts]
  | cons a rest ih =>
    simp only [checkArtifacts, bind_eq_ok, validateText_eq_ok, validateDigest_eq_ok, require_eq_ok,
      ih, List.mem_cons, forall_eq_or_imp, List.map_cons, List.nodup_cons, not_or, exists_const]
    constructor
    · rintro ⟨hname, hmedia, hdigest, hnew, hrest, hnodup⟩
      refine ⟨⟨⟨⟨hname, hmedia, hdigest⟩, hnew⟩, fun b hb => ?_⟩, fun hmem => ?_, hnodup⟩
      · exact ⟨(hrest b hb).1, (hrest b hb).2.2⟩
      · obtain ⟨b, hb, heq⟩ := List.mem_map.mp hmem
        exact (hrest b hb).2.1 heq
    · rintro ⟨⟨⟨⟨hname, hmedia, hdigest⟩, hnew⟩, hrest⟩, hother, hnodup⟩
      refine ⟨hname, hmedia, hdigest, hnew, fun b hb => ?_, hnodup⟩
      refine ⟨(hrest b hb).1, fun heq => hother ?_, (hrest b hb).2⟩
      exact List.mem_map.mpr ⟨b, hb, heq⟩

theorem sortOn_rank_sortOn (artifacts : List ArtifactManifest) :
    sortOn ArtifactManifest.rank (sortOn ArtifactManifest.rank artifacts) =
      sortOn ArtifactManifest.rank artifacts :=
  sortOn_eq_of_perm _ (sortOn_perm _ _) fun _ _ _ _ heq => ArtifactManifest.rank_injective heq

theorem checkArtifacts_sortOn {artifacts : List ArtifactManifest} {u : Unit} :
    checkArtifacts [] (sortOn ArtifactManifest.rank artifacts) = .ok u ↔
      (∀ a ∈ artifacts, a.Valid) ∧ (artifacts.map ArtifactManifest.digest).Nodup := by
  rw [checkArtifacts_eq_ok, ((sortOn_perm ArtifactManifest.rank artifacts).map _).nodup_iff]
  simp

/-- A set of artifacts has a digest if they are well formed and have different digests. -/
theorem artifactSetDigest_eq_ok [ContentDigest] {artifacts : List ArtifactManifest}
    {digest : String} : artifactSetDigest artifacts = .ok digest ↔ artifacts ≠ [] ∧
      (∀ a ∈ artifacts, a.Valid) ∧ (artifacts.map ArtifactManifest.digest).Nodup ∧
      canonicalDigest "artifact-set" (.arr ((sortOn ArtifactManifest.rank artifacts).map
        ArtifactManifest.toJson)) = digest := by
  simp only [artifactSetDigest, bind_eq_ok, require_eq_ok, checkArtifacts_sortOn, exists_const,
    Except.ok.injEq, and_assoc]

/-! ## Records -/

section Records

variable [ContentDigest] [SignatureScheme] {spec : CompletionPolicySpec} {subject : String}

/-- A record that passes the checks made of it alone. -/
structure CompletionEvidence.Valid (spec : CompletionPolicySpec) (subject : String)
    (record : CompletionEvidence) : Prop where
  id : ∀ id ∈ record.id, validText id = true
  about : record.subjectDigest = some subject
  digest : validDigest subject = true
  assurance : ∀ assurance ∈ record.assuranceBps, assurance ≤ 10000
  evidence : validateEvidenceRecord record subject spec = .ok ()

theorem checkRecord_eq_ok {ids provenance : List String} {record : CompletionEvidence}
    {result : String × String} :
    checkRecord spec subject ids provenance record = .ok result ↔ record.Valid spec subject ∧
      record.id = some result.1 ∧ record.provenanceIdentity = some result.2 ∧ result.1 ∉ ids ∧
      result.2 ∉ provenance := by
  simp only [checkRecord, bind_eq_ok, expect_eq_ok, validateText_eq_ok, validateDigest_eq_ok,
    require_eq_ok, exists_const, Except.ok.injEq]
  constructor
  · rintro ⟨id, hid, htext, hnew, actual, hactual, hdigest, rfl, hassurance, _, hevidence, identity,
      hidentity, hother, rfl⟩
    refine ⟨⟨?_, hactual, hdigest, hassurance, hevidence⟩, hid, hidentity, hnew, hother⟩
    rw [hid]
    rintro other ⟨⟩
    exact htext
  · rintro ⟨⟨htext, hactual, hdigest, hassurance, hevidence⟩, hid, hidentity, hnew, hother⟩
    exact ⟨result.1, hid, htext _ hid, hnew, subject, hactual, hdigest, rfl, hassurance, (), hevidence,
      result.2, hidentity, hother, rfl⟩

/-- Records pass if each of them does and their identifiers and provenances are all different. -/
theorem checkRecords_eq_ok {ids provenance : List String} {records : List CompletionEvidence}
    {u : Unit} : checkRecords spec subject ids provenance records = .ok u ↔
      (∀ record ∈ records, record.Valid spec subject ∧ (∀ id ∈ record.id, id ∉ ids) ∧
        ∀ identity ∈ record.provenanceIdentity, identity ∉ provenance) ∧
      (records.map CompletionEvidence.id).Nodup ∧
      (records.map CompletionEvidence.provenanceIdentity).Nodup := by
  induction records generalizing ids provenance with
  | nil => simp [checkRecords]
  | cons record rest ih =>
    simp only [checkRecords, bind_eq_ok, checkRecord_eq_ok, ih, Prod.exists, List.mem_cons,
      forall_eq_or_imp, List.map_cons, List.nodup_cons]
    constructor
    · rintro ⟨id, identity, ⟨hvalid, hid, hidentity, hnew, hother⟩, hrest, hids, hidentities⟩
      refine ⟨⟨⟨hvalid, by simp [hid, hnew], by simp [hidentity, hother]⟩, fun r hr => ?_⟩,
        ⟨fun hmem => ?_, hids⟩, fun hmem => ?_, hidentities⟩
      · obtain ⟨hr, hrid, hridentity⟩ := hrest r hr
        exact ⟨hr, fun x hx hseen => hrid x hx (.inr hseen),
          fun x hx hseen => hridentity x hx (.inr hseen)⟩
      · obtain ⟨r, hr, heq⟩ := List.mem_map.mp hmem
        exact (hrest r hr).2.1 id (heq.trans hid) (.inl rfl)
      · obtain ⟨r, hr, heq⟩ := List.mem_map.mp hmem
        exact (hrest r hr).2.2 identity (heq.trans hidentity) (.inl rfl)
    · rintro ⟨⟨⟨hvalid, hnew, hother⟩, hrest⟩, ⟨hid, hids⟩, hidentity, hidentities⟩
      -- a record with a subject has an identifier and a provenance
      obtain ⟨id, heq⟩ : ∃ id, record.id = some id := by
        have hsubject := hvalid.about
        cases record <;> first | exact ⟨_, rfl⟩ | cases hsubject
      obtain ⟨identity, heq'⟩ : ∃ identity, record.provenanceIdentity = some identity := by
        have hsubject := hvalid.about
        cases record <;> first | exact ⟨_, rfl⟩ | cases hsubject
      refine ⟨id, identity, ⟨hvalid, heq, heq', hnew id heq, hother identity heq'⟩, fun r hr => ?_,
        hids, hidentities⟩
      obtain ⟨hr', hrid, hridentity⟩ := hrest r hr
      refine ⟨hr', fun x hx => ?_, fun x hx => ?_⟩
      · rintro (rfl | hseen)
        · exact hid (List.mem_map.mpr ⟨r, hr, hx.trans heq.symm⟩)
        · exact hrid x hx hseen
      · rintro (rfl | hseen)
        · exact hidentity (List.mem_map.mpr ⟨r, hr, hx.trans heq'.symm⟩)
        · exact hridentity x hx hseen

end Records

/-! ## The parts of a snapshot -/

namespace CompletionSnapshot

def sortedArtifacts (s : CompletionSnapshot) : List ArtifactManifest :=
  sortOn ArtifactManifest.rank s.artifacts

/-- The records that are not ratifications, by their identifiers. -/
def records (s : CompletionSnapshot) : List CompletionEvidence :=
  sortOn CompletionEvidence.rank (s.evidence.filter (!·.isRatification))

def ratifications (s : CompletionSnapshot) : List RatificationReceipt :=
  s.evidence.filterMap CompletionEvidence.ratification?

theorem mem_records {s : CompletionSnapshot} {record : CompletionEvidence} :
    record ∈ s.records ↔ record ∈ s.evidence ∧ record.isRatification = false := by
  simp [records]

/-- The digest the evidence has to be about. -/
def subject [ContentDigest] (s : CompletionSnapshot) : String :=
  canonicalDigest "artifact-set" (.arr (s.sortedArtifacts.map ArtifactManifest.toJson))

/-- The same snapshot, its artifacts and its evidence in another order. -/
structure Rearranged (s s' : CompletionSnapshot) : Prop where
  taskId : s.taskId = s'.taskId
  contextId : s.contextId = s'.contextId
  requestDigest : s.requestDigest = s'.requestDigest
  artifacts : s.artifacts.Perm s'.artifacts
  evidence : s.evidence.Perm s'.evidence

namespace Rearranged

variable {s s' : CompletionSnapshot} (h : s.Rearranged s')

include h

theorem symm : s'.Rearranged s :=
  ⟨h.taskId.symm, h.contextId.symm, h.requestDigest.symm, h.artifacts.symm, h.evidence.symm⟩

theorem sortedArtifacts : s.sortedArtifacts = s'.sortedArtifacts :=
  sortOn_eq_of_perm _ h.artifacts fun _ _ _ _ heq => ArtifactManifest.rank_injective heq

theorem records_perm : s.records.Perm s'.records :=
  (sortOn_perm _ _).trans ((h.evidence.filter _).trans (sortOn_perm _ _).symm)

/-- Identifiers that are all different fix the order of the records. -/
theorem records (hids : (s.records.map CompletionEvidence.id).Nodup) : s.records = s'.records := by
  apply sortOn_eq_of_perm _ (h.evidence.filter _)
  intro a ha b hb heq
  exact List.inj_on_of_nodup_map hids ((mem_sortOn _).mpr ha) ((mem_sortOn _).mpr hb) heq

theorem ratifications (hone : s.ratifications.length ≤ 1) : s.ratifications = s'.ratifications := by
  have hperm : s.ratifications.Perm s'.ratifications := h.evidence.filterMap _
  match hs : s.ratifications with
  | [] =>
    rw [hs] at hperm
    exact hperm.nil_eq
  | [receipt] =>
    rw [hs] at hperm
    exact (List.singleton_perm.mp hperm).symm ▸ rfl
  | _ :: _ :: _ =>
    rw [hs] at hone
    simp at hone

end Rearranged

end CompletionSnapshot

/-! ## The outcome of an assessment -/

section Assess

variable [ContentDigest] [SignatureScheme]

/-- A snapshot whose parts are well formed and within the limits of the policy. -/
structure Admissible (policy : VersionedCompletionPolicy) (s : CompletionSnapshot) : Prop where
  taskId : validText s.taskId = true
  contextId : validText s.contextId = true
  requestDigest : validDigest s.requestDigest = true
  artifacts_nonempty : s.artifacts ≠ []
  artifacts_bounded : s.artifacts.length ≤ policy.spec.maxArtifacts
  evidence_bounded : s.evidence.length ≤ policy.spec.maxEvidenceRecords + 1
  artifacts_valid : ∀ a ∈ s.artifacts, a.Valid
  artifacts_nodup : (s.artifacts.map ArtifactManifest.digest).Nodup
  records_bounded : s.records.length ≤ policy.spec.maxEvidenceRecords
  ratifications_bounded : s.ratifications.length ≤ 1
  records_valid : ∀ record ∈ s.records, record.Valid policy.spec s.subject
  ids_nodup : (s.records.map CompletionEvidence.id).Nodup
  provenance_nodup : (s.records.map CompletionEvidence.provenanceIdentity).Nodup

theorem Admissible.rearranged {policy : VersionedCompletionPolicy} {s s' : CompletionSnapshot}
    (hs : Admissible policy s) (h : s.Rearranged s') : Admissible policy s' where
  taskId := h.taskId ▸ hs.taskId
  contextId := h.contextId ▸ hs.contextId
  requestDigest := h.requestDigest ▸ hs.requestDigest
  artifacts_nonempty := by
    intro hnil
    apply hs.artifacts_nonempty
    rw [← List.length_eq_zero_iff, h.artifacts.length_eq, hnil, List.length_nil]
  artifacts_bounded := h.artifacts.length_eq ▸ hs.artifacts_bounded
  evidence_bounded := h.evidence.length_eq ▸ hs.evidence_bounded
  artifacts_valid a ha := hs.artifacts_valid a (h.artifacts.mem_iff.mpr ha)
  artifacts_nodup := (h.artifacts.map _).nodup_iff.mp hs.artifacts_nodup
  records_bounded := h.records_perm.length_eq ▸ hs.records_bounded
  ratifications_bounded := by
    rw [← h.ratifications hs.ratifications_bounded]
    exact hs.ratifications_bounded
  records_valid record hrecord := by
    have hsubject : s.subject = s'.subject := by
      rw [CompletionSnapshot.subject, CompletionSnapshot.subject, h.sortedArtifacts]
    rw [← hsubject]
    exact hs.records_valid record (h.records_perm.mem_iff.mpr hrecord)
  ids_nodup := (h.records_perm.map _).nodup_iff.mp hs.ids_nodup
  provenance_nodup := (h.records_perm.map _).nodup_iff.mp hs.provenance_nodup

variable [ReceiptMac]

/-- What an assessment of a well formed snapshot comes to. -/
def VersionedCompletionPolicy.assessmentOf (policy : VersionedCompletionPolicy)
    (s : CompletionSnapshot) : Assessment :=
  { checkpoint := policy.checkpointOf s s.sortedArtifacts s.subject s.records
    reasons := (Tally.of s.records).blockReasons policy.spec
    ratifications := s.ratifications }

variable {policy : VersionedCompletionPolicy} {s s' : CompletionSnapshot}

theorem assess_eq_ok {a : Assessment} :
    policy.assess s = .ok a ↔ Admissible policy s ∧ policy.assessmentOf s = a := by
  have hnonempty : sortOn ArtifactManifest.rank s.artifacts ≠ [] ↔ s.artifacts ≠ [] := by
    rw [ne_eq, ne_eq, ← List.length_eq_zero_iff, ← List.length_eq_zero_iff,
      (sortOn_perm ArtifactManifest.rank s.artifacts).length_eq]
  have hrecords : (s.evidence.filter (!·.isRatification)).length = s.records.length :=
    (sortOn_perm _ _).length_eq.symm
  simp only [VersionedCompletionPolicy.assess, bind_eq_ok, validateText_eq_ok,
    validateDigest_eq_ok, require_eq_ok, exists_const, Except.ok.injEq, checkArtifacts_sortOn,
    artifactSetDigest_eq_ok, checkRecords_eq_ok, sortOn_rank_sortOn, hnonempty, hrecords]
  constructor
  · rintro ⟨htask, hcontext, hrequest, hartifacts, hcount, hevidence, ⟨hvalid, hdigests⟩, _,
      ⟨-, -, -, rfl⟩, hbound, hone, ⟨hchecked, hids, hidentities⟩, rfl⟩
    refine ⟨⟨htask, hcontext, hrequest, hartifacts, hcount, hevidence, hvalid, hdigests, hbound, hone,
      fun record hrecord => (hchecked record hrecord).1, hids, hidentities⟩, rfl⟩
  · rintro ⟨hs, rfl⟩
    have hsorted : (∀ a ∈ sortOn ArtifactManifest.rank s.artifacts, a.Valid) ∧
        ((sortOn ArtifactManifest.rank s.artifacts).map ArtifactManifest.digest).Nodup := by
      rw [((sortOn_perm ArtifactManifest.rank s.artifacts).map _).nodup_iff]
      exact ⟨fun a ha => hs.artifacts_valid a ((mem_sortOn _).mp ha), hs.artifacts_nodup⟩
    refine ⟨hs.taskId, hs.contextId, hs.requestDigest, hs.artifacts_nonempty, hs.artifacts_bounded,
      hs.evidence_bounded, ⟨hs.artifacts_valid, hs.artifacts_nodup⟩, _,
      ⟨hs.artifacts_nonempty, hsorted.1, hsorted.2, rfl⟩, hs.records_bounded,
      hs.ratifications_bounded, ⟨fun record hrecord => ?_, hs.ids_nodup, hs.provenance_nodup⟩, rfl⟩
    exact ⟨hs.records_valid record hrecord, fun _ _ => List.not_mem_nil, fun _ _ => List.not_mem_nil⟩

/-- An assessment does not depend on the order of the artifacts and the evidence. -/
theorem assessmentOf_rearranged (hs : Admissible policy s) (h : s.Rearranged s') :
    policy.assessmentOf s = policy.assessmentOf s' := by
  have hrecords := h.records hs.ids_nodup
  have hartifacts := h.sortedArtifacts
  have hsubject : s.subject = s'.subject := by
    rw [CompletionSnapshot.subject, CompletionSnapshot.subject, hartifacts]
  simp only [VersionedCompletionPolicy.assessmentOf, VersionedCompletionPolicy.checkpointOf,
    VersionedCompletionPolicy.snapshotHash, hrecords, hartifacts, hsubject, h.taskId, h.contextId,
    h.requestDigest, h.ratifications hs.ratifications_bounded]

/-- Evaluating a snapshot with its artifacts and evidence in another order gives the same decision,
or fails as well. -/
theorem evaluate_rearranged (h : s.Rearranged s') :
    (∃ error error', policy.evaluate s = .error error ∧ policy.evaluate s' = .error error') ∨
      policy.evaluate s = policy.evaluate s' := by
  by_cases hs : Admissible policy s
  · right
    have hassess := assess_eq_ok.mpr ⟨hs, rfl⟩
    have hassess' := assess_eq_ok.mpr ⟨hs.rearranged h, (assessmentOf_rearranged hs h).symm⟩
    rw [VersionedCompletionPolicy.evaluate, VersionedCompletionPolicy.evaluate, hassess, hassess']
  · left
    have hs' : ¬ Admissible policy s' := fun hs' => hs (hs'.rearranged h.symm)
    have herror : ∀ {t}, ¬ Admissible policy t → ∃ error, policy.evaluate t = .error error := by
      intro t ht
      cases hassess : policy.assess t with
      | error error => exact ⟨error, by rw [VersionedCompletionPolicy.evaluate, hassess]; rfl⟩
      | ok a => exact absurd (assess_eq_ok.mp hassess).1 ht
    obtain ⟨error, herr⟩ := herror hs
    obtain ⟨error', herr'⟩ := herror hs'
    exact ⟨error, error', herr, herr'⟩

end Assess

/-! ## The development profile at work -/

theorem development_accepted : ∃ submitted : CompletionPolicySpec,
    submitted.checked = .ok CompletionPolicySpec.development :=
  ⟨.development, by decide⟩

/-- The development profile under a given key. -/
def developmentPolicy [ContentDigest] (receiptKey : List UInt8) : VersionedCompletionPolicy where
  spec := .development
  policyHash := canonicalDigest "policy-profile" CompletionPolicySpec.development.toJson
  receiptKey := receiptKey
  checked := development_accepted
  hashed := rfl

section Sample

variable [ContentDigest]

def sampleArtifact : ArtifactManifest := ⟨"report", "text/plain", contentDigest []⟩

def sampleClaim (id issuer : String) (payload : UInt8) : ClaimedEvidence where
  id := id
  issuer := issuer
  subjectDigest := canonicalDigest "artifact-set" (.arr [sampleArtifact.toJson])
  evidence := [payload]
  evidenceDigest := contentDigest [payload]

/-- A snapshot with a passed test, a cleared contradiction and some reviews. -/
def sampleSnapshot (reviews : List CompletionEvidence) : CompletionSnapshot where
  taskId := "task"
  contextId := "context"
  requestDigest := contentDigest []
  artifacts := [sampleArtifact]
  evidence := reviews ++ [.test (sampleClaim "test" "test-authority" 1) true 9000,
    .contradiction (sampleClaim "clear" "contradiction-monitor" 2) false]

def sampleReview (id : String) (payload : UInt8) (assuranceBps : Nat) : CompletionEvidence :=
  .review (sampleClaim id "review-authority" payload) true assuranceBps

end Sample

theorem length_sampleMac (value : UInt8) : (List.replicate 31 0 ++ [value]).length = 32 := rfl

@[reducible] def sampleMac : ReceiptMac where
  mac key message := List.replicate 31 0 ++ [UInt8.ofNat (Checksum.polynomial (key ++ message))]
  mac_length _ _ := length_sampleMac _

/-- A signature is valid if it repeats who signed. -/
@[reducible] def sampleSignatures : SignatureScheme where
  verify nodeId publicKey signature _ := signature == nodeId ++ publicKey

section Evaluated

attribute [local instance] checksumDigest sampleMac sampleSignatures

/-- Two reviews are evaluated alike in either order. -/
theorem sample_evaluate_rearranged : ∃ decision,
    (developmentPolicy [1]).evaluate (sampleSnapshot [sampleReview "a" 3 9000, sampleReview "b" 4 8000])
      = .ok decision ∧
    (developmentPolicy [1]).evaluate (sampleSnapshot [sampleReview "b" 4 8000, sampleReview "a" 3 9000])
      = .ok decision := by
  have hpasses : ((developmentPolicy [1]).evaluate
      (sampleSnapshot [sampleReview "a" 3 9000, sampleReview "b" 4 8000])).toOption.isSome = true := by
    decide +kernel
  have hrearranged : (sampleSnapshot [sampleReview "a" 3 9000, sampleReview "b" 4 8000]).Rearranged
      (sampleSnapshot [sampleReview "b" 4 8000, sampleReview "a" 3 9000]) :=
    ⟨rfl, rfl, rfl, .rfl, .swap _ _ _⟩
  rcases (evaluate_rearranged hrearranged : _ ∨ (developmentPolicy [1]).evaluate _ = _) with
    ⟨error, -, herror, -⟩ | hsame
  · rw [herror] at hpasses
    cases hpasses
  · rw [← hsame]
    generalize (developmentPolicy [1]).evaluate _ = evaluated at hpasses
    cases evaluated with
    | error error => cases hpasses
    | ok decision => exact ⟨decision, rfl, rfl⟩

end Evaluated

end SmeshDurable.Policy
