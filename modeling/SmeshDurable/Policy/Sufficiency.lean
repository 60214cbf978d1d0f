import SmeshDurable.Policy.Counting

/-!
# When evidence suffices

The evidence of a snapshot suffices if for every requirement enough issuers have a qualifying
record. An evaluation counts an issuer only if the first of their positive records qualifies, so
that it goes by the identifiers of the records as well.
-/

namespace SmeshDurable.Policy

open Ranked Transaction

section Counts

variable [ContentDigest]

/-- A record that a requirement may count: positive, about the artifacts of the snapshot, of an
issuer the policy lists and with the assurance it asks for. -/
def Qualifies (spec : CompletionPolicySpec) (s : CompletionSnapshot) (r : Requirement)
    (record : CompletionEvidence) : Prop :=
  (∃ issuer ∈ r.issuer record, r.authorises spec issuer = true) ∧
    record.subjectDigest = some s.subject ∧ spec.minAssuranceBps ≤ record.assurance

instance (spec : CompletionPolicySpec) (s : CompletionSnapshot) (r : Requirement)
    (record : CompletionEvidence) : Decidable (Qualifies spec s r record) :=
  inferInstanceAs (Decidable (_ ∧ _ ∧ _))

/-- The record comes first, by identifier, of the positive records of its issuer. -/
def Leads (s : CompletionSnapshot) (r : Requirement) (record : CompletionEvidence) : Prop :=
  ∀ other ∈ s.evidence, r.issuer other = r.issuer record → record.rank ≤ other.rank

instance (s : CompletionSnapshot) (r : Requirement) (record : CompletionEvidence) :
    Decidable (Leads s r record) :=
  inferInstanceAs (Decidable (∀ other ∈ s.evidence, _ → _))

/-- The issuers with a qualifying record. -/
def qualifyingIssuers (spec : CompletionPolicySpec) (s : CompletionSnapshot) (r : Requirement) :
    Finset Issuer :=
  ((s.evidence.filter fun record => Qualifies spec s r record).filterMap r.issuer).toFinset

/-- The issuers whose first positive record qualifies. -/
def leadingIssuers (spec : CompletionPolicySpec) (s : CompletionSnapshot) (r : Requirement) :
    Finset Issuer :=
  ((s.evidence.filter fun record => Qualifies spec s r record ∧ Leads s r record).filterMap
    r.issuer).toFinset

/-- Every requirement is reached by issuers with a qualifying record. -/
def Sufficient (spec : CompletionPolicySpec) (s : CompletionSnapshot) : Prop :=
  ∀ r : Requirement, r.required spec ≤ (qualifyingIssuers spec s r).card

/-- Every requirement is reached by issuers whose first positive record qualifies. -/
def Led (spec : CompletionPolicySpec) (s : CompletionSnapshot) : Prop :=
  ∀ r : Requirement, r.required spec ≤ (leadingIssuers spec s r).card

instance (spec : CompletionPolicySpec) (s : CompletionSnapshot) : Decidable (Sufficient spec s) :=
  Fintype.decidableForallFintype

instance (spec : CompletionPolicySpec) (s : CompletionSnapshot) : Decidable (Led spec s) :=
  Fintype.decidableForallFintype

theorem Led.sufficient {spec : CompletionPolicySpec} {s : CompletionSnapshot} (h : Led spec s) :
    Sufficient spec s := by
  intro r
  refine (h r).trans (Finset.card_le_card fun issuer hissuer => ?_)
  simp only [leadingIssuers, qualifyingIssuers, List.mem_toFinset, List.mem_filterMap,
    List.mem_filter, decide_eq_true_eq] at hissuer ⊢
  obtain ⟨record, ⟨hmem, hqualifies, -⟩, hissuer⟩ := hissuer
  exact ⟨record, ⟨hmem, hqualifies⟩, hissuer⟩

end Counts

/-! ## Renaming and adding records -/

namespace CompletionEvidence

/-- The record under another identifier. -/
def withId (id : String) : CompletionEvidence → CompletionEvidence
  | review claim approved bps => review { claim with id } approved bps
  | test claim passed bps => test { claim with id } passed bps
  | attestation _ subjectDigest a bps => attestation id subjectDigest a bps
  | contradiction claim blocking => contradiction { claim with id } blocking
  | ratification receipt => ratification receipt

variable (record : CompletionEvidence) (id : String)

theorem withId_id : record.withId (record.id.getD "") = record := by cases record <;> rfl

theorem clearance_withId : (record.withId id).clearance = record.clearance := by
  rcases record with ⟨_, _ | _, _⟩ | ⟨_, _ | _, _⟩ | _ | ⟨_, _ | _⟩ | _ <;> rfl

theorem objection_withId : (record.withId id).objection = record.objection := by
  rcases record with ⟨_, _ | _, _⟩ | ⟨_, _ | _, _⟩ | _ | ⟨_, _ | _⟩ | _ <;> rfl

theorem ratification?_withId : (record.withId id).ratification? = record.ratification? := by
  cases record <;> rfl

end CompletionEvidence

namespace CompletionSnapshot

/-- The snapshot with its records under other identifiers. -/
def renamed (s : CompletionSnapshot) (name : CompletionEvidence → String) : CompletionSnapshot :=
  { s with evidence := s.evidence.map fun record => record.withId (name record) }

/-- The snapshot with a further record. -/
def added (s : CompletionSnapshot) (record : CompletionEvidence) : CompletionSnapshot :=
  { s with evidence := record :: s.evidence }

/-- Every record is kept, if under another identifier, and what is new is positive. -/
structure Enriched (s s' : CompletionSnapshot) : Prop where
  artifacts : s'.artifacts = s.artifacts
  ratifications : s'.ratifications = s.ratifications
  kept : ∀ record ∈ s.evidence, ∃ id, record.withId id ∈ s'.evidence
  positive : (∀ record ∈ s.evidence, record.objection = none) →
    ∀ record ∈ s'.evidence, record.objection = none

theorem enriched_renamed (s : CompletionSnapshot) (name : CompletionEvidence → String) :
    s.Enriched (s.renamed name) where
  artifacts := rfl
  ratifications := by
    rw [ratifications, renamed, List.filterMap_map, ratifications]
    congr 1
    ext1 record
    exact record.ratification?_withId _
  kept record hrecord := ⟨name record, List.mem_map.mpr ⟨record, hrecord, rfl⟩⟩
  positive h record' hrecord' := by
    obtain ⟨record, hrecord, rfl⟩ := List.mem_map.mp hrecord'
    rw [record.objection_withId]
    exact h record hrecord

theorem enriched_added (s : CompletionSnapshot) {record : CompletionEvidence}
    (hpositive : record.objection = none) (hrecord : record.isRatification = false) :
    s.Enriched (s.added record) where
  artifacts := rfl
  ratifications := by
    have hnone : record.ratification? = none := by
      cases record <;> first | rfl | cases hrecord
    rw [ratifications, added, List.filterMap_cons_none hnone, ratifications]
  kept other hother := by
    refine ⟨other.id.getD "", List.mem_cons_of_mem record ?_⟩
    rw [other.withId_id]
    exact hother
  positive h other hother := by
    rcases List.mem_cons.mp hother with rfl | hother
    · exact hpositive
    · exact h other hother

end CompletionSnapshot

/-- The monitors that cleared a contradiction. -/
def clearers (s : CompletionSnapshot) : Finset String :=
  (s.evidence.filterMap CompletionEvidence.clearance).toFinset

theorem checked_reviews {spec spec' : CompletionPolicySpec} (h : spec.checked = .ok spec') :
    spec'.requiredReviews ≠ 0 := by
  simp only [CompletionPolicySpec.checked, bind_eq_ok, require_eq_ok, Except.ok.injEq] at h
  obtain ⟨_, -, _, -, _, hrequired, _, -, _, -, _, -, _, -, _, -, _, -, _, -, _, -, _, -, _, -, _, -,
    _, -, _, -, rfl⟩ := h
  exact fun hzero => hrequired (.inl hzero)

/-! ## Counting in an admissible snapshot -/

section Admissible

variable {r : Requirement} {record : CompletionEvidence}

/-- A listed authority has exactly the two texts of the attestation. -/
theorem lists_iff {authorities : List TrustedAuthority} {a : ClosedAttestation} :
    CompletionPolicySpec.lists authorities a = true ↔ ⟨a.nodeId, a.publicKey⟩ ∈ authorities := by
  simp only [CompletionPolicySpec.lists, List.any_eq_true, Bool.and_eq_true, beq_iff_eq]
  constructor
  · rintro ⟨authority, hmem, hnode, hkey⟩
    rw [← hnode, ← hkey]
    exact hmem
  · intro hmem
    exact ⟨_, hmem, rfl, rfl⟩

theorem isRatification_of_issuer {issuer : Issuer} (h : r.issuer record = some issuer) :
    record.isRatification = false := by
  cases record with
  | ratification receipt => cases r <;> cases h
  | _ => rfl

variable [ContentDigest]

theorem validateClaimedEvidence_issuer {kind : String} {claim : ClaimedEvidence}
    {allowed : List String} {u : Unit}
    (h : validateClaimedEvidence kind claim allowed = .ok u) : claim.issuer ∈ allowed := by
  simp only [validateClaimedEvidence, bind_eq_ok, require_eq_ok] at h
  obtain ⟨_, _, _, hmem, _⟩ := h
  exact hmem

variable [SignatureScheme] {policy : VersionedCompletionPolicy} {s s' : CompletionSnapshot}

/-- The issuer of a valid positive record is one the policy lists. -/
theorem CompletionEvidence.Valid.authorised {spec : CompletionPolicySpec} {subject : String}
    (h : record.Valid spec subject) {issuer : Issuer} (hissuer : r.issuer record = some issuer) :
    r.authorises spec issuer = true := by
  have hevidence := h.evidence
  cases record with
  | review claim approved bps =>
    cases r <;> cases approved <;> cases hissuer
    simpa [Requirement.authorises] using validateClaimedEvidence_issuer hevidence
  | test claim passed bps =>
    cases r <;> cases passed <;> cases hissuer
    simpa [Requirement.authorises] using validateClaimedEvidence_issuer hevidence
  | attestation id subject a bps =>
    cases r <;> cases hissuer
    simp only [validateEvidenceRecord, bind_eq_ok, require_eq_ok] at hevidence
    obtain ⟨_, _, _, _, _, _, hlisted⟩ := hevidence
    simpa [Requirement.authorises] using lists_iff.mp hlisted
  | contradiction claim blocking => cases r <;> cases hissuer
  | ratification receipt => cases r <;> cases hissuer

namespace Admissible

/-- In an admissible snapshot a positive record qualifies if its assurance is high enough. -/
theorem qualifies_iff (hs : Admissible policy s) (hrecord : record ∈ s.evidence) :
    Qualifies policy.spec s r record ↔
      (r.issuer record).isSome = true ∧ policy.spec.minAssuranceBps ≤ record.assurance := by
  constructor
  · rintro ⟨⟨issuer, hissuer, -⟩, -, hassurance⟩
    rw [Option.mem_def.mp hissuer]
    exact ⟨rfl, hassurance⟩
  · rintro ⟨hissuer, hassurance⟩
    obtain ⟨issuer, hissuer⟩ := Option.isSome_iff_exists.mp hissuer
    have hvalid := hs.records_valid record
      (CompletionSnapshot.mem_records.mpr ⟨hrecord, isRatification_of_issuer hissuer⟩)
    exact ⟨⟨issuer, hissuer, hvalid.authorised hissuer⟩, hvalid.about, hassurance⟩

/-- The records of an admissible snapshot rise strictly. -/
theorem records_pairwise (hs : Admissible policy s) :
    s.records.Pairwise fun a b => a.rank < b.rank := by
  have hrise : s.records.Pairwise fun a b => a.rank ≤ b.rank := sortOn_pairwise _ _
  have hdiffer : s.records.Pairwise fun a b => a.id ≠ b.id := List.pairwise_map.mp hs.ids_nodup
  exact (hrise.and hdiffer).imp fun h => lt_of_le_of_ne h.1 h.2

/-- The records a requirement counts are those that come first and qualify. -/
theorem qualifying_eq (hs : Admissible policy s) (r : Requirement) :
    qualifying policy.spec (r.values (Tally.of s.records)) =
      (leadingIssuers policy.spec s r).card := by
  have hmem : ∀ record, record ∈ firsts r.issuer (r.positives s.records) ↔
      record ∈ s.evidence ∧ (r.issuer record).isSome = true ∧ Leads s r record := by
    intro record
    have hsorted : (r.positives s.records).Pairwise fun a b => a.rank < b.rank :=
      hs.records_pairwise.filter _
    rw [mem_firsts_iff hsorted, Requirement.positives, List.mem_filter,
      CompletionSnapshot.mem_records]
    constructor
    · rintro ⟨⟨⟨hrecord, -⟩, hissuer⟩, hleast⟩
      refine ⟨hrecord, hissuer, fun other hother hsame => hleast other ?_ hsame⟩
      rw [← hsame] at hissuer
      obtain ⟨issuer, heq⟩ := Option.isSome_iff_exists.mp hissuer
      rw [List.mem_filter, CompletionSnapshot.mem_records]
      exact ⟨⟨hother, isRatification_of_issuer heq⟩, hissuer⟩
    · rintro ⟨hrecord, hissuer, hleast⟩
      obtain ⟨issuer, heq⟩ := Option.isSome_iff_exists.mp hissuer
      refine ⟨⟨⟨hrecord, isRatification_of_issuer heq⟩, hissuer⟩, fun other hother => ?_⟩
      rw [List.mem_filter, CompletionSnapshot.mem_records] at hother
      exact hleast other hother.1.1
  have hsome : ((r.counted policy.spec s.records).map r.issuer).toFinset =
      (leadingIssuers policy.spec s r).image some := by
    ext issuer
    simp only [Requirement.counted, leadingIssuers, List.mem_toFinset, List.mem_map, List.mem_filter,
      hmem, decide_eq_true_eq, Finset.mem_image, List.mem_filterMap]
    constructor
    · rintro ⟨record, ⟨⟨hrecord, hissuer, hleads⟩, hassurance⟩, rfl⟩
      obtain ⟨issuer, heq⟩ := Option.isSome_iff_exists.mp hissuer
      exact ⟨issuer, ⟨record, ⟨hrecord, (hs.qualifies_iff hrecord).mpr ⟨hissuer, hassurance⟩, hleads⟩,
        heq⟩, heq.symm⟩
    · rintro ⟨issuer, ⟨record, ⟨hrecord, hqualifies, hleads⟩, heq⟩, rfl⟩
      obtain ⟨hissuer, hassurance⟩ := (hs.qualifies_iff hrecord).mp hqualifies
      exact ⟨record, ⟨⟨hrecord, hissuer, hleads⟩, hassurance⟩, heq⟩
  rw [Tally.qualifying_values, Requirement.counted, length_filter_firsts, ← Requirement.counted,
    hsome, Finset.card_image_of_injective _ (Option.some_injective _)]

/-- A requirement stands against completion if too few leading records qualify. -/
theorem reason_mem_iff (hs : Admissible policy s) (r : Requirement) :
    r.reason ∈ (Tally.of s.records).blockReasons policy.spec ↔
      (leadingIssuers policy.spec s r).card < r.required policy.spec := by
  have hall : r.reason ∈ PolicyBlockReason.all := by cases r <;> decide
  have hobjects : (Tally.of s.records).objects policy.spec r.reason = true ↔
      qualifying policy.spec (r.values (Tally.of s.records)) < r.required policy.spec := by
    cases r <;> simp [Tally.objects, Requirement.reason, Requirement.values, Requirement.required,
      qualifying_descending]
  rw [Tally.blockReasons, List.mem_filter, hobjects, hs.qualifying_eq]
  exact and_iff_right hall

end Admissible

/-! ## Evaluating an admissible snapshot -/

theorem Admissible.blockReasons_eq_nil (hs : Admissible policy s) :
    (Tally.of s.records).blockReasons policy.spec = [] ↔ Led policy.spec s ∧
      (∀ record ∈ s.evidence, record.objection = none) ∧
      policy.spec.requiredContradictionClearances ≤ (clearers s).card := by
  have hclearers : (s.records.filterMap CompletionEvidence.clearance).toFinset = clearers s := by
    ext issuer
    simp only [clearers, List.mem_toFinset, List.mem_filterMap, CompletionSnapshot.mem_records]
    constructor
    · rintro ⟨record, ⟨hrecord, -⟩, hclear⟩
      exact ⟨record, hrecord, hclear⟩
    · rintro ⟨record, hrecord, hclear⟩
      refine ⟨record, ⟨hrecord, ?_⟩, hclear⟩
      cases record <;> first | rfl | cases hclear
  have hobjections : ∀ reason, reason ∈ (Tally.of s.records).reasons ↔
      ∃ record ∈ s.evidence, record.objection = some reason := by
    intro reason
    simp only [Tally.mem_reasons_of, CompletionSnapshot.mem_records]
    constructor
    · rintro ⟨record, ⟨hrecord, -⟩, hobjection⟩
      exact ⟨record, hrecord, hobjection⟩
    · rintro ⟨record, hrecord, hobjection⟩
      refine ⟨record, ⟨hrecord, ?_⟩, hobjection⟩
      cases record <;> first | rfl | cases hobjection
  rw [Tally.blockReasons, List.filter_eq_nil_iff]
  constructor
  · intro hnone
    refine ⟨fun r => ?_, fun record hrecord => ?_, ?_⟩
    · by_contra hlack
      have hmem := (hs.reason_mem_iff r).mpr (not_le.mp hlack)
      rw [Tally.blockReasons, List.mem_filter] at hmem
      exact hnone _ hmem.1 hmem.2
    · cases hobjection : record.objection with
      | none => rfl
      | some reason =>
        have hmem := (hobjections reason).mpr ⟨record, hrecord, hobjection⟩
        refine absurd ?_ (hnone reason (by cases reason <;> decide))
        cases record with
        | review _ approved _ => cases approved <;> cases hobjection; simpa [Tally.objects] using hmem
        | test _ passed _ => cases passed <;> cases hobjection; simpa [Tally.objects] using hmem
        | attestation _ _ _ _ => cases hobjection
        | contradiction _ blocking =>
          cases blocking <;> cases hobjection; simpa [Tally.objects] using hmem
        | ratification _ => cases hobjection
    · have hclear := hnone .insufficientContradictionClearances (by decide)
      simpa [Tally.objects, Tally.length_clearances_of, hclearers] using hclear
  · rintro ⟨hled, hpositive, hclear⟩ reason - hobjects
    have hqualifying : ∀ r : Requirement, r.required policy.spec ≤
        qualifying policy.spec (r.values (Tally.of s.records)) := by
      intro r
      rw [hs.qualifying_eq]
      exact hled r
    have hnegative : ∀ reason, reason ∉ (Tally.of s.records).reasons := by
      intro reason hmem
      obtain ⟨record, hrecord, hobjection⟩ := (hobjections reason).mp hmem
      rw [hpositive record hrecord] at hobjection
      cases hobjection
    have hreviews := hqualifying .reviews
    have htests := hqualifying .tests
    have hattestations := hqualifying .attestations
    simp only [Requirement.values, Requirement.required] at hreviews htests hattestations
    cases reason with
    | insufficientReviews =>
      simp only [Tally.objects, qualifying_descending, decide_eq_true_eq] at hobjects
      omega
    | insufficientTests =>
      simp only [Tally.objects, qualifying_descending, decide_eq_true_eq] at hobjects
      omega
    | insufficientAttestations =>
      simp only [Tally.objects, qualifying_descending, decide_eq_true_eq] at hobjects
      omega
    | insufficientContradictionClearances =>
      simp only [Tally.objects, Tally.length_clearances_of, hclearers, decide_eq_true_eq] at hobjects
      omega
    | insufficientAssurance =>
      obtain ⟨submitted, hchecked⟩ := policy.checked
      have hassurance := le_assurance (checked_reviews hchecked) hqualifying
      simp only [Tally.objects, decide_eq_true_eq] at hobjects
      omega
    | _ => exact hnegative _ (by simpa [Tally.objects] using hobjects)

/-! ## Decisions -/

variable [ReceiptMac]

namespace VersionedCompletionPolicy

/-- The evaluation ends in a block. -/
def Blocks (policy : VersionedCompletionPolicy) (s : CompletionSnapshot) : Prop :=
  ∃ block, policy.evaluate s = .ok (.blocked block)

/-- The evaluation is blocked for the lack of reviews, tests or attestations. -/
def Lacks (policy : VersionedCompletionPolicy) (s : CompletionSnapshot) : Prop :=
  ∃ block, policy.evaluate s = .ok (.blocked block) ∧ ∃ r : Requirement, r.reason ∈ block.reasons

/-- The evaluation ends in a decision other than a block. -/
def Passes (policy : VersionedCompletionPolicy) (s : CompletionSnapshot) : Prop :=
  ∃ decision, policy.evaluate s = .ok decision ∧ ∀ block, decision ≠ .blocked block

end VersionedCompletionPolicy

theorem evaluate_eq_ok {decision : PolicyDecision} : policy.evaluate s = .ok decision ↔
    Admissible policy s ∧ policy.conclude (policy.assessmentOf s) = .ok decision := by
  simp only [VersionedCompletionPolicy.evaluate, bind_eq_ok, assess_eq_ok]
  constructor
  · rintro ⟨_, ⟨hs, rfl⟩, hconclude⟩
    exact ⟨hs, hconclude⟩
  · rintro ⟨hs, hconclude⟩
    exact ⟨_, ⟨hs, rfl⟩, hconclude⟩

/-- A ratification is refused, rejects or leads to acceptance. -/
theorem ratify_eq_ok {checkpoint : PolicyCheckpoint} {ratification : RatificationReceipt}
    {decision : PolicyDecision} (h : policy.ratify checkpoint ratification = .ok decision) :
    ratification.statement = ⟨checkpoint.policyHash, checkpoint.evidenceSnapshotHash,
        checkpoint.artifactSetDigest, ratification.statement.approved⟩ ∧
      CompletionPolicySpec.lists policy.spec.ratificationAuthorities ratification.authority = true ∧
      ratification.authority.verify ratification.statement.digest = true ∧
      decision = if ratification.statement.approved then
          .accepted (receiptFromCheckpoint checkpoint
            (some (canonicalDigest "ratification-receipt" ratification.toJson)) policy.receiptKey)
        else .blocked ⟨checkpoint, [.humanRejected]⟩ := by
  simp only [VersionedCompletionPolicy.ratify, bind_eq_ok, require_eq_ok, exists_const] at h
  obtain ⟨hstatement, hlisted, hverified, hdecision⟩ := h
  refine ⟨hstatement, hlisted, hverified, ?_⟩
  split at hdecision <;> rename_i happroved
  · rw [if_pos happroved]
    exact (Except.ok.inj hdecision).symm
  · rw [if_neg happroved]
    exact (Except.ok.inj hdecision).symm

/-- Every way an assessment is decided. -/
theorem conclude_eq_ok {a : Assessment} {decision : PolicyDecision}
    (h : policy.conclude a = .ok decision) :
    (a.reasons ≠ [] ∧ decision = .blocked ⟨a.checkpoint, a.reasons⟩) ∨
    (a.reasons = [] ∧ policy.spec.requireHumanRatification = false ∧ a.ratifications = [] ∧
      decision = .accepted (receiptFromCheckpoint a.checkpoint none policy.receiptKey)) ∨
    (a.reasons = [] ∧ policy.spec.requireHumanRatification = true ∧ a.ratifications = [] ∧
      decision = .awaitingRatification a.checkpoint) ∨
    (a.reasons = [] ∧ policy.spec.requireHumanRatification = true ∧
      ∃ ratification rest, a.ratifications = ratification :: rest ∧
        policy.ratify a.checkpoint ratification = .ok decision) := by
  rw [VersionedCompletionPolicy.conclude] at h
  split at h
  case isTrue hreasons => exact .inl ⟨hreasons, (Except.ok.inj h).symm⟩
  case isFalse hreasons =>
    have hnone : a.reasons = [] := not_not.mp hreasons
    split at h
    case isTrue hhuman =>
      simp only [bind_eq_ok, require_eq_ok, exists_const, Except.ok.injEq] at h
      exact .inr (.inl ⟨hnone, by simpa using hhuman, h.1, h.2.symm⟩)
    case isFalse hhuman =>
      have hrequired : policy.spec.requireHumanRatification = true := by simpa using hhuman
      cases hratifications : a.ratifications with
      | nil =>
        rw [hratifications] at h
        exact .inr (.inr (.inl ⟨hnone, hrequired, rfl, (Except.ok.inj h).symm⟩))
      | cons ratification rest =>
        rw [hratifications] at h
        exact .inr (.inr (.inr ⟨hnone, hrequired, ratification, rest, rfl, h⟩))

theorem evaluate_of_reasons (hs : Admissible policy s)
    (h : (Tally.of s.records).blockReasons policy.spec ≠ []) : policy.evaluate s =
      .ok (.blocked ⟨(policy.assessmentOf s).checkpoint, (Tally.of s.records).blockReasons policy.spec⟩) := by
  refine evaluate_eq_ok.mpr ⟨hs, ?_⟩
  rw [VersionedCompletionPolicy.conclude]
  exact if_pos h

/-- An evaluation is blocked for lack of evidence if too few leading records qualify. -/
theorem Admissible.lacks_iff (hs : Admissible policy s) : policy.Lacks s ↔ ¬ Led policy.spec s := by
  constructor
  · rintro ⟨block, hblock, r, hreason⟩ hled
    obtain ⟨-, hconclude⟩ := evaluate_eq_ok.mp hblock
    rcases conclude_eq_ok hconclude with ⟨-, heq⟩ | ⟨-, -, -, heq⟩ | ⟨-, -, -, heq⟩ |
      ⟨-, -, ratification, rest, -, hratify⟩
    · cases heq
      have hlack := (hs.reason_mem_iff r).mp hreason
      exact absurd (hled r) (not_le.mpr hlack)
    · cases heq
    · cases heq
    · -- a rejection by a human is no lack
      obtain ⟨-, -, -, hdecision⟩ := ratify_eq_ok hratify
      split at hdecision
      · cases hdecision
      · cases hdecision
        cases r <;> simp [Requirement.reason] at hreason
  · intro hled
    obtain ⟨r, hlack⟩ := not_forall.mp hled
    have hmem := (hs.reason_mem_iff r).mpr (not_le.mp hlack)
    exact ⟨_, evaluate_of_reasons hs (List.ne_nil_of_mem hmem), r, hmem⟩

/-! ## More evidence -/

omit [ContentDigest] [SignatureScheme] [ReceiptMac] in
theorem clearers_enriched (he : s.Enriched s') : clearers s ⊆ clearers s' := by
  intro issuer hissuer
  simp only [clearers, List.mem_toFinset, List.mem_filterMap] at hissuer ⊢
  obtain ⟨record, hrecord, hclear⟩ := hissuer
  obtain ⟨id, hkept⟩ := he.kept record hrecord
  refine ⟨record.withId id, hkept, ?_⟩
  rw [CompletionEvidence.clearance_withId]
  exact hclear

/-- What an evaluation that passes has found. -/
theorem VersionedCompletionPolicy.Passes.led (h : policy.Passes s) :
    Admissible policy s ∧ Led policy.spec s ∧ (∀ record ∈ s.evidence, record.objection = none) ∧
      policy.spec.requiredContradictionClearances ≤ (clearers s).card ∧
      (policy.spec.requireHumanRatification = true →
        ∀ ratification rest, s.ratifications = ratification :: rest →
          ratification.statement.approved = true) := by
  obtain ⟨decision, hdecision, hnot⟩ := h
  obtain ⟨hs, hconclude⟩ := evaluate_eq_ok.mp hdecision
  have hcases := conclude_eq_ok hconclude
  have hreasons : (Tally.of s.records).blockReasons policy.spec = [] := by
    rcases hcases with ⟨-, heq⟩ | ⟨hnone, -⟩ | ⟨hnone, -⟩ | ⟨hnone, -⟩
    · exact absurd heq (hnot _)
    all_goals exact hnone
  obtain ⟨hled, hpositive, hclear⟩ := hs.blockReasons_eq_nil.mp hreasons
  refine ⟨hs, hled, hpositive, hclear, fun hhuman ratification rest hratifications => ?_⟩
  have hassessed : (policy.assessmentOf s).ratifications = ratification :: rest := hratifications
  rcases hcases with ⟨-, heq⟩ | ⟨-, hnone, -⟩ | ⟨-, -, hnone, -⟩ | ⟨-, -, other, others, hsome, hratify⟩
  · exact absurd heq (hnot _)
  · rw [hhuman] at hnone
    cases hnone
  · rw [hassessed] at hnone
    cases hnone
  · rw [hassessed] at hsome
    cases hsome
    obtain ⟨-, -, -, hresult⟩ := ratify_eq_ok hratify
    by_contra happroved
    rw [if_neg happroved] at hresult
    exact hnot _ hresult

/-- Evidence that passed is blocked after a renaming or with more positive records exactly if the
records that come first no longer meet the requirements. -/
theorem blocks_enriched_iff (h : policy.Passes s) (he : s.Enriched s') :
    policy.Blocks s' ↔ Admissible policy s' ∧ ¬ Led policy.spec s' := by
  obtain ⟨-, -, hpositive, hclear, happroved⟩ := h.led
  constructor
  · rintro ⟨block, hblock⟩
    obtain ⟨hs', hconclude⟩ := evaluate_eq_ok.mp hblock
    refine ⟨hs', fun hled => ?_⟩
    have hreasons : (Tally.of s'.records).blockReasons policy.spec = [] :=
      hs'.blockReasons_eq_nil.mpr ⟨hled, he.positive hpositive,
        hclear.trans (Finset.card_le_card (clearers_enriched he))⟩
    rcases conclude_eq_ok hconclude with ⟨hsome, -⟩ | ⟨-, -, -, heq⟩ | ⟨-, -, -, heq⟩ |
      ⟨-, hhuman, ratification, rest, hratifications, hratify⟩
    · exact hsome hreasons
    · cases heq
    · cases heq
    · obtain ⟨-, -, -, hresult⟩ := ratify_eq_ok hratify
      have hsame : s.ratifications = ratification :: rest := he.ratifications.symm.trans hratifications
      rw [if_pos (happroved hhuman ratification rest hsame)] at hresult
      cases hresult
  · rintro ⟨hs', hled⟩
    obtain ⟨block, hblock, -⟩ := hs'.lacks_iff.mpr hled
    exact ⟨block, hblock⟩

/-- The law of sufficient evidence, and what becomes of evidence that passed when its records are
renamed or a positive record is added, hold exactly if the records that come first of their issuers
meet the requirements. -/
theorem sufficient_iff_of_admissible (hs : Admissible policy s) :
    ((¬ policy.Lacks s ↔ Sufficient policy.spec s) ↔
      (Sufficient policy.spec s → Led policy.spec s)) ∧
    (policy.Passes s → ∀ name : CompletionEvidence → String,
      (¬ policy.Blocks (s.renamed name) ↔
        (Admissible policy (s.renamed name) → Led policy.spec (s.renamed name)))) ∧
    (policy.Passes s → ∀ record : CompletionEvidence, record.objection = none →
      record.isRatification = false → (¬ policy.Blocks (s.added record) ↔
        (Admissible policy (s.added record) → Led policy.spec (s.added record)))) := by
  refine ⟨?_, fun hpasses name => ?_, fun hpasses record hpositive hrecord => ?_⟩
  · rw [hs.lacks_iff, not_not]
    exact ⟨fun h hsufficient => h.mpr hsufficient, fun h => ⟨Led.sufficient, h⟩⟩
  · rw [blocks_enriched_iff hpasses (s.enriched_renamed name), not_and, not_not]
  · rw [blocks_enriched_iff hpasses (s.enriched_added hpositive hrecord), not_and, not_not]

end Admissible

/-! ## An issuer with two reviews -/

section Sample

attribute [local instance] checksumDigest sampleMac sampleSignatures

theorem admissible_of_isOk {policy : VersionedCompletionPolicy} {s : CompletionSnapshot}
    (h : (policy.assess s).isOk = true) : Admissible policy s := by
  cases hassess : policy.assess s with
  | error error =>
    rw [hassess] at h
    cases h
  | ok a => exact (assess_eq_ok.mp hassess).1

theorem sample_accepted : ∃ receipt,
    (developmentPolicy [1]).evaluate (sampleSnapshot [sampleReview "b" 4 9000]) =
      .ok (.accepted receipt) := by
  have haccepted : ((developmentPolicy [1]).evaluate (sampleSnapshot [sampleReview "b" 4 9000])
      ).toOption.any PolicyDecision.isAccepted = true := by decide +kernel
  generalize (developmentPolicy [1]).evaluate (sampleSnapshot [sampleReview "b" 4 9000]) = result
    at haccepted
  match result, haccepted with
  | .ok (.accepted receipt), _ => exact ⟨receipt, rfl⟩

theorem sample_passes :
    (developmentPolicy [1]).Passes (sampleSnapshot [sampleReview "b" 4 9000]) := by
  obtain ⟨receipt, hreceipt⟩ := sample_accepted
  refine ⟨_, hreceipt, ?_⟩
  rintro block ⟨⟩

theorem sample_sufficient_iff :
    ((¬ (developmentPolicy [1]).Lacks (sampleSnapshot [sampleReview "b" 4 9000]) ↔
        Sufficient .development (sampleSnapshot [sampleReview "b" 4 9000])) ↔
      (Sufficient .development (sampleSnapshot [sampleReview "b" 4 9000]) →
        Led .development (sampleSnapshot [sampleReview "b" 4 9000]))) ∧
    (developmentPolicy [1]).Passes (sampleSnapshot [sampleReview "b" 4 9000]) :=
  ⟨(sufficient_iff_of_admissible sample_passes.led.1).1, sample_passes⟩

/-- A review of low assurance that sorts first hides the qualifying review of the same issuer:
what passed is blocked when it is added. -/
theorem added_review_blocks :
    (developmentPolicy [1]).Passes (sampleSnapshot [sampleReview "b" 4 9000]) ∧
    Sufficient .development ((sampleSnapshot [sampleReview "b" 4 9000]).added
      (sampleReview "a" 3 1000)) ∧
    (developmentPolicy [1]).Lacks ((sampleSnapshot [sampleReview "b" 4 9000]).added
      (sampleReview "a" 3 1000)) := by
  refine ⟨sample_passes, by decide +kernel, ?_⟩
  have hadmissible : Admissible (developmentPolicy [1])
      ((sampleSnapshot [sampleReview "b" 4 9000]).added (sampleReview "a" 3 1000)) :=
    admissible_of_isOk (by decide +kernel)
  apply hadmissible.lacks_iff.mpr
  show ¬ Led .development _
  decide +kernel

end Sample

end SmeshDurable.Policy
