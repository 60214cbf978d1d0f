import SmeshDurable.Policy.Assess

/-!
# Counting issuers

What the tally of sorted records holds: of each issuer the positive record with the least
identifier, whatever its assurance. A requirement is met when enough of these records reach the
assurance the policy asks for.
-/

namespace SmeshDurable.Policy

open Ranked Transaction

/-! ## Requirements -/

/-- The kinds of evidence a policy asks for in numbers, with an assurance. -/
inductive Requirement where
  | reviews
  | tests
  | attestations
deriving DecidableEq, Repr

instance : Fintype Requirement where
  elems := {.reviews, .tests, .attestations}
  complete r := by cases r <;> decide

/-- Who issued a record: a configured label, or a node with its key. -/
inductive Issuer where
  | label (name : String)
  | node (nodeId publicKey : String)
deriving DecidableEq, Repr

namespace Requirement

/-- The issuer of a positive record of the kind. -/
def issuer : Requirement → CompletionEvidence → Option Issuer
  | reviews, .review claim true _ => some (.label claim.issuer)
  | tests, .test claim true _ => some (.label claim.issuer)
  | attestations, .attestation _ _ a _ => some (.node a.nodeId a.publicKey)
  | _, _ => none

/-- The number the policy asks for. -/
def required (spec : CompletionPolicySpec) : Requirement → Nat
  | reviews => spec.requiredReviews
  | tests => spec.requiredTests
  | attestations => spec.requiredAttestations

def reason : Requirement → PolicyBlockReason
  | reviews => .insufficientReviews
  | tests => .insufficientTests
  | attestations => .insufficientAttestations

/-- The issuers the policy lists for the kind. -/
def authorises (spec : CompletionPolicySpec) : Requirement → Issuer → Bool
  | reviews, .label name => spec.reviewIssuers.contains name
  | tests, .label name => spec.testIssuers.contains name
  | attestations, .node nodeId publicKey => spec.attestationAuthorities.contains ⟨nodeId, publicKey⟩
  | _, _ => false

/-- The assurances a tally holds. -/
def values (t : Tally) : Requirement → List Nat
  | reviews => t.reviews
  | tests => t.tests
  | attestations => t.attestations

/-- The issuers a tally has met. -/
def met (t : Tally) : Requirement → List (Option Issuer)
  | reviews => t.distinctReviewers.map fun name => some (.label name)
  | tests => t.distinctTesters.map fun name => some (.label name)
  | attestations => t.distinctAttesters.map fun pair => some (.node pair.1 pair.2)

/-- The positive records of the kind. -/
def positives (r : Requirement) (records : List CompletionEvidence) : List CompletionEvidence :=
  records.filter fun record => (r.issuer record).isSome

end Requirement

namespace CompletionEvidence

/-- The reason a negative record gives against completion. -/
def objection : CompletionEvidence → Option PolicyBlockReason
  | review _ false _ => some .failedReview
  | test _ false _ => some .failedTest
  | contradiction _ true => some .blockingContradiction
  | _ => none

/-- The monitor that clears a contradiction. -/
def clearance : CompletionEvidence → Option String
  | contradiction claim false => some claim.issuer
  | _ => none

/-- The assurance, zero for a record without one. -/
def assurance (record : CompletionEvidence) : Nat := record.assuranceBps.getD 0

end CompletionEvidence

/-- The first positive record of each issuer, where it has the assurance the policy asks for. -/
def Requirement.counted (spec : CompletionPolicySpec) (r : Requirement)
    (records : List CompletionEvidence) : List CompletionEvidence :=
  (firsts r.issuer (r.positives records)).filter fun record =>
    spec.minAssuranceBps ≤ record.assurance

theorem Requirement.counted_nodup (spec : CompletionPolicySpec) (r : Requirement)
    (records : List CompletionEvidence) : ((r.counted spec records).map r.issuer).Nodup :=
  (List.filter_sublist.map _).nodup nodup_map_firstsFrom

/-! ## What the tally holds -/

namespace Tally

variable {t : Tally} {records : List CompletionEvidence}

/-- A record counts for a requirement if its issuer is not yet met. -/
theorem values_add (t : Tally) (record : CompletionEvidence) (r : Requirement) :
    r.values (t.add record) = r.values t ++
        (firstsFrom r.issuer (r.met t) (r.positives [record])).map CompletionEvidence.assurance ∧
      r.met (t.add record) =
        ((firstsFrom r.issuer (r.met t) (r.positives [record])).map r.issuer).reverse ++ r.met t := by
  cases record with
  | review claim approved bps =>
    cases approved <;> by_cases hmet : claim.issuer ∈ t.distinctReviewers <;> cases r <;>
      simp [add, Requirement.values, Requirement.met, Requirement.positives, Requirement.issuer,
        firstsFrom, hmet, CompletionEvidence.assurance, CompletionEvidence.assuranceBps]
  | test claim passed bps =>
    cases passed <;> by_cases hmet : claim.issuer ∈ t.distinctTesters <;> cases r <;>
      simp [add, Requirement.values, Requirement.met, Requirement.positives, Requirement.issuer,
        firstsFrom, hmet, CompletionEvidence.assurance, CompletionEvidence.assuranceBps]
  | attestation id subject a bps =>
    by_cases hmet : (a.nodeId, a.publicKey) ∈ t.distinctAttesters <;> cases r <;>
      simp [add, Requirement.values, Requirement.met, Requirement.positives, Requirement.issuer,
        firstsFrom, hmet, CompletionEvidence.assurance, CompletionEvidence.assuranceBps]
  | contradiction claim blocking =>
    cases blocking <;> cases r <;>
      simp [add, Requirement.values, Requirement.met, Requirement.positives, Requirement.issuer,
        firstsFrom]
  | ratification receipt =>
    cases r <;>
      simp [add, Requirement.values, Requirement.met, Requirement.positives, Requirement.issuer,
        firstsFrom]

theorem values_foldl (r : Requirement) :
    r.values (records.foldl add t) = r.values t ++
      (firstsFrom r.issuer (r.met t) (r.positives records)).map CompletionEvidence.assurance := by
  induction records generalizing t with
  | nil => simp [Requirement.positives, firstsFrom]
  | cons record rest ih =>
    obtain ⟨hvalues, hmet⟩ := values_add t record r
    rw [List.foldl_cons, ih, hvalues, hmet, List.append_assoc]
    congr 1
    cases hpositive : (r.issuer record).isSome with
    | false => simp [Requirement.positives, hpositive, firstsFrom]
    | true =>
      by_cases hseen : r.issuer record ∈ r.met t <;>
        simp [Requirement.positives, hpositive, firstsFrom, hseen]

/-- The tally holds the first positive record of each issuer. -/
theorem values_of (r : Requirement) : r.values (Tally.of records) =
    (firsts r.issuer (r.positives records)).map CompletionEvidence.assurance := by
  have hempty : r.values empty = [] ∧ r.met empty = [] := by cases r <;> exact ⟨rfl, rfl⟩
  rw [Tally.of, values_foldl, hempty.1, hempty.2, List.nil_append, firsts]

/-- A negative record adds its reason, and a clearance its monitor. -/
theorem reasons_add (t : Tally) (record : CompletionEvidence) :
    (t.add record).reasons = record.objection.toList ++ t.reasons ∧
      (t.add record).contradictionClearances =
        record.clearance.elim t.contradictionClearances t.contradictionClearances.insert := by
  cases record with
  | review claim approved bps =>
    cases approved <;> by_cases hmet : claim.issuer ∈ t.distinctReviewers <;>
      simp [add, hmet, CompletionEvidence.objection, CompletionEvidence.clearance]
  | test claim passed bps =>
    cases passed <;> by_cases hmet : claim.issuer ∈ t.distinctTesters <;>
      simp [add, hmet, CompletionEvidence.objection, CompletionEvidence.clearance]
  | attestation id subject a bps =>
    by_cases hmet : (a.nodeId, a.publicKey) ∈ t.distinctAttesters <;>
      simp [add, hmet, CompletionEvidence.objection, CompletionEvidence.clearance]
  | contradiction claim blocking => cases blocking <;> exact ⟨rfl, rfl⟩
  | ratification receipt => exact ⟨rfl, rfl⟩

/-- What a requirement counts are the first positive records with enough assurance. -/
theorem qualifying_values (spec : CompletionPolicySpec) (r : Requirement) :
    qualifying spec (r.values (Tally.of records)) = (r.counted spec records).length := by
  rw [values_of, qualifying, List.filter_map, List.length_map]
  rfl

theorem mem_reasons_foldl {reason : PolicyBlockReason} : reason ∈ (records.foldl add t).reasons ↔
    reason ∈ t.reasons ∨ ∃ record ∈ records, record.objection = some reason := by
  induction records generalizing t with
  | nil => simp
  | cons record rest ih =>
    rw [List.foldl_cons, ih, (reasons_add t record).1]
    cases hobjection : record.objection <;> simp [hobjection, or_assoc, or_left_comm, eq_comm]

/-- The negative records are the reasons of the tally. -/
theorem mem_reasons_of {reason : PolicyBlockReason} : reason ∈ (Tally.of records).reasons ↔
    ∃ record ∈ records, record.objection = some reason := by
  rw [Tally.of, mem_reasons_foldl]
  simp [empty]

theorem clearances_foldl (hnodup : t.contradictionClearances.Nodup) :
    (records.foldl add t).contradictionClearances.Nodup ∧
      ∀ issuer, issuer ∈ (records.foldl add t).contradictionClearances ↔
        issuer ∈ t.contradictionClearances ∨
          ∃ record ∈ records, record.clearance = some issuer := by
  induction records generalizing t with
  | nil => simp [hnodup]
  | cons record rest ih =>
    have hadd := (reasons_add t record).2
    have hkept : (t.add record).contradictionClearances.Nodup := by
      rw [hadd]
      cases record.clearance with
      | none => exact hnodup
      | some issuer => exact hnodup.insert
    obtain ⟨hrest, hmem⟩ := ih hkept
    refine ⟨hrest, fun issuer => ?_⟩
    rw [List.foldl_cons, hmem, hadd]
    cases hclear : record.clearance with
    | none => simp [hclear]
    | some other => simp [hclear, or_assoc, eq_comm, or_left_comm]

/-- The clearances are counted by monitor. -/
theorem length_clearances_of : (Tally.of records).contradictionClearances.length =
    (records.filterMap CompletionEvidence.clearance).toFinset.card := by
  have hempty : empty.contradictionClearances.Nodup := List.nodup_nil
  obtain ⟨hnodup, hmem⟩ := clearances_foldl hempty
  rw [Tally.of, ← List.toFinset_card_of_nodup hnodup]
  congr 1
  ext issuer
  rw [List.mem_toFinset, List.mem_toFinset, hmem, List.mem_filterMap]
  simp [empty]

end Tally

/-! ## Assurance -/

theorem descending_pairwise (values : List Nat) : (descending values).Pairwise (· ≥ ·) :=
  List.pairwise_insertionSort _ values

theorem qualifying_descending (spec : CompletionPolicySpec) (values : List Nat) :
    qualifying spec (descending values) = qualifying spec values :=
  ((List.perm_insertionSort _ values).filter _).length_eq

/-- If enough values of a falling list reach a bound, its first ones do. -/
theorem le_of_mem_take {bound n : Nat} {values : List Nat} (hsorted : values.Pairwise (· ≥ ·))
    (h : n ≤ (values.filter (bound ≤ ·)).length) : ∀ value ∈ values.take n, bound ≤ value := by
  induction values generalizing n with
  | nil => simp
  | cons first rest ih =>
    obtain ⟨hfirst, hrest⟩ := List.pairwise_cons.mp hsorted
    cases n with
    | zero => simp
    | succ n =>
      by_cases hbound : bound ≤ first
      · rw [List.filter_cons_of_pos (by simpa using hbound), List.length_cons] at h
        rw [List.take_succ_cons]
        intro value hvalue
        rcases List.mem_cons.mp hvalue with rfl | hvalue
        · exact hbound
        · exact ih hrest (by omega) value hvalue
      · have hnone : (first :: rest).filter (bound ≤ ·) = [] := by
          rw [List.filter_eq_nil_iff]
          intro value hvalue
          rcases List.mem_cons.mp hvalue with rfl | hvalue
          · simpa using hbound
          · have := hfirst value hvalue
            simp only [decide_eq_true_eq]
            omega
        rw [hnone] at h
        simp at h

/-- If every requirement is met with qualifying records, so is the assurance. -/
theorem le_assurance {spec : CompletionPolicySpec} {t : Tally} (hreviews : spec.requiredReviews ≠ 0)
    (h : ∀ r : Requirement, r.required spec ≤ qualifying spec (r.values t)) :
    spec.minAssuranceBps ≤ t.assurance spec := by
  have htake : ∀ r : Requirement, ∀ value ∈ (descending (r.values t)).take (r.required spec),
      spec.minAssuranceBps ≤ value := by
    intro r
    apply le_of_mem_take (descending_pairwise _)
    exact (h r).trans_eq (qualifying_descending spec _).symm
  have hall : ∀ value ∈ (descending t.reviews).take spec.requiredReviews ++
      (descending t.tests).take spec.requiredTests ++
      (descending t.attestations).take spec.requiredAttestations, spec.minAssuranceBps ≤ value := by
    intro value hvalue
    rw [List.mem_append, List.mem_append] at hvalue
    rcases hvalue with (hvalue | hvalue) | hvalue
    · exact htake .reviews value hvalue
    · exact htake .tests value hvalue
    · exact htake .attestations value hvalue
  have hnonempty : (descending t.reviews).take spec.requiredReviews ≠ [] := by
    intro hnil
    have hcount : spec.requiredReviews ≤ t.reviews.length :=
      (h .reviews).trans (List.length_filter_le _ _)
    have hlength := congrArg List.length hnil
    rw [List.length_take, descending, List.length_insertionSort, List.length_nil] at hlength
    omega
  rw [Tally.assurance, selectedAssurance]
  cases hmin : ((descending t.reviews).take spec.requiredReviews ++
      (descending t.tests).take spec.requiredTests ++
      (descending t.attestations).take spec.requiredAttestations).min? with
  | none =>
    rw [List.min?_eq_none_iff] at hmin
    exact absurd (List.append_eq_nil_iff.mp (List.append_eq_nil_iff.mp hmin).1).1 hnonempty
  | some least => exact hall least (List.min?_mem hmin)

end SmeshDurable.Policy
