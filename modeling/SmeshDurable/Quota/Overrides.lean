import SmeshDurable.Quota.Policy

/-!
# Overrides resolve unambiguously

The checks of a document compare overrides of one limit pairwise by their half-open windows, and
a lookup asks for the limit and the instant. The two notions agree: an instant inside two windows
of one limit makes them overlap. So at most one override applies, and the order of the array does
not matter to the limit in force.
-/

namespace SmeshDurable.Quota

open Ranked Transaction TextLines

/-! ## What the checks leave -/

section Checked

variable {d : PolicyDocument}

theorem validatePair_eq_ok {p : LimitPair} {cap : Nat} (h : validatePair p cap = .ok ())
    (scope : QuotaScopeKind) : p.at scope ≠ 0 ∧ p.at scope ≤ cap := by
  rw [validatePair, require_eq_ok] at h
  cases scope <;> simp only [LimitPair.at] <;> omega

/-- The conditions of a document that later modules use. -/
structure PolicyDocument.Accepted (d : PolicyDocument) : Prop where
  windows : 1 ≤ d.requestWindowMillis ∧ 1 ≤ d.reconnectWindowMillis
  limits : ∀ dimension, validatePair (d.limits.pair dimension) (dimensionCap dimension) = .ok ()
  overrides : checkOverrides d [] d.overrides = .ok ()
  disjoint : overlapping d.overrides = false

theorem accepted_of_check (h : d.check = .ok ()) : d.Accepted := by
  simp only [PolicyDocument.check, bind_eq_ok, require_eq_ok] at h
  obtain ⟨_, ⟨-, -, -, hrequest, hreconnect⟩, _, h1, _, h2, _, h3, _, h4, _, h5, _, h6, _, h7, _, h8,
    _, h9, _, -, _, hoverrides, hdisjoint⟩ := h
  refine ⟨⟨hrequest.1, hreconnect.1⟩, ?_, hoverrides, by simpa using hdisjoint⟩
  intro dimension
  cases dimension <;> assumption

theorem limit_bounds (h : d.Accepted) (dimension : QuotaDimension) (scope : QuotaScopeKind) :
    d.limit dimension scope ≠ 0 ∧ d.limit dimension scope ≤ dimensionCap dimension :=
  validatePair_eq_ok (h.limits dimension) scope

theorem newLimit_bounds_of_checkOverrides {ids : List String} {os : List OverrideDocument}
    (h : checkOverrides d ids os = .ok ()) :
    ∀ o ∈ os, o.newLimit ≠ 0 ∧ o.newLimit ≤ dimensionCap o.dimension := by
  induction os generalizing ids with
  | nil => simp
  | cons o rest ih =>
    simp only [checkOverrides, bind_eq_ok, require_eq_ok] at h
    obtain ⟨-, hvalid, hrest⟩ := h
    intro other hother
    rcases List.mem_cons.mp hother with rfl | hmem
    · simp only [OverrideDocument.valid, Bool.and_eq_true, decide_eq_true_eq] at hvalid
      tauto
    · exact ih hrest other hmem

theorem pairwise_of_not_overlapping {os : List OverrideDocument} (h : overlapping os = false) :
    os.Pairwise fun left right => left.overlaps right = false := by
  induction os with
  | nil => exact .nil
  | cons left rest ih =>
    rw [overlapping, Bool.or_eq_false_iff] at h
    refine .cons ?_ (ih h.2)
    intro right hright
    exact Bool.eq_false_iff.mpr (List.any_eq_false.mp h.1 right hright)

end Checked

/-! ## At most one applies -/

section Lookup

variable {d : PolicyDocument} {baseline : Nat} {scopeKind : QuotaScopeKind} {scopeId : String}
  {operation : QuotaOperation} {dimension : QuotaDimension} {time later : Int}

/-- The overrides of a limit that are in force. -/
def PolicyDocument.applying (d : PolicyDocument) (scopeKind : QuotaScopeKind) (scopeId : String)
    (operation : QuotaOperation) (dimension : QuotaDimension) (time : Int) : List OverrideDocument :=
  d.overrides.filter
    (·.applies (d.limit dimension scopeKind) scopeKind scopeId operation dimension time)

theorem overlaps_of_applies {left right : OverrideDocument}
    (hleft : left.applies baseline scopeKind scopeId operation dimension time)
    (hright : right.applies baseline scopeKind scopeId operation dimension time) :
    left.overlaps right := by
  simp only [OverrideDocument.applies, OverrideDocument.overlaps, Bool.and_eq_true, beq_iff_eq,
    decide_eq_true_eq] at hleft hright ⊢
  obtain ⟨⟨⟨⟨⟨⟨rfl, rfl⟩, rfl⟩, rfl⟩, -⟩, hstart⟩, hend⟩ := hleft
  obtain ⟨⟨⟨⟨⟨⟨hkind, hid⟩, hoperation⟩, hdimension⟩, -⟩, hstart'⟩, hend'⟩ := hright
  refine ⟨⟨⟨⟨⟨hkind.symm, hid.symm⟩, hoperation.symm⟩, hdimension.symm⟩, ?_⟩, ?_⟩ <;> omega

/-- No two overrides of one limit are in force at once. -/
theorem length_applying_le_one (h : d.Accepted) :
    (d.applying scopeKind scopeId operation dimension time).length ≤ 1 := by
  have hpairwise : (d.applying scopeKind scopeId operation dimension time).Pairwise
      fun left right => left.overlaps right = false :=
    (pairwise_of_not_overlapping h.disjoint).filter _
  match happlying : d.applying scopeKind scopeId operation dimension time with
  | [] | [_] => simp
  | left :: right :: rest =>
    rw [happlying] at hpairwise
    have happlies : ∀ o ∈ left :: right :: rest,
        o.applies (d.limit dimension scopeKind) scopeKind scopeId operation dimension time := by
      rw [← happlying]
      intro o ho
      exact (List.mem_filter.mp ho).2
    have hoverlap := overlaps_of_applies (happlies left (by simp)) (happlies right (by simp))
    have hdisjoint := List.rel_of_pairwise_cons hpairwise (List.mem_cons_self)
    rw [hoverlap] at hdisjoint
    cases hdisjoint

theorem limitAt_eq (d : PolicyDocument) (scopeKind : QuotaScopeKind) (scopeId : String)
    (operation : QuotaOperation) (dimension : QuotaDimension) (time : Int) :
    d.limitAt scopeKind scopeId operation dimension time =
      ((d.applying scopeKind scopeId operation dimension time).head?.map
        OverrideDocument.newLimit).getD (d.limit dimension scopeKind) := by
  rw [PolicyDocument.applying, List.head?_filter, PolicyDocument.limitAt]
  cases d.overrides.find? _ <;> rfl

theorem limitAt_le_cap (h : d.Accepted) :
    d.limitAt scopeKind scopeId operation dimension time ≤ dimensionCap dimension := by
  rw [PolicyDocument.limitAt]
  split
  next o hfind =>
    have hcap := (newLimit_bounds_of_checkOverrides h.overrides o (List.mem_of_find?_eq_some hfind)).2
    have happlies := List.find?_some hfind
    simp only [OverrideDocument.applies, Bool.and_eq_true, beq_iff_eq] at happlies
    rw [happlies.1.1.1.2] at hcap
    exact hcap
  next => exact (limit_bounds h dimension scopeKind).2

/-! ## Instants of change -/

/-- An override of a limit, in force or not. -/
def OverrideDocument.targets (o : OverrideDocument) (scopeKind : QuotaScopeKind) (scopeId : String)
    (operation : QuotaOperation) (dimension : QuotaDimension) : Prop :=
  o.scopeKind = scopeKind ∧ o.scopeId = scopeId ∧ o.operation = operation ∧ o.dimension = dimension

/-- The override starts or ends after the first instant and no later than the second. -/
def OverrideDocument.turns (o : OverrideDocument) (time later : Int) : Prop :=
  (time < o.effectiveAt ∧ o.effectiveAt ≤ later) ∨ (time < o.expiresAt ∧ o.expiresAt ≤ later)

theorem applies_eq_of_not_turns {o : OverrideDocument} (hle : time ≤ later)
    (h : o.targets scopeKind scopeId operation dimension → ¬ o.turns time later) :
    o.applies baseline scopeKind scopeId operation dimension time =
      o.applies baseline scopeKind scopeId operation dimension later := by
  by_cases htargets : o.targets scopeKind scopeId operation dimension
  · have hturns := h htargets
    simp only [OverrideDocument.turns] at hturns
    have hstart : o.effectiveAt ≤ time ↔ o.effectiveAt ≤ later := by omega
    have hend : time < o.expiresAt ↔ later < o.expiresAt := by omega
    simp only [OverrideDocument.applies, hstart, hend]
  · rw [Bool.eq_iff_iff]
    simp only [OverrideDocument.applies, Bool.and_eq_true, beq_iff_eq]
    simp only [OverrideDocument.targets] at htargets
    tauto

/-- A limit that changes does so where an override of it starts or ends. -/
theorem exists_turns_of_limitAt_ne (hle : time ≤ later)
    (hne : d.limitAt scopeKind scopeId operation dimension time ≠
      d.limitAt scopeKind scopeId operation dimension later) :
    ∃ o ∈ d.overrides, o.targets scopeKind scopeId operation dimension ∧ o.turns time later := by
  by_contra hnone
  push Not at hnone
  apply hne
  rw [limitAt_eq, limitAt_eq, PolicyDocument.applying, PolicyDocument.applying]
  congr 3
  apply List.filter_congr
  intro o ho
  exact applies_eq_of_not_turns hle (hnone o ho)

end Lookup

/-! ## Order of the array -/

/-- Documents that differ in the order of the overrides alone. -/
def PolicyDocument.Reordered (d d' : PolicyDocument) : Prop :=
  ∃ os : List OverrideDocument, os.Perm d.overrides ∧ d' = { d with overrides := os }

theorem limitAt_reordered {d d' : PolicyDocument} (h : d.Accepted) (hreordered : d.Reordered d')
    (scopeKind : QuotaScopeKind) (scopeId : String) (operation : QuotaOperation)
    (dimension : QuotaDimension) (time : Int) :
    d'.limitAt scopeKind scopeId operation dimension time =
      d.limitAt scopeKind scopeId operation dimension time := by
  obtain ⟨os, hperm, rfl⟩ := hreordered
  have happlying : PolicyDocument.applying { d with overrides := os } scopeKind scopeId operation
      dimension time = d.applying scopeKind scopeId operation dimension time := by
    have hfiltered : (PolicyDocument.applying { d with overrides := os } scopeKind scopeId operation
        dimension time).Perm (d.applying scopeKind scopeId operation dimension time) :=
      hperm.filter _
    -- A list of at most one element has no other arrangement.
    have hone : (d.applying scopeKind scopeId operation dimension time).length ≤ 1 :=
      length_applying_le_one h
    rcases Nat.le_one_iff_eq_zero_or_eq_one.mp hone with hzero | hone
    · rw [List.length_eq_zero_iff.mp hzero] at hfiltered ⊢
      exact List.perm_nil.mp hfiltered
    · obtain ⟨o, ho⟩ := List.length_eq_one_iff.mp hone
      rw [ho] at hfiltered ⊢
      exact List.perm_singleton.mp hfiltered
  rw [limitAt_eq, limitAt_eq, happlying]
  rfl

/-- What an intent says apart from the digests of its policy and its binding. -/
def QuotaIntent.terms (i : QuotaIntent) : QuotaIntent :=
  { i with policyDigest := "", bindingDigest := "" }

section Intents

variable [ContentDigest] {p p' : QuotaPolicy}

theorem terms_intent (h : p.document.Reordered p'.document) (subject : QuotaSubject)
    (operation : QuotaOperation) (semanticId bindingDigest bindingDigest' : String)
    (dimensions : List (QuotaDimension × QuotaAlgorithm × Nat × Option Nat)) :
    (p'.intent subject operation semanticId bindingDigest' dimensions).terms =
      (p.intent subject operation semanticId bindingDigest dimensions).terms := by
  obtain ⟨os, -, heq⟩ := h
  simp only [QuotaPolicy.intent, QuotaIntent.terms, QuotaPolicy.policyId, QuotaPolicy.revision, heq]
  rfl

theorem terms_operationIntent (h : p.document.Reordered p'.document) (subject : QuotaSubject)
    (operation : QuotaOperation) (semanticId : String) (inputBytes : Nat) :
    (p'.operationIntent subject operation semanticId inputBytes).map QuotaIntent.terms =
      (p.operationIntent subject operation semanticId inputBytes).map QuotaIntent.terms := by
  have hcharges : operationCharges p'.document operation inputBytes =
      operationCharges p.document operation inputBytes := by
    obtain ⟨os, -, heq⟩ := h
    rw [heq]
    rfl
  rw [QuotaPolicy.operationIntent, QuotaPolicy.operationIntent, hcharges]
  cases require (validId semanticId 256 ∧ inputBytes ≤ maxByteCap) QuotaPolicyError.invalid with
  | error => rfl
  | ok => exact congrArg Except.ok (terms_intent h ..)

theorem terms_egressIntent (h : p.document.Reordered p'.document) (subject : QuotaSubject)
    (semanticId : String) (outputBytes eventCount : Nat) :
    (p'.egressIntent subject semanticId outputBytes eventCount).map QuotaIntent.terms =
      (p.egressIntent subject semanticId outputBytes eventCount).map QuotaIntent.terms := by
  have hcharges : egressCharges p'.document outputBytes eventCount =
      egressCharges p.document outputBytes eventCount := by
    obtain ⟨os, -, heq⟩ := h
    rw [heq]
    rfl
  rw [QuotaPolicy.egressIntent, QuotaPolicy.egressIntent, hcharges]
  cases require (validId semanticId 256 ∧ outputBytes ≠ 0 ∧ outputBytes ≤ maxByteCap ∧
      eventCount ≠ 0 ∧ eventCount ≤ maxEventCap) QuotaPolicyError.invalid with
  | error => rfl
  | ok => exact congrArg Except.ok (terms_intent h ..)

theorem terms_leaseIntent (h : p.document.Reordered p'.document) (subject : QuotaSubject)
    (kind : QuotaLeaseKind) (semanticId : String) (reconnect : Bool) :
    (p'.leaseIntent subject kind semanticId reconnect).map QuotaIntent.terms =
      (p.leaseIntent subject kind semanticId reconnect).map QuotaIntent.terms := by
  have hcharges : leaseCharges p'.document kind reconnect = leaseCharges p.document kind reconnect := by
    obtain ⟨os, -, heq⟩ := h
    rw [heq]
    rfl
  rw [QuotaPolicy.leaseIntent, QuotaPolicy.leaseIntent, hcharges]
  cases require (validId semanticId 256 : Prop) QuotaPolicyError.invalid with
  | error => rfl
  | ok => exact congrArg Except.ok (terms_intent h ..)

/-- Of the overrides of a limit at most one is in force, the limit in force stays within the cap of
its dimension and changes only where one of them starts or ends; and a policy whose overrides stand
in another order has the same limits and, apart from the two digests, the same intents. -/
theorem limitAt_unambiguous (p : QuotaPolicy) (scopeKind : QuotaScopeKind) (scopeId : String)
    (operation : QuotaOperation) (dimension : QuotaDimension) (time : Int) :
    (p.document.applying scopeKind scopeId operation dimension time).length ≤ 1 ∧
    p.document.limitAt scopeKind scopeId operation dimension time ≤ dimensionCap dimension ∧
    (∀ later, time ≤ later →
      p.document.limitAt scopeKind scopeId operation dimension time ≠
        p.document.limitAt scopeKind scopeId operation dimension later →
      ∃ o ∈ p.document.overrides,
        o.targets scopeKind scopeId operation dimension ∧ o.turns time later) ∧
    ∀ p' : QuotaPolicy, p.document.Reordered p'.document →
      p'.document.limitAt scopeKind scopeId operation dimension time =
        p.document.limitAt scopeKind scopeId operation dimension time ∧
      (∀ subject called semanticId inputBytes,
        (p'.operationIntent subject called semanticId inputBytes).map QuotaIntent.terms =
          (p.operationIntent subject called semanticId inputBytes).map QuotaIntent.terms) ∧
      (∀ subject semanticId outputBytes eventCount,
        (p'.egressIntent subject semanticId outputBytes eventCount).map QuotaIntent.terms =
          (p.egressIntent subject semanticId outputBytes eventCount).map QuotaIntent.terms) ∧
      ∀ subject kind semanticId reconnect,
        (p'.leaseIntent subject kind semanticId reconnect).map QuotaIntent.terms =
          (p.leaseIntent subject kind semanticId reconnect).map QuotaIntent.terms := by
  have haccepted := accepted_of_check p.checked
  refine ⟨length_applying_le_one haccepted, limitAt_le_cap haccepted, ?_, ?_⟩
  · intro later hle hne
    exact exists_turns_of_limitAt_ne hle hne
  · intro p' hreordered
    exact ⟨limitAt_reordered haccepted hreordered .., terms_operationIntent hreordered,
      terms_egressIntent hreordered, terms_leaseIntent hreordered⟩

end Intents

/-! ## Two orders of one document -/

attribute [local instance] checksumDigest

/-- Limits of one for each scope of a dimension. -/
def evenLimits (n : Nat) : LimitPair := ⟨n, n, n⟩

def sampleLimits : Limits :=
  ⟨evenLimits 8, evenLimits 1, evenLimits 64, evenLimits 4, evenLimits 4, evenLimits 1, evenLimits 1,
    evenLimits 8, evenLimits 64⟩

/-- An override of the requests of a tenant. -/
def sampleOverride (overrideId : String) (effectiveAt expiresAt : Int) : OverrideDocument :=
  ⟨overrideId, "ops", "load test", .tenant, "t", .taskGet, .requestCount, 8, 16, effectiveAt, expiresAt⟩

def sampleDocument (overrides : List OverrideDocument) : PolicyDocument :=
  ⟨"smesh-quota-policy/v1", "p", 1, 1000, 1000, sampleLimits, overrides⟩

theorem sampleDocument_check : (sampleDocument
    [sampleOverride "a" 10 20, sampleOverride "b" 20 30]).check = .ok () := by decide

theorem swappedDocument_check : (sampleDocument
    [sampleOverride "b" 20 30, sampleOverride "a" 10 20]).check = .ok () := by decide

theorem sampleSubject_valid : validBoundedIdentity "t" ∧ validBoundedIdentity "a" ∧ "p" ≠ "" ∧
    "p".utf8ByteSize ≤ 256 ∧ "p".toList.all (·.toNat < 128) := by decide

def sampleSubject : QuotaSubject := ⟨"t", "a", "p", sampleSubject_valid⟩

theorem sample_limitAt_unambiguous :
    (∃ o ∈ [sampleOverride "a" 10 20, sampleOverride "b" 20 30],
      o.targets .tenant "t" .taskGet .requestCount ∧ o.turns 9 10) ∧
    (sampleDocument [sampleOverride "b" 20 30, sampleOverride "a" 10 20]).limitAt
        .tenant "t" .taskGet .requestCount 9 =
      (sampleDocument [sampleOverride "a" 10 20, sampleOverride "b" 20 30]).limitAt
        .tenant "t" .taskGet .requestCount 9 := by
  have h := limitAt_unambiguous (policyOf _ sampleDocument_check) .tenant "t" .taskGet .requestCount 9
  exact ⟨h.2.2.1 10 (by decide) (by decide),
    (h.2.2.2 (policyOf _ swappedDocument_check) ⟨_, List.Perm.swap .., rfl⟩).1⟩

/-- The digest of a policy covers the order of its overrides, and so does every intent. -/
theorem swapped_intents_differ :
    (sampleDocument [sampleOverride "a" 10 20, sampleOverride "b" 20 30]).Reordered
      (sampleDocument [sampleOverride "b" 20 30, sampleOverride "a" 10 20]) ∧
    (policyOf _ swappedDocument_check).operationIntent sampleSubject .taskGet "m" 0 ≠
      (policyOf _ sampleDocument_check).operationIntent sampleSubject .taskGet "m" 0 := by
  refine ⟨⟨_, List.Perm.swap .., rfl⟩, ?_⟩
  decide +kernel

end SmeshDurable.Quota
