import SmeshDurable.Identity.Authorization
import SmeshDurable.Library.Framing
import SmeshDurable.Quota.Overrides
import SmeshDurable.Store.Records

/-!
# Identities of joined fields

The scope of a principal, the identity of a message and the binding of a quota intent are digests of
fields with a NUL between them. The fields of a message cannot be confused. Neither issuers and
subjects nor the scopes of a quota subject are checked for NULs: such a text is unambiguous exactly
if no other way to cut it gives fields that are accepted too.
-/

namespace SmeshDurable.Identity

open Framing TextLines Transaction
open Quota (QuotaSubject QuotaPolicy QuotaOperation QuotaLeaseKind QuotaIntent QuotaPolicyError)

/-! ## Quota subjects -/

/-- The scopes of a subject as they are joined. -/
def joinedScopes (s : QuotaSubject) : List Char :=
  s.tenantScope.toList ++ '\x00' :: (s.accountId.toList ++ '\x00' :: s.principalScope.toList)

/-- Cutting the joined scopes elsewhere leaves no scopes that are accepted. -/
def SubjectUncut (s : QuotaSubject) : Prop :=
  ∀ tenant ∈ cuts '\x00' (joinedScopes s), ∀ account ∈ cuts '\x00' tenant.2,
    (QuotaSubject.new (String.ofList tenant.1) (String.ofList account.1)
      (String.ofList account.2)).isOk = true →
    tenant.1 = s.tenantScope.toList ∧ account = (s.accountId.toList, s.principalScope.toList)

instance (s : QuotaSubject) : Decidable (SubjectUncut s) :=
  inferInstanceAs (Decidable (∀ tenant ∈ cuts _ _, ∀ account ∈ cuts _ _, _))

theorem subject_new (s : QuotaSubject) :
    QuotaSubject.new s.tenantScope s.accountId s.principalScope = .ok s := by
  rw [QuotaSubject.new, dif_pos s.valid]

theorem subject_of_new {tenant account principal : String}
    (h : (QuotaSubject.new tenant account principal).isOk = true) : ∃ s : QuotaSubject,
    s.tenantScope = tenant ∧ s.accountId = account ∧ s.principalScope = principal := by
  unfold QuotaSubject.new at h
  split at h
  next hvalid => exact ⟨⟨tenant, account, principal, hvalid⟩, rfl, rfl, rfl⟩
  next => cases h

/-- The joined scopes of a subject tell it from all others exactly if they cannot be cut elsewhere. -/
theorem subjectUncut_iff (s : QuotaSubject) :
    SubjectUncut s ↔ ∀ s', joinedScopes s' = joinedScopes s → s' = s := by
  constructor
  · intro h s' hjoined
    have htenant : (s'.tenantScope.toList, s'.accountId.toList ++ '\x00' :: s'.principalScope.toList) ∈
        cuts '\x00' (joinedScopes s) := mem_cuts.mpr hjoined.symm
    have haccount : (s'.accountId.toList, s'.principalScope.toList) ∈
        cuts '\x00' (s'.accountId.toList ++ '\x00' :: s'.principalScope.toList) := mem_cuts.mpr rfl
    obtain ⟨htenants, hrest⟩ := h _ htenant _ haccount (by simp [subject_new, Except.isOk, Except.toBool])
    obtain ⟨haccounts, hprincipals⟩ := Prod.mk.inj hrest
    cases s
    cases s'
    simp only [QuotaSubject.mk.injEq]
    exact ⟨String.toList_inj.mp htenants, String.toList_inj.mp haccounts,
      String.toList_inj.mp hprincipals⟩
  · rintro h ⟨tenant, rest⟩ htenant ⟨account, principal⟩ haccount hnew
    obtain ⟨s', htenants, haccounts, hprincipals⟩ := subject_of_new hnew
    have hjoined : joinedScopes s' = joinedScopes s := by
      rw [joinedScopes, htenants, haccounts, hprincipals, String.toList_ofList, String.toList_ofList,
        String.toList_ofList, ← mem_cuts.mp haccount, ← mem_cuts.mp htenant]
    obtain rfl := h s' hjoined
    rw [htenants, haccounts, hprincipals, String.toList_ofList, String.toList_ofList,
      String.toList_ofList]
    exact ⟨rfl, rfl⟩

/-! ## Names of quota operations -/

theorem operation_free (operation : QuotaOperation) : '\x00' ∉ operation.asStr.toList := by
  cases operation <;> decide

theorem leaseKind_free (kind : QuotaLeaseKind) : '\x00' ∉ kind.asStr.toList := by
  cases kind <;> decide

theorem semanticId_free {semanticId : String} (h : Quota.validId semanticId 256 = true) :
    '\x00' ∉ semanticId.toList := by
  intro hmem
  rw [Quota.validId, Bool.and_eq_true, List.all_eq_true] at h
  exact absurd (h.2 _ hmem) (by decide)

theorem asStr_injective : Function.Injective QuotaOperation.asStr := by
  have hfind : ∀ operation : QuotaOperation, [.taskCreate, .taskContinue, .taskCancel, .taskGet,
      .taskList, .sendStream, .subscribe, .reconnect, .publicEgress].find?
      (fun o => QuotaOperation.asStr o = operation.asStr) = some operation := by
    intro operation
    cases operation <;> decide
  intro a b h
  exact Option.some.inj ((hfind a).symm.trans (h ▸ hfind b))

/-- No lease is named as an operation. -/
theorem kind_ne_operation (kind : QuotaLeaseKind) (operation : QuotaOperation) :
    kind.asStr.toList ≠ operation.asStr.toList := by
  rw [Ne, String.toList_inj]
  cases kind <;> cases operation <;> decide

/-- A request for a lease has one more field than any other. -/
theorem lease_told_apart {scopes scopes' : List Char} {operation operation' : QuotaOperation}
    {kind : QuotaLeaseKind} {semanticId semanticId' : String}
    (h : Quota.validId semanticId 256 = true) (h' : Quota.validId semanticId' 256 = true)
    (heq : scopes ++ '\x00' :: (operation.asStr.toList ++ '\x00' :: (kind.asStr.toList ++
        '\x00' :: semanticId.toList)) =
      scopes' ++ '\x00' :: (operation'.asStr.toList ++ '\x00' :: semanticId'.toList)) : False := by
  have hsplit : (scopes ++ '\x00' :: (operation.asStr.toList ++ '\x00' :: kind.asStr.toList)) ++
      '\x00' :: semanticId.toList =
        (scopes' ++ '\x00' :: operation'.asStr.toList) ++ '\x00' :: semanticId'.toList := by
    simpa using heq
  obtain ⟨hrest, -⟩ := cons_inj_right (semanticId_free h) (semanticId_free h') hsplit
  have hrest : (scopes ++ '\x00' :: operation.asStr.toList) ++ '\x00' :: kind.asStr.toList =
      scopes' ++ '\x00' :: operation'.asStr.toList := by
    simpa using hrest
  obtain ⟨-, hname⟩ := cons_inj_right (leaseKind_free kind) (operation_free operation') hrest
  exact kind_ne_operation kind operation' hname

/-! ## Enrolled principals -/

/-- What is left of the checks on an issuer and a subject. -/
def Named (limits : PrincipalLimits) (issuer subject : String) : Prop :=
  issuer ≠ "" ∧ subject ≠ "" ∧ issuer.utf8ByteSize ≤ min limits.maxIssuerBytes 2048 ∧
    subject.utf8ByteSize ≤ min limits.maxSubjectBytes 256

instance (limits : PrincipalLimits) (issuer subject : String) :
    Decidable (Named limits issuer subject) :=
  inferInstanceAs (Decidable (_ ∧ _ ∧ _ ∧ _))

theorem lookup_mem {κ ν : Type} [DecidableEq κ] {entries : List (κ × ν)} {key : κ} {value : ν}
    (h : lookup entries key = some value) : (key, value) ∈ entries := by
  obtain ⟨entry, hfind, rfl⟩ := Option.map_eq_some_iff.mp h
  have hkey : entry.1 = key := by simpa using List.find?_some hfind
  rw [← hkey]
  exact List.mem_of_find?_eq_some hfind

/-- Cutting the joined fields elsewhere leaves no issuer and subject that are accepted. -/
def PrincipalUncut (limits : PrincipalLimits) (issuer subject : String) : Prop :=
  ∀ cut ∈ cuts '\x00' (issuer ++ "\x00" ++ subject).toList,
    Named limits (String.ofList cut.1) (String.ofList cut.2) → cut = (issuer.toList, subject.toList)

instance (limits : PrincipalLimits) (issuer subject : String) :
    Decidable (PrincipalUncut limits issuer subject) :=
  inferInstanceAs (Decidable (∀ cut ∈ cuts _ _, _))

theorem toList_joined (a b : String) : (a ++ "\x00" ++ b).toList = a.toList ++ '\x00' :: b.toList := by
  have hnul : "\x00".toList = ['\x00'] := rfl
  rw [String.toList_append, String.toList_append, hnul, List.append_assoc, List.singleton_append]

theorem scopeText_eq_iff {issuer subject issuer' subject' : String} :
    scopeText issuer' subject' = scopeText issuer subject ↔
      (issuer'.toList, subject'.toList) ∈ cuts '\x00' (issuer ++ "\x00" ++ subject).toList := by
  unfold scopeText
  generalize "quota-principal-v1\x00" = domain
  rw [mem_cuts, ← String.toList_inj, toList_joined, toList_joined, toList_joined,
    String.toList_append, String.toList_append, List.append_assoc, List.append_assoc,
    List.append_cancel_left_eq]
  exact eq_comm

theorem validId_free {value : String} (h : validId value = true) : '\x00' ∉ value.toList := by
  intro hmem
  rw [validId, Bool.and_eq_true, List.all_eq_true] at h
  obtain ⟨index, hindex⟩ := List.mem_iff_getElem?.mp hmem
  have hpair := h.2 ('\x00', index) (List.mem_zipIdx_iff_getElem?.mpr hindex)
  have hlower : Char.isLower '\x00' = false := by decide
  have hdigit : Char.isDigit '\x00' = false := by decide
  simp [hlower, hdigit] at hpair

section Enrolled

variable [ContentDigest] (canonical : PolicyDocument → List UInt8)

/-- A principal that is accepted and that a policy resolves. -/
def Enrolled (limits : PrincipalLimits) (issuer subject : String) : Prop :=
  ∃ authentication principal d policy selector context,
    Principal.new issuer subject authentication limits = .ok principal ∧
      AuthorizationPolicy.fromDocument canonical d = .ok policy ∧
      policy.resolve principal selector = .ok context

theorem fromDocument_eq_ok {d : PolicyDocument} {policy : AuthorizationPolicy}
    (h : AuthorizationPolicy.fromDocument canonical d = .ok policy) :
    d.check = true ∧ policy.bindings = d.principalBindings.map (fun b => ((b.issuer, b.subject), b.accountId)) ∧
      policy.accounts = d.accounts.map fun a => (a.id, a.account) := by
  simp only [AuthorizationPolicy.fromDocument, bind_eq_ok, require_eq_ok, Except.ok.injEq] at h
  obtain ⟨-, hcheck, rfl⟩ := h
  exact ⟨hcheck, rfl, rfl⟩

theorem resolve_eq_ok {policy : AuthorizationPolicy} {principal : Principal} {selector : Option String}
    {context : AuthorizationContext} (h : policy.resolve principal selector = .ok context) :
    ∃ accountId account roles, ((principal.issuer, principal.subject), accountId) ∈ policy.bindings ∧
      (accountId, account) ∈ policy.accounts ∧ account.id = context.accountId ∧
      (context.tenantId, roles) ∈ account.memberships ∧
      context.principalScope = textDigest (scopeText principal.issuer principal.subject) := by
  simp only [AuthorizationPolicy.resolve, bind_eq_ok, expect_eq_ok, Except.ok.injEq] at h
  obtain ⟨accountId, hbinding, account, haccount, ⟨tenantId, roles⟩, hselect, rfl⟩ := h
  refine ⟨accountId, account, roles, lookup_mem hbinding, lookup_mem haccount, rfl, ?_, rfl⟩
  cases selector with
  | some value =>
    simp only [Account.selectTenant, bind_eq_ok, require_eq_ok, expect_eq_ok, Except.ok.injEq,
      Prod.mk.injEq] at hselect
    obtain ⟨-, -, _, hroles, rfl, rfl⟩ := hselect
    exact lookup_mem hroles
  | none =>
    rw [Account.selectTenant] at hselect
    split at hselect
    next membership hone =>
      rw [hone, List.mem_singleton]
      exact (Except.ok.inj hselect).symm
    next => cases hselect

theorem context_ids_valid {d : PolicyDocument} {policy : AuthorizationPolicy} {principal : Principal}
    {selector : Option String} {context : AuthorizationContext}
    (hpolicy : AuthorizationPolicy.fromDocument canonical d = .ok policy)
    (h : policy.resolve principal selector = .ok context) :
    validId context.tenantId = true ∧ validId context.accountId = true := by
  obtain ⟨hcheck, -, haccounts⟩ := fromDocument_eq_ok canonical hpolicy
  obtain ⟨_, account, roles, -, haccount, hid, hmember, -⟩ := resolve_eq_ok h
  simp only [PolicyDocument.check, Bool.and_eq_true, List.all_eq_true] at hcheck
  obtain ⟨⟨⟨-, htenants, -⟩, hdocuments, -⟩, -⟩ := hcheck
  rw [haccounts] at haccount
  obtain ⟨a, ha, heq⟩ := List.mem_map.mp haccount
  obtain ⟨-, rfl⟩ := Prod.mk.inj heq
  have hcheck := hdocuments a ha
  simp only [AccountDocument.check, Bool.and_eq_true, List.all_eq_true] at hcheck
  obtain ⟨⟨⟨hvalid, -⟩, hmemberships⟩, -⟩ := hcheck
  obtain ⟨m, hm, heq⟩ := List.mem_map.mp hmember
  have htenant := hmemberships m hm
  simp only [MembershipDocument.check, Bool.and_eq_true, List.any_eq_true, decide_eq_true_eq]
    at htenant
  obtain ⟨⟨⟨⟨tenant, htenant, hname, -⟩, -⟩, -⟩, -⟩ := htenant
  obtain ⟨hname', -⟩ := Prod.mk.inj heq
  refine ⟨?_, hid ▸ hvalid⟩
  rw [← hname', ← hname]
  exact htenants tenant htenant

/-- A policy with one binding. -/
def smallDocument (issuer subject : String) : PolicyDocument :=
  { schemaVersion := "smesh-authz-policy/v1", policyId := "policy", revision := 1,
    tenants := [⟨"tenant", true⟩],
    accounts := [⟨"account", .human, [⟨"tenant", [.taskOperator]⟩]⟩],
    principalBindings := [⟨issuer, subject, "account"⟩] }

theorem enrolled_iff {limits : PrincipalLimits} {issuer subject : String} :
    Enrolled canonical limits issuer subject ↔ Named limits issuer subject := by
  constructor
  · rintro ⟨authentication, principal, d, policy, selector, context, hnew, hpolicy, hresolve⟩
    simp only [Principal.new, bind_eq_ok, require_eq_ok, Except.ok.injEq] at hnew
    obtain ⟨-, hbounds, rfl⟩ := hnew
    obtain ⟨hcheck, hbindings, -⟩ := fromDocument_eq_ok canonical hpolicy
    obtain ⟨_, _, _, hbinding, -⟩ := resolve_eq_ok hresolve
    simp only [PolicyDocument.check, Bool.and_eq_true, List.all_eq_true] at hcheck
    rw [hbindings] at hbinding
    obtain ⟨b, hb, heq⟩ := List.mem_map.mp hbinding
    simp only [Prod.mk.injEq] at heq
    obtain ⟨⟨rfl, rfl⟩, -⟩ := heq
    have hlimits := hcheck.2.1 b hb
    simp only [BindingDocument.check, Bool.and_eq_true, Bool.not_eq_true', Bool.or_eq_false_iff,
      decide_eq_false_iff_not, Nat.not_lt] at hlimits
    obtain ⟨⟨⟨⟨-, hissuer⟩, -⟩, hsubject⟩, -⟩ := hlimits
    simp only [not_or, Nat.not_lt] at hbounds
    exact ⟨hbounds.1, hbounds.2.1, Nat.le_min.mpr ⟨hbounds.2.2.1, hissuer⟩,
      Nat.le_min.mpr ⟨hbounds.2.2.2, hsubject⟩⟩
  · rintro ⟨hissuer, hsubject, hissuerSize, hsubjectSize⟩
    rw [Nat.le_min] at hissuerSize hsubjectSize
    have hids : validId "policy" = true ∧ validId "tenant" = true ∧ validId "account" = true := by
      decide +kernel
    have hcheck : (smallDocument issuer subject).check = true := by
      simp [PolicyDocument.check, smallDocument, AccountDocument.check, MembershipDocument.check,
        BindingDocument.check, kindAllows, hids, hissuer, hsubject, hissuerSize.2, hsubjectSize.2,
        maxTenants, maxAccounts, maxBindings]
    obtain ⟨policy, hpolicy, hbindings, haccounts⟩ : ∃ policy,
        AuthorizationPolicy.fromDocument canonical (smallDocument issuer subject) = .ok policy ∧
          policy.bindings = [((issuer, subject), "account")] ∧
          policy.accounts = [("account", ⟨"account", .human, [("tenant", [.taskOperator])]⟩)] := by
      rw [AuthorizationPolicy.fromDocument, require, if_pos hcheck]
      exact ⟨_, rfl, rfl, rfl⟩
    obtain ⟨context, hresolve⟩ : ∃ context,
        policy.resolve ⟨issuer, subject, .bearerJwt⟩ none = .ok context := by
      simp [AuthorizationPolicy.resolve, hbindings, haccounts, lookup, expect, Account.selectTenant]
    have hnew : Principal.new issuer subject .bearerJwt limits = .ok ⟨issuer, subject, .bearerJwt⟩ := by
      simp [Principal.new, require, hissuer, hsubject, hissuerSize.1, hsubjectSize.1]
    exact ⟨_, _, _, policy, none, context, hnew, hpolicy, hresolve⟩

/-! ## Principals -/

theorem principal_identified_iff (limits : PrincipalLimits) (issuer subject : String) :
    (∀ issuer' subject', Enrolled canonical limits issuer' subject' →
        scopeText issuer' subject' = scopeText issuer subject →
        issuer' = issuer ∧ subject' = subject) ↔ PrincipalUncut limits issuer subject := by
  constructor
  · rintro h ⟨before, after⟩ hcut hnamed
    have htext : scopeText (String.ofList before) (String.ofList after) = scopeText issuer subject :=
      scopeText_eq_iff.mpr (by simpa using hcut)
    obtain ⟨rfl, rfl⟩ := h _ _ ((enrolled_iff canonical).mpr hnamed) htext
    simp
  · intro h issuer' subject' henrolled htext
    have hnamed := (enrolled_iff canonical).mp henrolled
    have hcut := h _ (scopeText_eq_iff.mp htext) (by simpa using hnamed)
    obtain ⟨hissuer, hsubject⟩ := Prod.mk.inj hcut
    exact ⟨String.toList_inj.mp hissuer, String.toList_inj.mp hsubject⟩

/-! ## Messages -/

/-- What the identity of an authorized message is the digest of. -/
def messageText (tenantScope actorAccountId messageId : String) : String :=
  "message-v2\x00" ++ tenantScope ++ "\x00" ++ actorAccountId ++ "\x00" ++ messageId

theorem authorizedMessageIdentity_eq (tenantScope actorAccountId messageId : String) :
    authorizedMessageIdentity tenantScope actorAccountId messageId =
      textDigest (messageText tenantScope actorAccountId messageId) := rfl

/-- A message in the context of a resolved request. -/
def MessageAccepted (tenantScope actorAccountId messageId : String) : Prop :=
  (∃ d policy principal selector context,
    AuthorizationPolicy.fromDocument canonical d = .ok policy ∧
      policy.resolve principal selector = .ok context ∧
      context.tenantId = tenantScope ∧ context.accountId = actorAccountId) ∧
    messageId ≠ "" ∧ messageId.utf8ByteSize ≤ 4096

theorem messageText_inj {tenant account message tenant' account' message' : String}
    (h : MessageAccepted canonical tenant account message)
    (h' : MessageAccepted canonical tenant' account' message')
    (htext : messageText tenant account message = messageText tenant' account' message') :
    tenant = tenant' ∧ account = account' ∧ message = message' := by
  obtain ⟨⟨d, policy, principal, selector, context, hpolicy, hresolve, rfl, rfl⟩, -⟩ := h
  obtain ⟨⟨d', policy', principal', selector', context', hpolicy', hresolve', rfl, rfl⟩, -⟩ := h'
  obtain ⟨htenant, haccount⟩ := context_ids_valid canonical hpolicy hresolve
  obtain ⟨htenant', haccount'⟩ := context_ids_valid canonical hpolicy' hresolve'
  have hlists := congrArg String.toList htext
  unfold messageText at hlists
  generalize "message-v2\x00" = domain at hlists
  simp only [toList_joined] at hlists
  simp only [String.toList_append, List.append_assoc, List.cons_append,
    List.append_cancel_left_eq] at hlists
  obtain ⟨htenants, hrest⟩ := cons_inj_left (validId_free htenant) (validId_free htenant') hlists
  obtain ⟨haccounts, hmessages⟩ := cons_inj_left (validId_free haccount) (validId_free haccount') hrest
  exact ⟨String.toList_inj.mp htenants, String.toList_inj.mp haccounts, String.toList_inj.mp hmessages⟩

/-! ## Quota intents -/

/-- What an intent is asked for, with what it charges for. -/
inductive RequestKind where
  | operation (operation : QuotaOperation) (inputBytes : Nat)
  | egress (outputBytes eventCount : Nat)
  | lease (kind : QuotaLeaseKind) (reconnect : Bool)

structure QuotaRequest where
  policy : QuotaPolicy
  subject : QuotaSubject
  kind : RequestKind
  semanticId : String

namespace QuotaRequest

def intent (r : QuotaRequest) : Except QuotaPolicyError QuotaIntent :=
  match r.kind with
  | .operation operation inputBytes =>
    r.policy.operationIntent r.subject operation r.semanticId inputBytes
  | .egress outputBytes eventCount =>
    r.policy.egressIntent r.subject r.semanticId outputBytes eventCount
  | .lease kind reconnect => r.policy.leaseIntent r.subject kind r.semanticId reconnect

def operation (r : QuotaRequest) : QuotaOperation :=
  match r.kind with
  | .operation operation _ => operation
  | .egress _ _ => .publicEgress
  | .lease kind reconnect => Quota.QuotaPolicy.leaseOperation kind reconnect

def leaseKind (r : QuotaRequest) : Option QuotaLeaseKind :=
  match r.kind with
  | .lease kind _ => some kind
  | _ => none

/-- The operation that an intent is for. -/
def key (r : QuotaRequest) :
    String × QuotaSubject × QuotaOperation × Option QuotaLeaseKind × String :=
  (r.policy.digest, r.subject, r.operation, r.leaseKind, r.semanticId)

/-- What the binding of an intent is the digest of. -/
def bindingText (r : QuotaRequest) : String :=
  "\x00".intercalate ([r.policy.digest, r.subject.tenantScope, r.subject.accountId,
    r.subject.principalScope] ++ (r.operation.asStr :: (r.leaseKind.map QuotaLeaseKind.asStr).toList ++
      [r.semanticId]))

theorem bindingDigest_eq {r : QuotaRequest} {intent : QuotaIntent} (h : r.intent = .ok intent) :
    intent.bindingDigest = textDigest r.bindingText ∧ Quota.validId r.semanticId 256 = true := by
  obtain ⟨policy, subject, kind, semanticId⟩ := r
  cases kind with
  | operation operation inputBytes =>
    simp only [QuotaRequest.intent, QuotaPolicy.operationIntent, bind_eq_ok, require_eq_ok,
      Except.ok.injEq] at h
    obtain ⟨-, hvalid, rfl⟩ := h
    exact ⟨rfl, hvalid.1⟩
  | egress outputBytes eventCount =>
    simp only [QuotaRequest.intent, QuotaPolicy.egressIntent, bind_eq_ok, require_eq_ok,
      Except.ok.injEq] at h
    obtain ⟨-, hvalid, rfl⟩ := h
    exact ⟨rfl, hvalid.1⟩
  | lease kind reconnect =>
    simp only [QuotaRequest.intent, QuotaPolicy.leaseIntent, bind_eq_ok, require_eq_ok,
      Except.ok.injEq] at h
    obtain ⟨-, hvalid, rfl⟩ := h
    exact ⟨rfl, hvalid⟩

/-- Whether there is an intent does not depend on the subject. -/
theorem intent_of_subject {r : QuotaRequest} {intent : QuotaIntent} (h : r.intent = .ok intent)
    (subject : QuotaSubject) : ∃ other, { r with subject }.intent = .ok other := by
  obtain ⟨policy, _, kind, semanticId⟩ := r
  cases kind <;>
    simp_all [QuotaRequest.intent, QuotaPolicy.operationIntent, QuotaPolicy.egressIntent,
      QuotaPolicy.leaseIntent]

/-- The fields behind the scopes. -/
def tailFields (r : QuotaRequest) : List Char :=
  match r.leaseKind with
  | none => r.operation.asStr.toList ++ '\x00' :: r.semanticId.toList
  | some kind =>
    r.operation.asStr.toList ++ '\x00' :: (kind.asStr.toList ++ '\x00' :: r.semanticId.toList)

theorem bindingText_eq (r : QuotaRequest) : r.bindingText = r.policy.digest ++
    ("\x00" ++ String.ofList (joinedScopes r.subject ++ '\x00' :: r.tailFields)) := by
  have hnul : "\x00".toList = ['\x00'] := rfl
  rw [← String.toList_inj, bindingText, String.toList_intercalate]
  cases hkind : r.leaseKind <;> simp [hnul, hkind, tailFields, joinedScopes, List.intercalate_cons_cons]

/-- Digests have one length, so the fields behind them start at the same place. -/
theorem bindingText_eq_iff {r r' : QuotaRequest} :
    r'.bindingText = r.bindingText ↔ r'.policy.digest = r.policy.digest ∧
      joinedScopes r'.subject ++ '\x00' :: r'.tailFields =
        joinedScopes r.subject ++ '\x00' :: r.tailFields := by
  have hsize : ∀ r : QuotaRequest, (bytes r.policy.digest).length = 71 := by
    intro r
    rw [length_bytes, r.policy.hashed, contentDigest_size]
  rw [bindingText_eq, bindingText_eq]
  constructor
  · intro h
    have hbytes := congrArg bytes h
    rw [bytes_append, bytes_append r.policy.digest] at hbytes
    obtain ⟨hdigest, hrest⟩ := List.append_inj hbytes ((hsize r').trans (hsize r).symm)
    refine ⟨bytes_injective hdigest, ?_⟩
    have hfields := bytes_injective hrest
    rw [← String.toList_inj, String.toList_append, String.toList_append, List.append_cancel_left_eq,
      String.toList_ofList, String.toList_ofList] at hfields
    exact hfields
  · rintro ⟨hdigest, hfields⟩
    rw [hdigest, hfields]

theorem tailFields_inj {r r' : QuotaRequest} (h : Quota.validId r.semanticId 256 = true)
    (h' : Quota.validId r'.semanticId 256 = true)
    (heq : joinedScopes r'.subject ++ '\x00' :: r'.tailFields =
        joinedScopes r.subject ++ '\x00' :: r.tailFields) :
    joinedScopes r'.subject = joinedScopes r.subject ∧ r'.operation = r.operation ∧
      r'.leaseKind = r.leaseKind ∧ r'.semanticId = r.semanticId := by
  have hsemantic := semanticId_free h
  have hsemantic' := semanticId_free h'
  cases hk : r.leaseKind with
  | none =>
    cases hk' : r'.leaseKind with
    | none =>
      obtain ⟨-, hscopes, hfields⟩ := @intercalate_inj _ '\x00' [] []
        [r'.operation.asStr.toList, r'.semanticId.toList]
        [r.operation.asStr.toList, r.semanticId.toList] (joinedScopes r'.subject)
        (joinedScopes r.subject) nofun nofun (by simp [operation_free, hsemantic'])
        (by simp [operation_free, hsemantic]) rfl rfl
        (by simpa [tailFields, hk, hk', List.intercalate_cons_cons] using heq)
      simp only [List.cons.injEq, String.toList_inj, and_true] at hfields
      exact ⟨hscopes, asStr_injective hfields.1, rfl, hfields.2⟩
    | some kind' =>
      rw [tailFields, tailFields, hk, hk'] at heq
      exact (lease_told_apart h' h heq).elim
  | some kind =>
    cases hk' : r'.leaseKind with
    | none =>
      rw [tailFields, tailFields, hk, hk'] at heq
      exact (lease_told_apart h h' heq.symm).elim
    | some kind' =>
      obtain ⟨-, hscopes, hfields⟩ := @intercalate_inj _ '\x00' [] []
        [r'.operation.asStr.toList, kind'.asStr.toList, r'.semanticId.toList]
        [r.operation.asStr.toList, kind.asStr.toList, r.semanticId.toList]
        (joinedScopes r'.subject) (joinedScopes r.subject) nofun nofun
        (by simp [operation_free, leaseKind_free, hsemantic'])
        (by simp [operation_free, leaseKind_free, hsemantic]) rfl rfl
        (by simpa [tailFields, hk, hk', List.intercalate_cons_cons] using heq)
      simp only [List.cons.injEq, String.toList_inj, and_true] at hfields
      have hkinds : kind' = kind := by
        have hnames := hfields.2.1
        cases kind <;> cases kind' <;> first | rfl | exact absurd hnames (by decide)
      exact ⟨hscopes, asStr_injective hfields.1, congrArg some hkinds, hfields.2.2⟩

theorem intent_identified_iff {r : QuotaRequest} {intent : QuotaIntent} (h : r.intent = .ok intent) :
    (∀ (r' : QuotaRequest) intent', r'.intent = .ok intent' → r'.bindingText = r.bindingText → r'.key = r.key) ↔
      SubjectUncut r.subject := by
  obtain ⟨-, hvalid⟩ := bindingDigest_eq h
  rw [subjectUncut_iff]
  constructor
  · intro hkeys subject hjoined
    obtain ⟨other, hother⟩ := intent_of_subject h subject
    have htext : { r with subject }.bindingText = r.bindingText :=
      bindingText_eq_iff.mpr ⟨rfl, by rw [hjoined]; rfl⟩
    have hkey := hkeys _ _ hother htext
    exact congrArg (fun key => key.2.1) hkey
  · intro huncut r' intent' h' htext
    obtain ⟨hdigest, hfields⟩ := bindingText_eq_iff.mp htext
    obtain ⟨hjoined, hoperation, hkind, hsemantic⟩ := tailFields_inj hvalid (bindingDigest_eq h').2 hfields
    rw [key, key, hdigest, huncut _ hjoined, hoperation, hkind, hsemantic]

end QuotaRequest

/-! ## All identities -/

/-- A principal, and the subject of a quota intent, have identities of their own exactly if their
joined fields cannot be cut elsewhere; messages always have. -/
theorem joined_identities_exact (limits : PrincipalLimits) :
    (∀ issuer subject,
      (∀ issuer' subject', Enrolled canonical limits issuer' subject' →
        scopeText issuer' subject' = scopeText issuer subject →
        issuer' = issuer ∧ subject' = subject) ↔ PrincipalUncut limits issuer subject) ∧
    (∀ tenant account message tenant' account' message',
      MessageAccepted canonical tenant account message →
      MessageAccepted canonical tenant' account' message' →
      messageText tenant account message = messageText tenant' account' message' →
      tenant = tenant' ∧ account = account' ∧ message = message') ∧
    ∀ (r : QuotaRequest) intent, r.intent = .ok intent →
      ((∀ (r' : QuotaRequest) intent', r'.intent = .ok intent' → r'.bindingText = r.bindingText →
        r'.key = r.key) ↔ SubjectUncut r.subject) := by
  refine ⟨principal_identified_iff canonical limits, ?_, ?_⟩
  · intro tenant account message tenant' account' message' h h' htext
    exact messageText_inj canonical h h' htext
  · intro r intent h
    exact QuotaRequest.intent_identified_iff h

end Enrolled

section Evaluated

attribute [local instance] checksumDigest

def defaultLimits : PrincipalLimits := ⟨2048, 256⟩

def samplePolicy : QuotaPolicy :=
  Quota.policyOf (Quota.sampleDocument
    [Quota.sampleOverride "a" 10 20, Quota.sampleOverride "b" 20 30]) Quota.sampleDocument_check

def sampleRequest (subject : QuotaSubject) : QuotaRequest :=
  ⟨samplePolicy, subject, .operation .taskGet 0, "task"⟩

theorem sampleRequest_accepted (subject : QuotaSubject) :
    ∃ intent, (sampleRequest subject).intent = .ok intent := by
  have hvalid : Quota.validId "task" 256 = true := by decide
  simp [QuotaRequest.intent, sampleRequest, QuotaPolicy.operationIntent, hvalid]

/-- Fields without a NUL cannot be cut elsewhere. -/
theorem plain_fields_identified :
    (∀ issuer subject, Enrolled (fun _ => []) defaultLimits issuer subject →
      scopeText issuer subject = scopeText "https://issuer" "subject" →
      issuer = "https://issuer" ∧ subject = "subject") ∧
    ∀ (r : QuotaRequest) intent, r.intent = .ok intent →
      r.bindingText = (sampleRequest Quota.sampleSubject).bindingText →
      r.key = (sampleRequest Quota.sampleSubject).key := by
  obtain ⟨hprincipals, -, hintents⟩ := joined_identities_exact (fun _ => []) defaultLimits
  obtain ⟨intent, hintent⟩ := sampleRequest_accepted Quota.sampleSubject
  exact ⟨(hprincipals _ _).mpr (by decide +kernel), (hintents _ intent hintent).mpr (by decide +kernel)⟩

/-- Two principals and two subjects that a NUL in another field makes the same. -/
theorem nul_moves_between_fields :
    (Enrolled (fun _ => []) defaultLimits "a" "b\x00c" ∧
      Enrolled (fun _ => []) defaultLimits "a\x00b" "c" ∧
      scopeText "a" "b\x00c" = scopeText "a\x00b" "c") ∧
    ∃ s s' : QuotaSubject, s ≠ s' ∧
      (sampleRequest s).bindingText = (sampleRequest s').bindingText := by
  refine ⟨⟨(enrolled_iff _).mpr (by decide), (enrolled_iff _).mpr (by decide), by decide⟩, ?_⟩
  refine ⟨⟨"a", "b\x00c", "d", by decide⟩, ⟨"a\x00b", "c", "d", by decide⟩, by decide, ?_⟩
  rw [QuotaRequest.bindingText_eq_iff]
  exact ⟨rfl, by decide +kernel⟩

end Evaluated

end SmeshDurable.Identity
