import SmeshDurable.Library.Ranked
import SmeshDurable.Library.TextLines
import SmeshDurable.Store.Schema

/-!
# Principals and the authorization policy

A verified token or certificate names a principal by its issuer and subject. The policy an operator
supplies binds principals to accounts, and accounts to tenants; a request is resolved to the context
it acts in.
-/

namespace SmeshDurable.Identity

open Ranked TextLines Transaction

/-! ## Principals -/

inductive AuthenticationMethod where
  | bearerJwt
  | mutualTls
deriving DecidableEq

structure PrincipalLimits where
  maxIssuerBytes : Nat
  maxSubjectBytes : Nat

inductive PrincipalError where
  | outOfBounds

structure Principal where
  issuer : String
  subject : String
  authentication : AuthenticationMethod
deriving DecidableEq

def Principal.new (issuer subject : String) (authentication : AuthenticationMethod)
    (limits : PrincipalLimits) : Except PrincipalError Principal := do
  require (¬ (issuer = "" ∨ subject = "" ∨ limits.maxIssuerBytes < issuer.utf8ByteSize ∨
    limits.maxSubjectBytes < subject.utf8ByteSize)) .outOfBounds
  .ok ⟨issuer, subject, authentication⟩

/-! ## Policies -/

inductive AuthorizationError where
  | invalidPolicy
  | denied
deriving DecidableEq

inductive AccountKind where
  | human
  | serviceAccount
deriving DecidableEq

inductive TenantRole where
  | tenantAdmin | humanRatifier | taskOperator | taskViewer | auditor | taskAgent | serviceReader
deriving DecidableEq

def TenantRole.rank : TenantRole → Nat
  | .tenantAdmin => 0
  | .humanRatifier => 1
  | .taskOperator => 2
  | .taskViewer => 3
  | .auditor => 4
  | .taskAgent => 5
  | .serviceReader => 6

structure TenantDocument where
  id : String
  enabled : Bool

structure MembershipDocument where
  tenantId : String
  roles : List TenantRole

structure AccountDocument where
  id : String
  kind : AccountKind
  memberships : List MembershipDocument

structure BindingDocument where
  issuer : String
  subject : String
  accountId : String

structure PolicyDocument where
  schemaVersion : String
  policyId : String
  revision : Nat
  tenants : List TenantDocument
  accounts : List AccountDocument
  principalBindings : List BindingDocument

structure Account where
  id : String
  kind : AccountKind
  memberships : List (String × List TenantRole)

structure AuthorizationPolicy where
  policyId : String
  revision : Nat
  digest : String
  bindings : List ((String × String) × String)
  accounts : List (String × Account)

def maxTenants : Nat := 1024
def maxAccounts : Nat := 4096
def maxBindings : Nat := 8192

def kindAllows (kind : AccountKind) (role : TenantRole) : Bool :=
  match kind with
  | .human => !(role = .taskAgent || role = .serviceReader)
  | .serviceAccount => role = .taskAgent || role = .serviceReader

def validId (value : String) : Bool :=
  1 ≤ value.utf8ByteSize && value.utf8ByteSize ≤ 64 && value.toList.all (·.toNat < 128) &&
    value.toList.zipIdx.all fun (c, index) =>
      c.isLower || c.isDigit || (0 < index && (c = '_' || c = '-'))

/-- A membership names an enabled tenant and different roles that the account may have. -/
def MembershipDocument.check (tenants : List TenantDocument) (kind : AccountKind)
    (membership : MembershipDocument) : Bool :=
  tenants.any (fun tenant => tenant.id = membership.tenantId && tenant.enabled) &&
    !membership.roles.isEmpty && membership.roles.Nodup && membership.roles.all (kindAllows kind)

def AccountDocument.check (tenants : List TenantDocument) (account : AccountDocument) : Bool :=
  validId account.id && !account.memberships.isEmpty &&
    account.memberships.all (·.check tenants account.kind) &&
    (account.memberships.map MembershipDocument.tenantId).Nodup

def BindingDocument.check (accounts : List AccountDocument) (binding : BindingDocument) : Bool :=
  !(binding.issuer = "" || 2048 < binding.issuer.utf8ByteSize || binding.subject = "" ||
      256 < binding.subject.utf8ByteSize) &&
    accounts.any fun account => account.id = binding.accountId

/-- All checks on a document. Each of them fails with the same error, and so does a map that is
given one key twice. -/
def PolicyDocument.check (d : PolicyDocument) : Bool :=
  d.schemaVersion = "smesh-authz-policy/v1" && d.revision ≠ 0 && validId d.policyId &&
    !d.tenants.isEmpty && d.tenants.length ≤ maxTenants &&
    !d.accounts.isEmpty && d.accounts.length ≤ maxAccounts &&
    !d.principalBindings.isEmpty && d.principalBindings.length ≤ maxBindings &&
    (d.tenants.all (validId ·.id) && (d.tenants.map TenantDocument.id).Nodup) &&
    (d.accounts.all (·.check d.tenants) && (d.accounts.map AccountDocument.id).Nodup) &&
    (d.principalBindings.all (·.check d.accounts) &&
      (d.principalBindings.map fun binding => (binding.issuer, binding.subject)).Nodup)

def AccountDocument.account (a : AccountDocument) : Account :=
  { id := a.id, kind := a.kind,
    memberships := a.memberships.map fun m => (m.tenantId, sortOn TenantRole.rank m.roles) }

structure AuthorizationContext where
  accountId : String
  tenantId : String
  principalScope : String
  roles : List TenantRole
  accountKind : AccountKind
  policyId : String
  policyRevision : Nat
  policyDigest : String
  authenticationMethod : AuthenticationMethod

/-- A value looked up in a map. -/
def lookup {κ ν : Type} [DecidableEq κ] (entries : List (κ × ν)) (key : κ) : Option ν :=
  (entries.find? fun entry => entry.1 = key).map Prod.snd

section Digest

variable [ContentDigest]

/-- The policy of a document that was read, where `canonical` writes a document. -/
def AuthorizationPolicy.fromDocument (canonical : PolicyDocument → List UInt8) (d : PolicyDocument) :
    Except AuthorizationError AuthorizationPolicy := do
  require (d.check = true) .invalidPolicy
  .ok { policyId := d.policyId, revision := d.revision, digest := contentDigest (canonical d),
        bindings := d.principalBindings.map fun b => ((b.issuer, b.subject), b.accountId),
        accounts := d.accounts.map fun a => (a.id, a.account) }

/-- What the scope of a principal is the digest of. -/
def scopeText (issuer subject : String) : String :=
  "quota-principal-v1\x00" ++ issuer ++ "\x00" ++ subject

def Account.selectTenant (account : Account) :
    Option String → Except AuthorizationError (String × List TenantRole)
  | some value => do
      require (validId value = true) .denied
      let roles ← expect (lookup account.memberships value) .denied
      .ok (value, roles)
  | none =>
    match account.memberships with
    | [membership] => .ok membership
    | _ => .error .denied

def AuthorizationPolicy.resolve (policy : AuthorizationPolicy) (principal : Principal)
    (selector : Option String) : Except AuthorizationError AuthorizationContext := do
  let accountId ← expect (lookup policy.bindings (principal.issuer, principal.subject)) .denied
  let account ← expect (lookup policy.accounts accountId) .denied
  let (tenantId, roles) ← account.selectTenant selector
  .ok { accountId := account.id, tenantId,
        principalScope := textDigest (scopeText principal.issuer principal.subject), roles,
        accountKind := account.kind, policyId := policy.policyId, policyRevision := policy.revision,
        policyDigest := policy.digest, authenticationMethod := principal.authentication }

end Digest

end SmeshDurable.Identity
