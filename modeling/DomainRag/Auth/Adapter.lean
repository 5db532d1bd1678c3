import DomainRag.Lib.Except
import DomainRag.Lib.Program
import DomainRag.Lib.Value

/-! # Authentication

The claims of a verified token are turned into a user context for the domain of the request.
Clients are mapped to domains, roles are mapped to the service's own, and a user's rights in a
domain come from the membership table. An open domain enrolls unknown users on their first
request.
-/

namespace DomainRag.Auth

structure ServiceAccountConfig where
  domainId : String
  roles : List String
  clearance : String := "internal"

structure AuthConfig where
  rpSlug : String
  platformAdminRole : String
  requireVerifiedEmail : Bool
  clientTenantMap : Dict String (List String)
  serviceAccounts : Dict String ServiceAccountConfig
  tenantOverrides : Dict String Value := .empty
  acceptLegacyGlobalRoles : Bool := true

structure TextCase where
  upper : String → String
  lower : String → String

def attributeError (v : Value) (name : String) : Exc :=
  ⟨"AttributeError", s!"'{v.typeName}' object has no attribute '{name}'"⟩

def dropClient (clientId : String) : String :=
  if "client-".toList.isPrefixOf clientId.toList then
    String.ofList (clientId.toList.drop "client-".length)
  else clientId

namespace AuthConfig

variable (config : AuthConfig)

/-- The domain of a client. A client that is mapped to several domains is taken at the one that
the request names, if it is among them, and at the first otherwise. -/
def clientDomain (clientId expected : String) : String :=
  match config.clientTenantMap.get? clientId with
  | some (first :: rest) =>
    if expected ≠ "" ∧ expected ∈ first :: rest then expected else first
  | some [] | none => dropClient clientId

def clientIdToDomainId (clientId : Value) (expected : String) : Except Exc String :=
  match clientId with
  | .str c => .ok (config.clientDomain c expected)
  | v => .error (attributeError v "removeprefix")

def extraAdminRoles (domainId : String) : Except Exc (List Value) := do
  let ov := (config.tenantOverrides.get? domainId).getD (.dict [])
  (((← ov.get "extra_admin_roles").getD .null).orElse (.list [])).iter

def mapOidcRole (text : TextCase) (role : String) : Option String :=
  let lower := text.lower role
  let slug := text.lower config.rpSlug
  if lower = text.lower config.platformAdminRole then some "PLATFORM_ADMIN"
  else if slug ≠ "" ∧ lower = slug ++ "-admin" then some "ADMIN"
  else if slug ≠ "" ∧ lower = slug ++ "-auditor" then some "AUDITOR"
  else if slug ≠ "" ∧ lower = slug ++ "-user" then some "USER"
  else if config.acceptLegacyGlobalRoles ∧ text.upper role ∈ ["USER", "ADMIN", "AUDITOR"] then
    some (text.upper role)
  else none

def addRole (text : TextCase) (roles : List String) (r : Value) : Except Exc (List String) :=
  match r with
  | .str role =>
    .ok (match config.mapOidcRole text role with
      | some mapped => if mapped ∈ roles then roles else roles ++ [mapped]
      | none => roles)
  | v => .error (attributeError v "upper")

/-- The mapped roles; a `SERVICE` role is kept as it is. -/
def mapRoles (text : TextCase) (rawRoles : List Value) : Except Exc (List String) := do
  let roles ← rawRoles.foldlM (config.addRole text) []
  return if rawRoles.any (·.eq (.str "SERVICE")) ∧ "SERVICE" ∉ roles then roles ++ ["SERVICE"]
    else roles

/-- The service account of a client. A container cannot be looked up, and only texts are found. -/
def serviceAccount? (clientId : Value) : Except Exc (Option ServiceAccountConfig) :=
  match clientId with
  | .str c => .ok (config.serviceAccounts.get? c)
  | .list _ => .error (.typeError "unhashable type: 'list'")
  | .dict _ => .error (.typeError "unhashable type: 'dict'")
  | _ => .ok none

end AuthConfig

structure Grant where
  clearance : String
  department : Option String
  domainGroups : List String
  deriving DecidableEq

structure MembershipRow extends Grant where
  isActive : Bool

structure TenantRow where
  status : String
  enrollmentPolicy : String

/-- The tables that authentication reads; memberships are kept by user and domain. -/
structure AuthDb where
  memberships : Dict (String × String) MembershipRow
  tenants : Dict String TenantRow

inductive AuthError where
  | http (status : Nat) (detail : List (String × String))
  | raised (e : Exc)

abbrev AuthTask := Program AuthError AuthDb

structure UserContext where
  userId : Value
  domainId : String
  roles : List String
  clearance : Value
  department : Value
  domainGroups : List Value
  preferredUsername : Value
  email : Value
  rawClaims : Dict String Value

/-- The adapter with its token check, which answers with the claims of a token whose header, key,
signature, issuer and expiry are accepted, and with the errors of the database, if it raises. -/
structure AuthFusionAdapter where
  config : AuthConfig
  text : TextCase
  decode : String → Except AuthError (Dict String Value)
  hasSession : Bool := true
  loadFault : Option Exc := none
  enrollmentFault : Option Exc := none
  persistFault : Option Exc := none

def raising {A : Type} (r : Except Exc A) : AuthTask A :=
  Program.ofExcept (r.mapError .raised)

def http {A : Type} (status : Nat) (detail : List (String × String)) : AuthTask A :=
  throw (.http status detail)

namespace AuthFusionAdapter

variable (adapter : AuthFusionAdapter)

def get (claims : Dict String Value) (key : String) : Value := (claims.get? key).getD .null

def activeGrant (db : AuthDb) (userId domainId : String) : Option Grant :=
  match db.memberships.get? (userId, domainId) with
  | some row => if row.isActive then some row.toGrant else none
  | none => none

/-- The membership query; a user id that is no text is refused by the database. -/
def queryMembership (db : AuthDb) (sub : Value) (domainId : String) :
    Except Exc (Option Grant) :=
  match sub with
  | .str userId => .ok (activeGrant db userId domainId)
  | _ => .error ⟨"DBAPIError", "expected str"⟩

def loadMembership (sub : Value) (domainId : String) : AuthTask (Option Grant) :=
  if adapter.hasSession = false then http 500 [("error", "auth_db_session_unavailable")]
  else Program.failing (adapter.loadFault.map .raised) do
    let db ← MonadState.get
    raising (queryMembership db sub domainId)

def enrollment (db : AuthDb) (domainId : String) : Option String :=
  match db.tenants.get? domainId with
  | some row => if row.status = "active" then some row.enrollmentPolicy else none
  | none => none

def loadTenantEnrollment (domainId : String) : AuthTask (Option String) :=
  Program.failing (adapter.enrollmentFault.map .raised) do
    let db ← MonadState.get
    return enrollment db domainId

def defaultGrant : Grant := ⟨"internal", none, []⟩

/-- The row after the upsert of the default membership: one that exists is only activated. -/
def jitRow : Option MembershipRow → MembershipRow
  | some row => { row with isActive := true }
  | none => ⟨defaultGrant, true⟩

def jitUpsert (db : AuthDb) (userId domainId : String) : AuthDb :=
  let row := jitRow (db.memberships.get? (userId, domainId))
  { db with memberships := db.memberships.set (userId, domainId) row }

/-- The default membership is stored if the database answers; the request gets the default. -/
def createJitMembership (sub : Value) (domainId : String) : AuthTask Grant := do
  modify fun db => match sub, adapter.persistFault with
    | .str userId, none => jitUpsert db userId domainId
    | _, _ => db
  return defaultGrant

def isGlobal (roles : List String) : Bool :=
  roles.any fun r => r ∈ ["ADMIN", "AUDITOR", "PLATFORM_ADMIN"]

def globalGrant : Grant := ⟨"secret", none, []⟩

def grantFor (roles : List String) (sub : Value) (domainId : String) : AuthTask Grant := do
  match ← adapter.loadMembership sub domainId with
  | some grant => return grant
  | none =>
    if isGlobal roles then return globalGrant
    else
      if (← adapter.loadTenantEnrollment domainId) = some "open" then
        adapter.createJitMembership sub domainId
      else http 403 [("error", "no_tenant_membership"), ("domain_id", domainId)]

/-- The roles with `ADMIN`, where one of them is an extra admin role of the domain. -/
def withExtraAdmin (roles : List String) (extra : List Value) : List String :=
  if "ADMIN" ∉ roles ∧ extra.any (fun r => r.mem (roles.map Value.str)) then roles ++ ["ADMIN"]
  else roles

def tenantMismatch {A : Type} (tokenDomainId expected : String) : AuthTask A :=
  http 403 [("error", "tenant_mismatch"), ("token_domain_id", tokenDomainId),
    ("expected_domain_id", expected)]

/-- The domain of a registered account, or that of the client. -/
def serviceDomain (clientId : Value) (sa : Option ServiceAccountConfig) (expected : String) :
    Except Exc String :=
  match sa with
  | some sa => .ok sa.domainId
  | none => adapter.config.clientIdToDomainId clientId expected

def serviceContext (claims : Dict String Value) (clientId : Value) (roles : List String)
    (sa : Option ServiceAccountConfig) (expected : String) : UserContext where
  userId := (claims.get? "sub").getD clientId
  domainId := expected
  roles := match sa with
    | some sa => (roles ++ sa.roles).eraseDups
    | none => roles
  clearance := .str (match sa with
    | some sa => sa.clearance
    | none => "internal")
  department := .null
  domainGroups := []
  preferredUsername := get claims "preferred_username"
  email := get claims "email"
  rawClaims := claims

def extractService (claims : Dict String Value) (clientId : Value) (roles : List String)
    (sa : Option ServiceAccountConfig) (expected : String) : AuthTask UserContext := do
  let tokenDomainId ← raising (adapter.serviceDomain clientId sa expected)
  if tokenDomainId ≠ "platform" ∧ tokenDomainId ≠ expected then
    tenantMismatch tokenDomainId expected
  else return serviceContext claims clientId roles sa expected

def extractPlatform (claims : Dict String Value) (clientId : Value) (roles : List String)
    (tokenDomainId : String) : AuthTask UserContext := do
  let groups ← raising (((get claims "domain_groups").orElse (.list [])).iter)
  return {
    userId := (claims.get? "sub").getD clientId
    domainId := tokenDomainId
    roles := roles
    clearance := (claims.get? "clearance").getD (.str "internal")
    department := get claims "department"
    domainGroups := groups
    preferredUsername := get claims "preferred_username"
    email := get claims "email"
    rawClaims := claims }

def emailRefused (claims : Dict String Value) : Bool :=
  adapter.config.requireVerifiedEmail &&
    match claims.get? "email_verified" with
    | none => false
    | some (.bool true) => false
    | some _ => true

def extractUser (claims : Dict String Value) (roles : List String) (expected : String) :
    AuthTask UserContext := do
  if adapter.emailRefused claims then http 403 [("error", "email_not_verified")]
  else
    let sub := get claims "sub"
    if sub.truthy = false then http 401 [("error", "missing_sub_claim")]
    else
      let grant ← adapter.grantFor roles sub expected
      let extra ← raising (adapter.config.extraAdminRoles expected)
      return {
        userId := sub
        domainId := expected
        roles := withExtraAdmin roles extra
        clearance := .str grant.clearance
        department := (grant.department.map Value.str).getD .null
        domainGroups := grant.domainGroups.map Value.str
        preferredUsername := get claims "preferred_username"
        email := get claims "email"
        rawClaims := claims }

def clientOf (claims : Dict String Value) : Value :=
  (get claims "client_id").orElse (get claims "azp")

def rawRoles (claims : Dict String Value) : Except Exc (List Value) :=
  ((get claims "roles").orElse (.list [])).iter

def extract (claims : Dict String Value) (expected : String) : AuthTask UserContext := do
  let clientId := clientOf claims
  if clientId.truthy = false then http 401 [("error", "missing_client_id_claim")]
  else
    let raw ← raising (rawRoles claims)
    let roles ← raising (adapter.config.mapRoles adapter.text raw)
    let sa ← raising (adapter.config.serviceAccount? clientId)
    if sa.isSome ∨ "SERVICE" ∈ roles then
      adapter.extractService claims clientId roles sa expected
    else
      let tokenDomainId ← raising (adapter.config.clientIdToDomainId clientId expected)
      if expected = "__platform__" then extractPlatform claims clientId roles tokenDomainId
      else if tokenDomainId ≠ expected then tenantMismatch tokenDomainId expected
      else adapter.extractUser claims roles expected

def verifyAndExtract (token expected : String) : AuthTask UserContext := do
  let claims ← Program.ofExcept (adapter.decode token)
  adapter.extract claims expected

end AuthFusionAdapter

end DomainRag.Auth
