import DomainRag.Auth.Adapter

/-! # How a request can be accepted

A request is accepted as a service, as a visitor of the platform console, or as a user of the
domain with the rights of a membership, of a global role or of a first visit to an open domain.
Only the last of these writes, and only to the membership table.
-/

namespace DomainRag.Auth

open Program

structure UserContext.Carries (ctx : UserContext) (grant : Grant) : Prop where
  clearance : ctx.clearance = .str grant.clearance
  department : ctx.department = (grant.department.map Value.str).getD .null
  domainGroups : ctx.domainGroups = grant.domainGroups.map Value.str

namespace AuthFusionAdapter

def HasRoles (adapter : AuthFusionAdapter) (claims : Dict String Value) (roles : List String) :
    Prop :=
  ∃ raw, rawRoles claims = .ok raw ∧ adapter.config.mapRoles adapter.text raw = .ok roles

def OpenDomain (db : AuthDb) (domainId : String) : Prop :=
  ∃ row, db.tenants.get? domainId = some row ∧ row.status = "active" ∧
    row.enrollmentPolicy = "open"

def enrolledDb (adapter : AuthFusionAdapter) (db : AuthDb) (userId domainId : String) : AuthDb :=
  match adapter.persistFault with
  | none => jitUpsert db userId domainId
  | some _ => db

/-- The queries before the default membership is stored are answered. -/
structure Reads (adapter : AuthFusionAdapter) : Prop where
  session : adapter.hasSession = true
  load : adapter.loadFault = none
  enrollment : adapter.enrollmentFault = none

inductive Granted (adapter : AuthFusionAdapter) (db : AuthDb) (roles : List String) (sub : Value)
    (domainId : String) : Grant → AuthDb → Prop where
  | member (userId : String) (grant : Grant) (hsub : sub = .str userId)
      (hactive : activeGrant db userId domainId = some grant) :
      Granted adapter db roles sub domainId grant db
  | global (hglobal : isGlobal roles = true) :
      Granted adapter db roles sub domainId globalGrant db
  | enrolled (userId : String) (hreads : adapter.Reads) (hsub : sub = .str userId)
      (hnone : activeGrant db userId domainId = none) (hglobal : isGlobal roles = false)
      (hopen : OpenDomain db domainId) :
      Granted adapter db roles sub domainId defaultGrant (adapter.enrolledDb db userId domainId)

/-- The client, the roles and the service account of a token. -/
structure Resolved (adapter : AuthFusionAdapter) (claims : Dict String Value)
    (roles : List String) (sa : Option ServiceAccountConfig) : Prop where
  truthy : (clientOf claims).truthy = true
  hasRoles : adapter.HasRoles claims roles
  account : adapter.config.serviceAccount? (clientOf claims) = .ok sa

/-- A user's token for a domain that its client maps to, up to the point where the rights are
looked up. -/
structure Visits (adapter : AuthFusionAdapter) (claims : Dict String Value)
    (domainId : String) (roles : List String) : Prop where
  resolved : adapter.Resolved claims roles none
  noService : "SERVICE" ∉ roles
  mapped : adapter.config.clientIdToDomainId (clientOf claims) domainId = .ok domainId
  notPlatform : domainId ≠ "__platform__"
  email : adapter.emailRefused claims = false

inductive Outcome (adapter : AuthFusionAdapter) (db : AuthDb) (claims : Dict String Value)
    (domainId : String) : UserContext → AuthDb → Prop where
  | service (roles : List String) (sa : Option ServiceAccountConfig) (tokenDomainId : String)
      (ctx : UserContext) (resolved : adapter.Resolved claims roles sa)
      (hservice : sa.isSome ∨ "SERVICE" ∈ roles)
      (htoken : adapter.serviceDomain (clientOf claims) sa domainId = .ok tokenDomainId)
      (hdomain : tokenDomainId = "platform" ∨ tokenDomainId = domainId) :
      Outcome adapter db claims domainId ctx db
  | platform (ctx : UserContext) (hdomain : domainId = "__platform__") :
      Outcome adapter db claims domainId ctx db
  | user (roles : List String) (grant : Grant) (ctx : UserContext) (db' : AuthDb)
      (visits : adapter.Visits claims domainId roles)
      (granted : Granted adapter db roles (get claims "sub") domainId grant db')
      (carries : ctx.Carries grant) : Outcome adapter db claims domainId ctx db'

/-- A request that is refused leaves the tables alone, unless it raises after a first visit. -/
def Refused (adapter : AuthFusionAdapter) (db : AuthDb) (claims : Dict String Value)
    (domainId : String) (db' : AuthDb) : Prop :=
  db' = db ∨ ∃ roles grant, adapter.Visits claims domainId roles ∧
    Granted adapter db roles (get claims "sub") domainId grant db'

section Branches

variable {adapter : AuthFusionAdapter} {db : AuthDb} {claims : Dict String Value}
  {domainId : String} {roles : List String}

theorem ensures_raising {A : Type} {r : Except Exc A} {s : AuthDb} {Q : A → AuthDb → Prop}
    {R : AuthError → AuthDb → Prop} :
    Ensures (raising r) s Q R ↔
      (∀ a, r = .ok a → Q a s) ∧ ∀ e, r = .error e → R (.raised e) s := by
  rw [raising, ensures_ofExcept]
  simp only [Except.mapError_eq_ok_iff, Except.mapError_eq_error_iff]
  constructor
  · rintro ⟨hok, herror⟩
    exact ⟨hok, fun e he => herror (.raised e) ⟨e, he, rfl⟩⟩
  · rintro ⟨hok, herror⟩
    refine ⟨hok, ?_⟩
    rintro _ ⟨e, he, rfl⟩
    exact herror e he

theorem clientIdToDomainId_ok {config : AuthConfig} {clientId : Value} {tokenDomainId : String}
    (h : config.clientIdToDomainId clientId domainId = .ok tokenDomainId) :
    ∃ client, clientId = .str client ∧ config.clientDomain client domainId = tokenDomainId := by
  unfold AuthConfig.clientIdToDomainId at h
  split at h
  · exact ⟨_, rfl, Except.ok.inj h⟩
  · cases h

theorem activeGrant_eq_some_iff {userId : String} {grant : Grant} :
    activeGrant db userId domainId = some grant ↔
      ∃ row, db.memberships.get? (userId, domainId) = some row ∧ row.isActive = true ∧
        row.toGrant = grant := by
  unfold activeGrant
  cases db.memberships.get? (userId, domainId) with
  | none => exact ⟨nofun, nofun⟩
  | some row =>
    constructor
    · intro h
      dsimp only at h
      split at h
      · rename_i hactive
        exact ⟨row, rfl, hactive, Option.some.inj h⟩
      · cases h
    · rintro ⟨_, ⟨⟩, hactive, hgrant⟩
      exact (if_pos hactive).trans (congrArg some hgrant)

theorem openDomain_of_enrollment (h : enrollment db domainId = some "open") :
    OpenDomain db domainId := by
  unfold enrollment at h
  split at h
  · rename_i row hrow
    split at h
    · rename_i hactive
      exact ⟨row, hrow, hactive, Option.some.inj h⟩
    · cases h
  · cases h

theorem queryMembership_ok {sub : Value} {found : Option Grant}
    (h : queryMembership db sub domainId = .ok found) :
    ∃ userId, sub = .str userId ∧ activeGrant db userId domainId = found := by
  unfold queryMembership at h
  split at h
  · exact ⟨_, rfl, Except.ok.inj h⟩
  · cases h

theorem ensures_grantFor {sub : Value} :
    Ensures (adapter.grantFor roles sub domainId) db
      (fun grant db' => Granted adapter db roles sub domainId grant db') fun _ db' => db' = db := by
  rw [grantFor, ensures_bind, loadMembership]
  refine ensures_ite.mpr ⟨fun _ => rfl, fun hsession => ?_⟩
  rw [ensures_failing]
  refine ⟨fun _ _ => rfl, fun hload => ?_⟩
  rw [ensures_bind, ensures_get, ensures_raising]
  refine ⟨fun found hfound => ?_, fun _ _ => rfl⟩
  obtain ⟨userId, rfl, hactive⟩ := queryMembership_ok hfound
  cases found with
  | some grant => exact .member userId grant rfl hactive
  | none =>
    refine ensures_ite.mpr ⟨fun hglobal => .global hglobal, fun hglobal => ?_⟩
    rw [ensures_bind, loadTenantEnrollment, ensures_failing]
    refine ⟨fun _ _ => rfl, fun henrollment => ?_⟩
    have hreads : adapter.Reads := ⟨Bool.not_eq_false _ ▸ hsession, Option.map_eq_none_iff.mp hload,
      Option.map_eq_none_iff.mp henrollment⟩
    rw [ensures_bind, ensures_get]
    refine ensures_ite.mpr ⟨fun hopen => ?_, fun _ => rfl⟩
    have henrolled : Granted adapter db roles (.str userId) domainId defaultGrant
        (adapter.enrolledDb db userId domainId) :=
      .enrolled userId hreads rfl hactive (Bool.not_eq_true _ ▸ hglobal) (openDomain_of_enrollment hopen)
    rw [createJitMembership, ensures_bind, ensures_modify]
    unfold enrolledDb at henrolled
    cases hfault : adapter.persistFault with
    | none =>
      rw [hfault] at henrolled
      exact henrolled
    | some e =>
      rw [hfault] at henrolled
      exact henrolled

theorem ensures_extractUser (visits : adapter.Resolved claims roles none)
    (noService : "SERVICE" ∉ roles)
    (mapped : adapter.config.clientIdToDomainId (clientOf claims) domainId = .ok domainId)
    (notPlatform : domainId ≠ "__platform__") :
    Ensures (adapter.extractUser claims roles domainId) db (Outcome adapter db claims domainId)
      fun _ => Refused adapter db claims domainId := by
  rw [extractUser]
  refine ensures_ite.mpr ⟨fun _ => .inl rfl, fun hemail => ?_⟩
  refine ensures_ite.mpr ⟨fun _ => .inl rfl, fun _ => ?_⟩
  have hvisits : adapter.Visits claims domainId roles :=
    ⟨visits, noService, mapped, notPlatform, Bool.not_eq_true _ ▸ hemail⟩
  rw [ensures_bind]
  refine ensures_grantFor.mono ?_ fun _ _ hsame => .inl hsame
  intro grant db' hgranted
  rw [ensures_bind, ensures_raising]
  exact ⟨fun _ _ => .user roles grant _ db' hvisits hgranted ⟨rfl, rfl, rfl⟩,
    fun _ _ => .inr ⟨roles, grant, hvisits, hgranted⟩⟩

theorem ensures_extract :
    Ensures (adapter.extract claims domainId) db (Outcome adapter db claims domainId)
      fun _ => Refused adapter db claims domainId := by
  rw [extract]
  refine ensures_ite.mpr ⟨fun _ => .inl rfl, fun htruthy => ?_⟩
  rw [ensures_bind, ensures_raising]
  refine ⟨fun raw hraw => ?_, fun _ _ => .inl rfl⟩
  rw [ensures_bind, ensures_raising]
  refine ⟨fun roles hroles => ?_, fun _ _ => .inl rfl⟩
  rw [ensures_bind, ensures_raising]
  refine ⟨fun sa hsa => ?_, fun _ _ => .inl rfl⟩
  have hresolved : adapter.Resolved claims roles sa :=
    ⟨Bool.not_eq_false _ ▸ htruthy, ⟨raw, hraw, hroles⟩, hsa⟩
  refine ensures_ite.mpr ⟨fun hservice => ?_, fun hnot => ?_⟩
  · rw [extractService, ensures_bind, ensures_raising]
    refine ⟨fun tokenDomainId htoken => ?_, fun _ _ => .inl rfl⟩
    refine ensures_ite.mpr ⟨fun _ => .inl rfl, fun hdomain => ?_⟩
    refine .service roles sa tokenDomainId _ hresolved hservice htoken ?_
    by_contra hneither
    exact hdomain (not_or.mp hneither)
  · obtain ⟨hnone, hrole⟩ := not_or.mp hnot
    obtain rfl : sa = none := by simpa using hnone
    rw [ensures_bind, ensures_raising]
    refine ⟨fun tokenDomainId htoken => ?_, fun _ _ => .inl rfl⟩
    refine ensures_ite.mpr ⟨fun hplatform => ?_, fun hplatform => ?_⟩
    · rw [extractPlatform, ensures_bind, ensures_raising]
      exact ⟨fun _ _ => .platform _ hplatform, fun _ _ => .inl rfl⟩
    · refine ensures_ite.mpr ⟨fun _ => .inl rfl, fun hsame => ?_⟩
      obtain rfl : tokenDomainId = domainId := not_not.mp hsame
      exact ensures_extractUser hresolved hrole htoken hplatform

end Branches

end AuthFusionAdapter

end DomainRag.Auth
