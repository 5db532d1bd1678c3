import DomainRag.Auth.Outcome

/-! # Tenant isolation of authentication

A token is accepted for a domain only through a service account that is bound to it, or through a
client that maps to it and a user with rights there. The one way around is a client without an
account whose name maps to `platform`: with the `SERVICE` role it is accepted everywhere.
-/

namespace DomainRag.Auth

open Program

namespace AuthFusionAdapter

def ActiveMember (db : AuthDb) (claims : Dict String Value) (domainId : String) : Prop :=
  ∃ userId row, get claims "sub" = .str userId ∧
    db.memberships.get? (userId, domainId) = some row ∧ row.isActive = true

/-- A user of the domain: a service, a member, a holder of a global role, or anyone where the
domain enrolls everyone. -/
def Entitled (adapter : AuthFusionAdapter) (db : AuthDb) (claims : Dict String Value)
    (domainId : String) : Prop :=
  ∃ roles, adapter.HasRoles claims roles ∧ ("SERVICE" ∈ roles ∨ ActiveMember db claims domainId ∨
    isGlobal roles = true ∨ OpenDomain db domainId)

/-- What makes a token acceptable for a domain. The second clause says that a client that is no
registered platform account is only taken at a domain that it maps to or is bound to. -/
structure Isolated (adapter : AuthFusionAdapter) (db : AuthDb) (claims : Dict String Value)
    (domainId client : String) : Prop where
  admissible : (∃ sa, adapter.config.serviceAccounts.get? client = some sa ∧
      (sa.domainId = "platform" ∨ sa.domainId = domainId)) ∨
    adapter.config.clientDomain client domainId = domainId ∧ adapter.Entitled db claims domainId
  mapped : (∀ sa, adapter.config.serviceAccounts.get? client = some sa →
      sa.domainId ≠ "platform") →
    adapter.config.clientDomain client domainId = domainId ∨
      ∃ sa, adapter.config.serviceAccounts.get? client = some sa ∧ sa.domainId = domainId

/-- A token with the `SERVICE` role whose client has no account and maps to `platform`. -/
def PlatformWildcard (adapter : AuthFusionAdapter) (claims : Dict String Value)
    (domainId : String) : Prop :=
  domainId ≠ "platform" ∧ ∃ client roles, clientOf claims = .str client ∧ client ≠ "" ∧
    adapter.HasRoles claims roles ∧ "SERVICE" ∈ roles ∧
    adapter.config.serviceAccounts.get? client = none ∧
    adapter.config.clientDomain client domainId = "platform"

section Branches

variable {adapter : AuthFusionAdapter} {db : AuthDb} {claims : Dict String Value}
  {domainId client : String} {roles : List String}

theorem isolated_of_account {sa : ServiceAccountConfig}
    (hsa : adapter.config.serviceAccounts.get? client = some sa)
    (hdomain : sa.domainId = "platform" ∨ sa.domainId = domainId) :
    adapter.Isolated db claims domainId client := by
  refine ⟨.inl ⟨sa, hsa, hdomain⟩, ?_⟩
  intro hnot
  obtain hplatform | hbound := hdomain
  · exact absurd hplatform (hnot sa hsa)
  · exact .inr ⟨sa, hsa, hbound⟩

theorem isolated_of_mapped (hdomain : adapter.config.clientDomain client domainId = domainId)
    (h : adapter.Entitled db claims domainId) : adapter.Isolated db claims domainId client :=
  ⟨.inr ⟨hdomain, h⟩, fun _ => .inl hdomain⟩

theorem Granted.entitled {grant : Grant} {db' : AuthDb} (hroles : adapter.HasRoles claims roles)
    (h : Granted adapter db roles (get claims "sub") domainId grant db') :
    adapter.Entitled db claims domainId := by
  cases h with
  | member userId grant hsub hactive =>
    obtain ⟨row, hrow, hrowActive, -⟩ := activeGrant_eq_some_iff.mp hactive
    exact ⟨roles, hroles, .inr (.inl ⟨userId, row, hsub, hrow, hrowActive⟩)⟩
  | global hglobal => exact ⟨roles, hroles, .inr (.inr (.inl hglobal))⟩
  | enrolled userId _ _ _ _ hopen => exact ⟨roles, hroles, .inr (.inr (.inr hopen))⟩

theorem serviceAccount_some {clientId : Value} {sa : ServiceAccountConfig}
    (h : adapter.config.serviceAccount? clientId = .ok (some sa)) :
    ∃ client, clientId = .str client ∧ adapter.config.serviceAccounts.get? client = some sa := by
  unfold AuthConfig.serviceAccount? at h
  split at h
  · exact ⟨_, rfl, Except.ok.inj h⟩
  · cases h
  · cases h
  · cases h

/-- Every accepted token is isolated or uses the wildcard. -/
theorem Outcome.isolated {ctx : UserContext} {db' : AuthDb} (hdomain : domainId ≠ "__platform__")
    (h : Outcome adapter db claims domainId ctx db') :
    (∃ client, clientOf claims = .str client ∧ adapter.Isolated db claims domainId client) ∨
      adapter.PlatformWildcard claims domainId := by
  cases h with
  | service roles sa tokenDomainId _ resolved hservice htoken hbound =>
    cases sa with
    | some sa =>
      obtain ⟨client, hclient, hsa⟩ := serviceAccount_some resolved.account
      obtain rfl : sa.domainId = tokenDomainId := Except.ok.inj htoken
      exact .inl ⟨client, hclient, isolated_of_account hsa hbound⟩
    | none =>
      have hrole : "SERVICE" ∈ roles := hservice.resolve_left Bool.false_ne_true
      obtain ⟨client, hclient, rfl⟩ := clientIdToDomainId_ok htoken
      by_cases hmapped : adapter.config.clientDomain client domainId = domainId
      · exact .inl ⟨client, hclient,
          isolated_of_mapped hmapped ⟨roles, resolved.hasRoles, .inl hrole⟩⟩
      · have hplatform := hbound.resolve_right hmapped
        have htruthy := resolved.truthy
        have haccount := resolved.account
        rw [hclient] at htruthy haccount
        refine .inr ⟨?_, client, roles, hclient, of_decide_eq_true htruthy, resolved.hasRoles, hrole,
          Except.ok.inj haccount, hplatform⟩
        rintro rfl
        exact hmapped hplatform
  | platform _ hplatform => exact absurd hplatform hdomain
  | user roles grant _ _ visits granted _ =>
    obtain ⟨client, hclient, hmapped⟩ := clientIdToDomainId_ok visits.mapped
    exact .inl ⟨client, hclient,
      isolated_of_mapped hmapped (granted.entitled visits.resolved.hasRoles)⟩

theorem not_isolated_of_wildcard (h : adapter.PlatformWildcard claims domainId) :
    ¬ ∃ client, clientOf claims = .str client ∧ adapter.Isolated db claims domainId client := by
  obtain ⟨hdomain, client, roles, hclient, -, -, -, hnone, hplatform⟩ := h
  rintro ⟨client', hclient', hisolated⟩
  obtain rfl : client = client' := Value.str.inj (hclient.symm.trans hclient')
  obtain ⟨sa, hsa, -⟩ | ⟨hmapped, -⟩ := hisolated.admissible
  · rw [hnone] at hsa
    cases hsa
  · exact hdomain (hmapped.symm.trans hplatform)

theorem ensures_extract_of_wildcard (h : adapter.PlatformWildcard claims domainId) :
    Ensures (adapter.extract claims domainId) db (fun _ _ => True) fun _ _ => False := by
  obtain ⟨-, client, roles, hclient, hname, ⟨raw, hraw, hmap⟩, hrole, hnone, hplatform⟩ := h
  have htruthy : (clientOf claims).truthy = true := by
    rw [hclient]
    exact decide_eq_true hname
  have hsa : adapter.config.serviceAccount? (clientOf claims) = .ok none := by
    rw [hclient]
    exact congrArg Except.ok hnone
  have hservice : adapter.serviceDomain (clientOf claims) none domainId = .ok "platform" := by
    rw [hclient]
    exact congrArg Except.ok hplatform
  rw [extract]
  refine ensures_ite.mpr ⟨fun hfalsy => absurd htruthy (Bool.eq_false_iff.mp hfalsy), fun _ => ?_⟩
  simp only [ensures_bind, hraw, hmap, hsa, raising, Except.mapError, ensures_ofExcept,
    Except.ok.injEq, forall_eq', reduceCtorEq, false_implies, implies_true, and_true]
  refine ensures_ite.mpr ⟨fun _ => ?_, fun hnot => absurd (.inr hrole) hnot⟩
  rw [extractService, ensures_bind, ensures_raising, hservice]
  constructor
  · rintro _ ⟨⟩
    exact ensures_ite.mpr ⟨fun hmismatch => hmismatch.1 rfl, fun _ => trivial⟩
  · rintro _ ⟨⟩

end Branches

/-- For every accepted claim set, every config, every state of the tables and every domain: a
token is accepted only where it is isolated, exactly when it does not use the wildcard. -/
theorem accepted_isolated_iff (adapter : AuthFusionAdapter) (db : AuthDb)
    (token domainId : String) (claims : Dict String Value)
    (hdecode : adapter.decode token = .ok claims) (hdomain : domainId ≠ "__platform__") :
    (∀ ctx, (adapter.verifyAndExtract token domainId).result? db = some ctx →
      ∃ client, clientOf claims = .str client ∧ adapter.Isolated db claims domainId client) ↔
      ¬ adapter.PlatformWildcard claims domainId := by
  have hverify : ∀ Q R, Ensures (adapter.extract claims domainId) db Q R →
      Ensures (adapter.verifyAndExtract token domainId) db Q R := by
    intro Q R h
    rw [verifyAndExtract, ensures_bind, hdecode]
    exact h
  constructor
  · intro h hwildcard
    obtain ⟨ctx, hctx⟩ := (hverify _ _ (ensures_extract_of_wildcard hwildcard)).exists_result
    exact not_isolated_of_wildcard hwildcard (h ctx hctx)
  · intro hwildcard ctx hctx
    have houtcome := (hverify _ _ ensures_extract).of_result? hctx
    exact (houtcome.isolated hdomain).resolve_right hwildcard

section Clerk

def asciiCase : TextCase where
  upper s := String.ofList (s.toList.map Char.toUpper)
  lower s := String.ofList (s.toList.map Char.toLower)

def reading (claims : Dict String Value) : AuthFusionAdapter where
  config :=
    { rpSlug := "domainrag-ops"
      platformAdminRole := "PLATFORM_ADMIN"
      requireVerifiedEmail := true
      clientTenantMap := .ofList [("portal", ["hr", "legal"])]
      serviceAccounts := .empty }
  text := asciiCase
  decode _ := .ok claims

def clerkClaims : Dict String Value :=
  .ofList [("client_id", .str "portal"), ("sub", .str "clerk"), ("roles", .list [.str "USER"])]

def platformClaims : Dict String Value :=
  .ofList [("client_id", .str "client-platform"), ("sub", .str "job"),
    ("roles", .list [.str "SERVICE"])]

def staffed : AuthDb where
  memberships := .ofList [(("clerk", "legal"), ⟨⟨"confidential", none, []⟩, true⟩)]
  tenants := .empty

/-- A client that nobody registered is accepted for a domain that it does not map to. -/
theorem unregistered_platform_client_accepted :
    (((reading platformClaims).verifyAndExtract "token" "legal").result? staffed).isSome = true ∧
      ¬ ∃ client, clientOf platformClaims = .str client ∧
        (reading platformClaims).Isolated staffed platformClaims "legal" client := by
  have hwildcard : (reading platformClaims).PlatformWildcard platformClaims "legal" := by
    refine ⟨by decide, "client-platform", ["SERVICE"], rfl, by decide, ⟨[.str "SERVICE"], rfl, ?_⟩,
      by decide, rfl, by decide⟩
    rfl
  refine ⟨?_, not_isolated_of_wildcard hwildcard⟩
  decide +kernel

/-- A member of one of the domains of a shared client. -/
theorem clerk_accepted_isolated :
    (((reading clerkClaims).verifyAndExtract "token" "legal").result? staffed).isSome = true ∧
      ∀ ctx, ((reading clerkClaims).verifyAndExtract "token" "legal").result? staffed = some ctx →
        ∃ client, clientOf clerkClaims = .str client ∧
          (reading clerkClaims).Isolated staffed clerkClaims "legal" client := by
  refine ⟨by decide +kernel, (accepted_isolated_iff (reading clerkClaims) staffed "token" "legal"
    clerkClaims rfl (by decide)).mpr ?_⟩
  rintro ⟨-, client, roles, hclient, -, -, -, -, hplatform⟩
  obtain rfl : "portal" = client := Value.str.inj hclient
  exact absurd hplatform (by decide)

end Clerk

end AuthFusionAdapter

end DomainRag.Auth
