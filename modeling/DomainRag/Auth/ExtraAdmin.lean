import DomainRag.Auth.Revocation

/-! # The extra admin roles of a domain

A domain may list roles that are admin roles there. The list is compared with the roles that the
token's roles were mapped to, where only the service's own role names are left.
-/

namespace DomainRag.Auth

open Program

def UserContext.isPlatformAdmin (ctx : UserContext) : Bool := "PLATFORM_ADMIN" ∈ ctx.roles

def UserContext.isAdmin (ctx : UserContext) : Bool :=
  "ADMIN" ∈ ctx.roles || ctx.isPlatformAdmin

namespace AuthConfig

variable (config : AuthConfig) (text : TextCase) (raw extra : List Value)

/-- A role of the token makes its user an admin everywhere. -/
def AdminByRole : Prop :=
  ∃ role, .str role ∈ raw ∧ (config.mapOidcRole text role = some "ADMIN" ∨
    config.mapOidcRole text role = some "PLATFORM_ADMIN")

/-- A role of the token is listed. -/
def Listed : Prop := ∃ role, .str role ∈ raw ∧ .str role ∈ extra

/-- A role of the token maps to a listed name. -/
def ListedAsMapped : Prop :=
  ∃ role name, .str role ∈ raw ∧ config.mapOidcRole text role = some name ∧ .str name ∈ extra

/-- A user with a listed role is an admin, and one who has neither a listed role nor an admin's is
none. -/
structure HonoursExtraAdmins (ctx : UserContext) : Prop where
  listed : Listed raw extra → ctx.isAdmin = true
  others : ¬ config.AdminByRole text raw → ¬ Listed raw extra → ctx.isAdmin = false

variable {config text raw extra}

theorem mem_addRole {roles roles' : List String} {r : Value} (h : config.addRole text roles r = .ok roles')
    (name : String) : name ∈ roles' ↔
      name ∈ roles ∨ ∃ role, r = .str role ∧ config.mapOidcRole text role = some name := by
  cases r with
  | str role =>
    have hroles := Except.ok.inj h
    cases hmapped : config.mapOidcRole text role with
    | none =>
      rw [hmapped] at hroles
      rw [← hroles]
      refine ⟨.inl, fun h => h.resolve_right ?_⟩
      rintro ⟨_, ⟨⟩, hname⟩
      rw [hmapped] at hname
      cases hname
    | some mapped =>
      have hlast : (∃ role', Value.str role = .str role' ∧
          config.mapOidcRole text role' = some name) ↔ name = mapped := by
        constructor
        · rintro ⟨_, ⟨⟩, hname⟩
          exact Option.some.inj (hname.symm.trans hmapped)
        · rintro rfl
          exact ⟨role, rfl, hmapped⟩
      rw [hmapped] at hroles
      rw [← hroles, hlast]
      simp only
      split
      · rename_i hmem
        exact ⟨.inl, fun h => h.elim id fun heq => heq ▸ hmem⟩
      · rw [List.mem_append, List.mem_singleton]
  | null | bool | int | float | list | dict => cases h

theorem mem_mapRoles {roles : List String} (h : config.mapRoles text raw = .ok roles)
    (hservice : "SERVICE" ∉ roles) (name : String) : name ∈ roles ↔
      ∃ role, .str role ∈ raw ∧ config.mapOidcRole text role = some name := by
  obtain ⟨mapped, hmapped, h⟩ := Except.bind_eq_ok_iff.mp h
  have hroles : roles = mapped := by
    have hroles := (Except.ok.inj h).symm
    split at hroles
    · rw [hroles] at hservice
      exact absurd (List.mem_append_right mapped List.mem_cons_self) hservice
    · exact hroles
  have hfold : ∀ (rs : List Value) (roles roles' : List String),
      rs.foldlM (config.addRole text) roles = .ok roles' → (name ∈ roles' ↔ name ∈ roles ∨
        ∃ role, .str role ∈ rs ∧ config.mapOidcRole text role = some name) := by
    intro rs
    induction rs with
    | nil =>
      intro roles roles' h
      cases h
      exact ⟨.inl, fun h => h.resolve_right nofun⟩
    | cons r rs ih =>
      intro roles roles' h
      rw [List.foldlM_cons] at h
      obtain ⟨next, hnext, hrest⟩ := Except.bind_eq_ok_iff.mp h
      rw [ih next roles' hrest, mem_addRole hnext, or_assoc]
      refine or_congr_right ?_
      constructor
      · rintro (⟨role, rfl, hname⟩ | ⟨role, hrole, hname⟩)
        · exact ⟨role, List.mem_cons_self, hname⟩
        · exact ⟨role, List.mem_cons_of_mem r hrole, hname⟩
      · rintro ⟨role, hrole, hname⟩
        obtain heq | hrole := List.mem_cons.mp hrole
        · exact .inl ⟨role, heq.symm, hname⟩
        · exact .inr ⟨role, hrole, hname⟩
  rw [hroles, hfold raw [] mapped hmapped]
  exact or_iff_right List.not_mem_nil

end AuthConfig

namespace AuthFusionAdapter

variable {adapter : AuthFusionAdapter} {db : AuthDb} {claims : Dict String Value}
  {domainId : String} {roles : List String} {raw extra : List Value} {ctx : UserContext}

theorem ensures_extract_roles (visits : adapter.Visits claims domainId roles)
    (hextra : adapter.config.extraAdminRoles domainId = .ok extra) :
    Ensures (adapter.extract claims domainId) db
      (fun ctx _ => ctx.roles = withExtraAdmin roles extra) fun _ _ => True := by
  have hresolved := visits.resolved
  rw [extract]
  refine ensures_ite.mpr ⟨fun _ => trivial, fun _ => ?_⟩
  rw [ensures_bind, ensures_raising]
  refine ⟨fun raw hraw => ?_, fun _ _ => trivial⟩
  rw [ensures_bind, ensures_raising]
  refine ⟨fun roles' hroles => ?_, fun _ _ => trivial⟩
  obtain rfl : roles = roles' := hresolved.hasRoles.unique ⟨raw, hraw, hroles⟩
  rw [ensures_bind, ensures_raising]
  refine ⟨fun sa hsa => ?_, fun _ _ => trivial⟩
  obtain rfl : none = sa := Except.ok.inj (hresolved.account.symm.trans hsa)
  refine ensures_ite.mpr ⟨fun hservice => ?_, fun _ => ?_⟩
  · exact absurd (hservice.resolve_left Bool.false_ne_true) visits.noService
  · rw [ensures_bind, ensures_raising]
    refine ⟨fun tokenDomainId htoken => ?_, fun _ _ => trivial⟩
    obtain rfl : domainId = tokenDomainId := Except.ok.inj (visits.mapped.symm.trans htoken)
    refine ensures_ite.mpr ⟨fun hplatform => absurd hplatform visits.notPlatform, fun _ => ?_⟩
    refine ensures_ite.mpr ⟨fun hne => absurd rfl hne, fun _ => ?_⟩
    rw [extractUser]
    refine ensures_ite.mpr ⟨fun _ => trivial, fun _ => ensures_ite.mpr ⟨fun _ => trivial, fun _ => ?_⟩⟩
    rw [ensures_bind]
    refine ensures_grantFor.mono ?_ fun _ _ _ => trivial
    intro grant db' _
    rw [ensures_bind, ensures_raising]
    refine ⟨fun extra' hextra' => ?_, fun _ _ => trivial⟩
    obtain rfl : extra = extra' := Except.ok.inj (hextra.symm.trans hextra')
    rfl

theorem isAdmin_iff (hroles : ctx.roles = withExtraAdmin roles extra) : ctx.isAdmin = true ↔
    "ADMIN" ∈ roles ∨ "PLATFORM_ADMIN" ∈ roles ∨ ∃ name ∈ roles, .str name ∈ extra := by
  have hextra : extra.any (fun r => r.mem (roles.map Value.str)) = true ↔
      ∃ name ∈ roles, .str name ∈ extra := by
    simp only [List.any_eq_true, Value.mem_map_str_iff]
    constructor
    · rintro ⟨_, hmem, name, hname, rfl⟩
      exact ⟨name, hname, hmem⟩
    · rintro ⟨name, hname, hmem⟩
      exact ⟨.str name, hmem, name, hname, rfl⟩
  rw [UserContext.isAdmin, UserContext.isPlatformAdmin, hroles, withExtraAdmin, Bool.or_eq_true,
    decide_eq_true_eq, decide_eq_true_eq, ← hextra]
  split
  · rename_i h
    refine iff_of_true ?_ (.inr (.inr h.2))
    exact .inl (List.mem_append_right roles List.mem_cons_self)
  · rename_i h
    constructor
    · exact fun hor => hor.imp_right .inl
    · rintro (hadmin | hplatform | hlisted)
      · exact .inl hadmin
      · exact .inr hplatform
      · exact .inl (not_not.mp fun hadmin => h ⟨hadmin, hlisted⟩)

/-- The list of a domain is honoured for a user exactly if the user is an admin without it, or a
listed role of the token is worth as much as a role that maps to a listed name. -/
theorem honoursExtraAdmins_iff {token : String} (hdecode : adapter.decode token = .ok claims)
    (visits : adapter.Visits claims domainId roles) (hraw : rawRoles claims = .ok raw)
    (hextra : adapter.config.extraAdminRoles domainId = .ok extra)
    (hctx : (adapter.verifyAndExtract token domainId).result? db = some ctx) :
    adapter.config.HonoursExtraAdmins adapter.text raw extra ctx ↔
      adapter.config.AdminByRole adapter.text raw ∨
        (AuthConfig.Listed raw extra ↔ adapter.config.ListedAsMapped adapter.text raw extra) := by
  have hroles : ctx.roles = withExtraAdmin roles extra := by
    have hverify : Ensures (adapter.verifyAndExtract token domainId) db
        (fun ctx _ => ctx.roles = withExtraAdmin roles extra) fun _ _ => True := by
      rw [verifyAndExtract, ensures_bind, hdecode]
      exact ensures_extract_roles visits hextra
    exact hverify.of_result? hctx
  obtain ⟨raw', hraw', hmap⟩ := visits.resolved.hasRoles
  obtain rfl : raw = raw' := Except.ok.inj (hraw.symm.trans hraw')
  have hmem := AuthConfig.mem_mapRoles hmap visits.noService
  have hadmin : ctx.isAdmin = true ↔ adapter.config.AdminByRole adapter.text raw ∨
      adapter.config.ListedAsMapped adapter.text raw extra := by
    rw [isAdmin_iff hroles, ← or_assoc]
    simp only [hmem]
    refine or_congr ?_ ?_
    · constructor
      · rintro (⟨role, hrole, hname⟩ | ⟨role, hrole, hname⟩)
        · exact ⟨role, hrole, .inl hname⟩
        · exact ⟨role, hrole, .inr hname⟩
      · rintro ⟨role, hrole, hname | hname⟩
        · exact .inl ⟨role, hrole, hname⟩
        · exact .inr ⟨role, hrole, hname⟩
    · constructor
      · rintro ⟨name, ⟨role, hrole, hname⟩, hlisted⟩
        exact ⟨role, name, hrole, hname, hlisted⟩
      · rintro ⟨role, name, hrole, hname, hlisted⟩
        exact ⟨name, ⟨role, hrole, hname⟩, hlisted⟩
  constructor
  · intro h
    by_cases hrole : adapter.config.AdminByRole adapter.text raw
    · exact .inl hrole
    · refine .inr ⟨fun hlisted => (hadmin.mp (h.listed hlisted)).resolve_left hrole, fun hmapped => ?_⟩
      by_contra hlisted
      exact absurd (hadmin.mpr (.inr hmapped)) (by rw [h.others hrole hlisted]; decide)
  · intro h
    constructor
    · exact fun hlisted => hadmin.mpr (h.imp_right fun hiff => hiff.mp hlisted)
    · intro hrole hlisted
      rw [← Bool.not_eq_true, hadmin]
      rintro (hrole' | hmapped)
      · exact hrole hrole'
      · exact hlisted ((h.resolve_left hrole).mpr hmapped)

section Manager

/-- The domain takes its managers for admins. -/
def managed (claims : Dict String Value) (extra : List Value) : AuthFusionAdapter :=
  let adapter := reading claims
  { adapter with config := { adapter.config with
      tenantOverrides := .ofList [("legal", .dict [("extra_admin_roles", .list extra)])] } }

def managerClaims (role : String) : Dict String Value :=
  .ofList [("client_id", .str "portal"), ("sub", .str "clerk"), ("roles", .list [.str role])]

theorem visits_managed (role : String) (extra : List Value) (roles : List String)
    (hroles : (managed (managerClaims role) extra).config.mapRoles asciiCase [.str role] = .ok roles)
    (hservice : "SERVICE" ∉ roles) :
    (managed (managerClaims role) extra).Visits (managerClaims role) "legal" roles where
  resolved := ⟨rfl, ⟨[.str role], rfl, hroles⟩, rfl⟩
  noService := hservice
  mapped := rfl
  notPlatform := by decide
  email := rfl

/-- A manager is no admin, although the role is listed. -/
theorem listed_role_is_dropped : ∃ ctx, ((managed (managerClaims "hr-manager")
      [.str "hr-manager"]).verifyAndExtract "token" "legal").result? staffed = some ctx ∧
    ¬ (managed (managerClaims "hr-manager") [.str "hr-manager"]).config.HonoursExtraAdmins asciiCase
      [.str "hr-manager"] [.str "hr-manager"] ctx := by
  have haccepted : (((managed (managerClaims "hr-manager") [.str "hr-manager"]).verifyAndExtract
      "token" "legal").result? staffed).any (fun ctx => !ctx.isAdmin) = true := by decide +kernel
  obtain ⟨ctx, hctx, hadmin⟩ := (Option.any_eq_true _ _).mp haccepted
  refine ⟨ctx, hctx, fun h => ?_⟩
  rw [h.listed ⟨"hr-manager", List.mem_cons_self, List.mem_cons_self⟩] at hadmin
  cases hadmin

/-- A listed role that maps to itself is honoured. -/
theorem honoursExtraAdmins_users : ∃ ctx, ((managed (managerClaims "USER")
      [.str "USER"]).verifyAndExtract "token" "legal").result? staffed = some ctx ∧
    (managed (managerClaims "USER") [.str "USER"]).config.HonoursExtraAdmins asciiCase
      [.str "USER"] [.str "USER"] ctx := by
  have haccepted : (((managed (managerClaims "USER") [.str "USER"]).verifyAndExtract
      "token" "legal").result? staffed).isSome = true := by decide +kernel
  obtain ⟨ctx, hctx⟩ := Option.isSome_iff_exists.mp haccepted
  have hmap : (managed (managerClaims "USER") [.str "USER"]).config.mapOidcRole asciiCase "USER" =
      some "USER" := by decide +kernel
  refine ⟨ctx, hctx, (honoursExtraAdmins_iff rfl (visits_managed "USER" [.str "USER"] ["USER"]
    (by decide +kernel) (by decide)) rfl rfl hctx).mpr (.inr ⟨fun _ => ?_, fun _ => ?_⟩)⟩
  · exact ⟨"USER", "USER", List.mem_cons_self, hmap, List.mem_cons_self⟩
  · exact ⟨"USER", List.mem_cons_self, List.mem_cons_self⟩

end Manager

end AuthFusionAdapter

end DomainRag.Auth
