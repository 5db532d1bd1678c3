import DomainRag.Auth.Isolation

/-! # Revoked memberships

A revoked row is kept and only loses its active flag. What a later request by the same user may
still be granted depends on the first visit to an open domain: it activates the kept row as it is.
-/

namespace DomainRag.Auth

open Program

namespace MembershipService

def assign (db : AuthDb) (userId domainId : String) (grant : Grant) : AuthDb :=
  { db with memberships := db.memberships.set (userId, domainId) { grant with isActive := true } }

/-- Whether an active row was found, and the tables with the row deactivated. -/
def revoke (db : AuthDb) (userId domainId : String) : Bool × AuthDb :=
  match db.memberships.get? (userId, domainId) with
  | some row =>
    if row.isActive then
      let memberships := db.memberships.set (userId, domainId) { row with isActive := false }
      (true, { db with memberships := memberships })
    else (false, db)
  | none => (false, db)

end MembershipService

inductive AccessOp where
  | assign (userId domainId : String) (grant : Grant)
  | revoke (userId domainId : String)
  | request (adapter : AuthFusionAdapter) (token domainId : String)

namespace AccessOp

def after (db : AuthDb) : AccessOp → AuthDb
  | .assign userId domainId grant => MembershipService.assign db userId domainId grant
  | .revoke userId domainId => (MembershipService.revoke db userId domainId).2
  | .request adapter token domainId => (adapter.verifyAndExtract token domainId).final db

/-- A first visit of the user to the domain whose write gets through, and so activates a kept row,
finds one with no more than the default rights. -/
def Guarded (userId domainId : String) (db : AuthDb) : AccessOp → Prop
  | .assign _ _ _ | .revoke _ _ => True
  | .request adapter token d =>
    ∀ claims roles row, d = domainId → adapter.decode token = .ok claims →
      adapter.Visits claims d roles → AuthFusionAdapter.isGlobal roles = false →
      AuthFusionAdapter.get claims "sub" = .str userId →
      AuthFusionAdapter.OpenDomain db d → adapter.Reads → adapter.persistFault = none →
      db.memberships.get? (userId, d) = some row → row.isActive = false →
      row.toGrant = AuthFusionAdapter.defaultGrant

def LeavesRevoked (userId domainId : String) (op : AccessOp) : Prop :=
  ∀ grant, op ≠ .assign userId domainId grant

end AccessOp

/-- An active membership of the user has the default rights of an open domain. -/
def Withheld (userId domainId : String) (db : AuthDb) : Prop :=
  ∀ row, db.memberships.get? (userId, domainId) = some row → row.isActive = true →
    AuthFusionAdapter.OpenDomain db domainId ∧ row.toGrant = AuthFusionAdapter.defaultGrant

section Steps

variable {db : AuthDb} {userId domainId : String}

theorem withheld_revoke (db : AuthDb) (userId domainId : String) :
    Withheld userId domainId (MembershipService.revoke db userId domainId).2 := by
  intro row hrow hactive
  unfold MembershipService.revoke at hrow
  cases hold : db.memberships.get? (userId, domainId) with
  | none =>
    rw [hold] at hrow
    exact absurd (hold.symm.trans hrow) nofun
  | some old =>
    rw [hold] at hrow
    by_cases hwas : old.isActive = true
    · simp only [hwas, if_true, Dict.get?_set, Option.some.injEq] at hrow
      rw [← hrow] at hactive
      cases hactive
    · simp only [hwas, Bool.false_eq_true, if_false] at hrow
      obtain rfl : old = row := Option.some.inj (hold.symm.trans hrow)
      exact absurd hactive hwas

theorem tenants_revoke (db : AuthDb) (u d : String) :
    (MembershipService.revoke db u d).2.tenants = db.tenants := by
  unfold MembershipService.revoke
  split
  · split <;> rfl
  · rfl

theorem revoke_other {u d : String} (hne : ¬ (u = userId ∧ d = domainId)) :
    (MembershipService.revoke db u d).2.memberships.get? (userId, domainId) =
      db.memberships.get? (userId, domainId) := by
  have hkey : (userId, domainId) ≠ (u, d) := by
    rintro ⟨⟩
    exact hne ⟨rfl, rfl⟩
  unfold MembershipService.revoke
  cases db.memberships.get? (u, d) with
  | none => rfl
  | some old =>
    by_cases hwas : old.isActive = true
    · simp only [hwas, if_true, Dict.get?_set, if_neg hkey]
    · simp only [hwas, Bool.false_eq_true, if_false]

/-- A step that keeps the row of the user and the domains keeps what was withheld. -/
theorem Withheld.congr {db' : AuthDb} (h : Withheld userId domainId db)
    (hrow : db'.memberships.get? (userId, domainId) = db.memberships.get? (userId, domainId))
    (htenants : db'.tenants = db.tenants) : Withheld userId domainId db' := by
  intro row hrow' hactive
  rw [hrow] at hrow'
  rw [AuthFusionAdapter.OpenDomain, htenants]
  exact h row hrow' hactive

/-- A first visit keeps the rights of the user withheld where the kept row has no more than the
default rights. -/
theorem Withheld.jitUpsert {u d : String} (h : Withheld userId domainId db)
    (hopen : AuthFusionAdapter.OpenDomain db d)
    (hguarded : u = userId → d = domainId → ∀ row, db.memberships.get? (u, d) = some row →
      row.isActive = false → row.toGrant = AuthFusionAdapter.defaultGrant) :
    Withheld userId domainId (AuthFusionAdapter.jitUpsert db u d) := by
  by_cases hkey : (userId, domainId) = (u, d)
  · obtain ⟨rfl, rfl⟩ := Prod.mk.inj hkey
    intro row hrow hactive
    rw [AuthFusionAdapter.jitUpsert, Dict.get?_set, if_pos rfl] at hrow
    obtain rfl := Option.some.inj hrow
    refine ⟨hopen, ?_⟩
    cases hold : db.memberships.get? (userId, domainId) with
    | none => rfl
    | some old =>
      cases hwas : old.isActive with
      | true => exact (h old hold hwas).2
      | false => exact hguarded rfl rfl old hold hwas
  · refine h.congr ?_ rfl
    rw [AuthFusionAdapter.jitUpsert, Dict.get?_set, if_neg hkey]

theorem Withheld.granted {adapter : AuthFusionAdapter} {sub : Value} {roles : List String}
    {d : String} {grant : Grant} {db' : AuthDb} (h : Withheld userId domainId db)
    (hgranted : adapter.Granted db roles sub d grant db')
    (hguarded : ∀ row, d = domainId → AuthFusionAdapter.isGlobal roles = false →
      sub = .str userId → AuthFusionAdapter.OpenDomain db d → adapter.Reads →
      adapter.persistFault = none → db.memberships.get? (userId, d) = some row →
      row.isActive = false → row.toGrant = AuthFusionAdapter.defaultGrant) :
    Withheld userId domainId db' := by
  cases hgranted with
  | member u grant hsub hactive => exact h
  | global hglobal => exact h
  | enrolled u hreads hsub hnone hglobal hopen =>
    unfold AuthFusionAdapter.enrolledDb
    cases hfault : adapter.persistFault with
    | some e => exact h
    | none =>
      refine h.jitUpsert hopen ?_
      rintro rfl hd row hrow hinactive
      exact hguarded row hd hglobal hsub hopen hreads hfault hrow hinactive

theorem Withheld.after {op : AccessOp} (h : Withheld userId domainId db)
    (hguarded : op.Guarded userId domainId db) (hleaves : op.LeavesRevoked userId domainId) :
    Withheld userId domainId (op.after db) := by
  cases op with
  | assign u d grant =>
    refine h.congr ?_ rfl
    rw [AccessOp.after, MembershipService.assign, Dict.get?_set, if_neg]
    rintro ⟨⟩
    exact hleaves grant rfl
  | revoke u d =>
    by_cases hsame : u = userId ∧ d = domainId
    · obtain ⟨rfl, rfl⟩ := hsame
      exact withheld_revoke db u d
    · exact h.congr (revoke_other hsame) (tenants_revoke db u d)
  | request adapter token d =>
    have hens : Ensures (adapter.verifyAndExtract token d) db
        (fun _ => Withheld userId domainId) fun _ => Withheld userId domainId := by
      rw [AuthFusionAdapter.verifyAndExtract, ensures_bind, ensures_ofExcept]
      refine ⟨fun claims hdecode => ?_, fun _ _ => h⟩
      have hgranted : ∀ roles grant db', adapter.Visits claims d roles →
          adapter.Granted db roles (AuthFusionAdapter.get claims "sub") d grant db' →
          Withheld userId domainId db' := by
        intro roles grant db' visits granted
        refine h.granted granted ?_
        intro row hd hglobal hsub hopen hreads hfault hrow hinactive
        exact hguarded claims roles row hd hdecode visits hglobal hsub hopen hreads hfault hrow
          hinactive
      refine AuthFusionAdapter.ensures_extract.mono ?_ ?_
      · intro ctx db' houtcome
        cases houtcome with
        | service _ _ _ _ _ _ _ _ => exact h
        | platform _ _ => exact h
        | user roles grant _ _ visits granted _ => exact hgranted roles grant db' visits granted
      · rintro _ db' (rfl | ⟨roles, grant, visits, granted⟩)
        · exact h
        · exact hgranted roles grant db' visits granted
    exact hens.final

end Steps

/-- A token of the user that holds neither a global role nor a service role or account. -/
structure PlainToken (adapter : AuthFusionAdapter) (token userId : String)
    (claims : Dict String Value) (roles : List String) : Prop where
  decoded : adapter.decode token = .ok claims
  sub : AuthFusionAdapter.get claims "sub" = .str userId
  hasRoles : adapter.HasRoles claims roles
  notGlobal : AuthFusionAdapter.isGlobal roles = false
  noService : "SERVICE" ∉ roles
  noAccount : adapter.config.serviceAccount? (AuthFusionAdapter.clientOf claims) = .ok none

theorem AuthFusionAdapter.HasRoles.unique {adapter : AuthFusionAdapter}
    {claims : Dict String Value} {roles roles' : List String}
    (h : adapter.HasRoles claims roles) (h' : adapter.HasRoles claims roles') : roles = roles' := by
  obtain ⟨raw, hraw, hroles⟩ := h
  obtain ⟨raw', hraw', hroles'⟩ := h'
  obtain rfl := Except.ok.inj (hraw.symm.trans hraw')
  exact Except.ok.inj (hroles.symm.trans hroles')

/-- What a plain token is granted where the rights of its user are withheld. -/
theorem Withheld.carries {db db' : AuthDb} {userId domainId token : String}
    {adapter : AuthFusionAdapter} {claims : Dict String Value} {roles : List String}
    {ctx : UserContext} (h : Withheld userId domainId db)
    (hplain : PlainToken adapter token userId claims roles) (hdomain : domainId ≠ "__platform__")
    (houtcome : adapter.Outcome db claims domainId ctx db') :
    AuthFusionAdapter.OpenDomain db domainId ∧ ctx.Carries AuthFusionAdapter.defaultGrant := by
  cases houtcome with
  | service roles' sa _ _ resolved hservice _ _ =>
    obtain rfl := hplain.hasRoles.unique resolved.hasRoles
    obtain rfl := Except.ok.inj (hplain.noAccount.symm.trans resolved.account)
    exact absurd (hservice.resolve_left Bool.false_ne_true) hplain.noService
  | platform _ hplatform => exact absurd hplatform hdomain
  | user roles' grant _ _ visits granted carries =>
    obtain rfl := hplain.hasRoles.unique visits.resolved.hasRoles
    cases granted with
    | member u grant hsub hactive =>
      obtain rfl := Value.str.inj (hplain.sub.symm.trans hsub)
      obtain ⟨row, hrow, hrowActive, rfl⟩ := AuthFusionAdapter.activeGrant_eq_some_iff.mp hactive
      obtain ⟨hopen, hdefault⟩ := h row hrow hrowActive
      exact ⟨hopen, hdefault ▸ carries⟩
    | global hglobal => exact absurd hglobal (Bool.eq_false_iff.mp hplain.notGlobal)
    | enrolled u hreads hsub hnone _ hopen => exact ⟨hopen, carries⟩

def afterRevocation (userId domainId : String) (before later : List AccessOp) (db : AuthDb) :
    AuthDb :=
  (before ++ .revoke userId domainId :: later).foldl AccessOp.after db

/-- For every run of assignments, revocations and requests: from a revocation until the user is
assigned again, every request of the user is refused or gets the default rights of an open domain,
as long as no first visit activates a kept row with more than these. -/
theorem revoked_until_assigned (db : AuthDb) (userId domainId : String)
    (before later : List AccessOp)
    (hleaves : ∀ op ∈ later, op.LeavesRevoked userId domainId)
    (hguarded : Along AccessOp.after (AccessOp.Guarded userId domainId) later
      (afterRevocation userId domainId before [] db))
    (adapter : AuthFusionAdapter) (token : String) (claims : Dict String Value)
    (roles : List String) (hplain : PlainToken adapter token userId claims roles)
    (hdomain : domainId ≠ "__platform__") :
    ∀ ctx, (adapter.verifyAndExtract token domainId).result?
        (afterRevocation userId domainId before later db) = some ctx →
      AuthFusionAdapter.OpenDomain (afterRevocation userId domainId before later db) domainId ∧
        ctx.Carries AuthFusionAdapter.defaultGrant := by
  intro ctx hctx
  have hstart : Withheld userId domainId (afterRevocation userId domainId before [] db) := by
    rw [afterRevocation, List.foldl_append]
    exact withheld_revoke _ userId domainId
  have hlater : Withheld userId domainId (afterRevocation userId domainId before later db) := by
    have hrun := hguarded.final hstart fun op hop db' h hop' => h.after hop' (hleaves op hop)
    rw [afterRevocation, List.foldl_append] at hrun ⊢
    exact hrun
  have hens : Ensures (adapter.verifyAndExtract token domainId)
      (afterRevocation userId domainId before later db)
      (adapter.Outcome (afterRevocation userId domainId before later db) claims domainId)
      fun _ _ => True := by
    rw [AuthFusionAdapter.verifyAndExtract, ensures_bind, hplain.decoded]
    exact AuthFusionAdapter.ensures_extract.mono (fun _ _ h => h) fun _ _ _ => trivial
  exact hlater.carries hplain hdomain (hens.of_result? hctx)

section Clerk

open AuthFusionAdapter (reading clerkClaims defaultGrant)

def openHr : AuthDb where
  memberships := .empty
  tenants := .ofList [("hr", ⟨"active", "open"⟩)]

def promotion : AccessOp := .assign "clerk" "hr" ⟨"confidential", some "payroll", ["board"]⟩

def visit : AccessOp := .request (reading clerkClaims) "token" "hr"

def enrollment : AccessOp := .assign "clerk" "hr" defaultGrant

/-- The first visit after the revocation activates the row, and the second one is granted it. -/
theorem revoked_clerk_regains_rights :
    PlainToken (reading clerkClaims) "token" "clerk" clerkClaims ["USER"] ∧
      AccessOp.LeavesRevoked "clerk" "hr" visit ∧
      ∃ ctx, ((reading clerkClaims).verifyAndExtract "token" "hr").result?
          (afterRevocation "clerk" "hr" [promotion] [visit] openHr) = some ctx ∧
        ctx.clearance = .str "confidential" ∧ ctx.department = .str "payroll" ∧
        ctx.domainGroups = [.str "board"] := by
  refine ⟨⟨rfl, rfl, ⟨[.str "USER"], rfl, by rfl⟩, by decide, by decide, rfl⟩, nofun, _, rfl, rfl,
    rfl, rfl⟩

/-- A member with the default rights loses and regains no more than these. -/
theorem default_clerk_until_assigned :
    ∃ ctx, ((reading clerkClaims).verifyAndExtract "token" "hr").result?
        (afterRevocation "clerk" "hr" [enrollment] [visit] openHr) = some ctx ∧
      AuthFusionAdapter.OpenDomain (afterRevocation "clerk" "hr" [enrollment] [visit] openHr) "hr" ∧
        ctx.Carries defaultGrant := by
  refine ⟨_, rfl, revoked_until_assigned openHr "clerk" "hr" [enrollment] [visit] ?_ ⟨?_, trivial⟩
    (reading clerkClaims) "token" _ ["USER"]
    ⟨rfl, rfl, ⟨[.str "USER"], rfl, by rfl⟩, by decide, by decide, rfl⟩ (by decide) _ rfl⟩
  · intro op hop grant
    obtain rfl := List.mem_singleton.mp hop
    exact nofun
  · intro claims roles row _ _ _ _ _ _ _ _ hrow _
    have hkept : (afterRevocation "clerk" "hr" [enrollment] [] openHr).memberships.get?
        ("clerk", "hr") = some ⟨defaultGrant, false⟩ := rfl
    obtain rfl := Option.some.inj (hkept.symm.trans hrow)
    rfl

end Clerk

end DomainRag.Auth
