import Mathlib.Algebra.Order.Ring.Rat
import Mathlib.Data.List.DropRight
import DomainRag.Auth.Adapter
import DomainRag.Auth.StateStore

/-! # The login protocol

A browser is sent to the identity provider with a state and with the challenge of a verifier that
the service keeps. The provider binds its code to the challenge, and the callback exchanges the
code with the verifier that it finds under the state. Logins of any number of browsers, and
callbacks that nobody asked for, are interleaved.
-/

namespace DomainRag.Auth

structure HttpError where
  status : Nat
  detail : List (String × Value)

structure LoginConfig extends AuthConfig where
  authorizeEndpoint : Option String
  scopes : List String
  stateTtlSeconds : Rat
  appBaseUrl : String
  redirectPath : String
  str : Value → String

structure AuthorizeParams where
  clientId : String
  redirectUri : String
  scope : String
  state : String
  codeChallenge : String
  prompt : Option String

/-- The form that is sent to the token endpoint. -/
structure ExchangeForm where
  code : String
  codeVerifier : String
  clientId : String
  redirectUri : String

structure TokenResponse where
  accessToken : String
  refreshToken : Option String
  expiresIn : Nat
  refreshExpiresIn : Nat := 0
  tokenType : String := "Bearer"
  scope : Option String := none
  idToken : Option String := none

/-- What the provider binds a code to when it has let a user in. -/
structure CodeGrant where
  user : String
  clientId : String
  redirectUri : String
  codeChallenge : String

inductive ProviderEvent where
  | issued (code : String) (grant : CodeGrant)
  | redeemed (form : ExchangeForm)

/-- The provider's token endpoint, by what has happened at the provider before. -/
abbrev TokenEndpoint := List ProviderEvent → ExchangeForm → Except Value TokenResponse

/-- RFC 7636: a code is redeemed once, with the verifier of the challenge that it was issued for,
by the client and at the place that it was issued to. -/
structure HonoursPkce (challengeOf : String → String) (endpoint : TokenEndpoint) : Prop where
  bound : ∀ history form token, endpoint history form = .ok token →
    ∃ grant, .issued form.code grant ∈ history ∧ grant.clientId = form.clientId ∧
      grant.redirectUri = form.redirectUri ∧ grant.codeChallenge = challengeOf form.codeVerifier
  single : ∀ history form token, endpoint history form = .ok token →
    ∀ earlier, .redeemed earlier ∈ history → earlier.code ≠ form.code

namespace LoginConfig

variable (config : LoginConfig)

def redirectUri : String :=
  String.ofList (config.appBaseUrl.toList.rdropWhile (· = '/')) ++ config.redirectPath

def override? (domainId : String) : Except Exc Value :=
  match (config.tenantOverrides.get? domainId).getD .null with
  | .dict kvs => .ok ((kvs.lookup "client_id").getD .null)
  | v => if v.truthy then .error (attributeError v "get") else .ok .null

/-- The client of a domain: its own, or the first one that is mapped to it. -/
def resolveClientId (domainId : String) : Except HttpError String :=
  match config.override? domainId with
  -- no handler catches it, so the answer has no detail
  | .error _ => .error ⟨500, []⟩
  | .ok clientId =>
    if clientId.truthy then .ok (config.str clientId)
    else
      match config.clientTenantMap.entries.find? fun e => domainId ∈ e.2 with
      | some e => .ok e.1
      | none => .error ⟨404,
          [("error", .str "client_id_not_configured"), ("domain_id", .str domainId)]⟩

def knownTenant (domainId : String) : Bool :=
  (config.tenantOverrides.get? domainId).isSome ||
    config.clientTenantMap.values.any fun mapped => domainId ∈ mapped

/-- `/authorize/{domain_id}`: the entry that is kept and the parameters that the browser takes to
the provider. -/
def buildAuthorizeUrl (challengeOf : String → String) (domainId : String) (prompt : Option String)
    (state verifier : String) (clock : Rat) :
    Except HttpError (OAuthStateEntry Rat × AuthorizeParams) := do
  if config.authorizeEndpoint.getD "" = "" then
    throw ⟨500, [("error", .str "authorize_endpoint_not_configured")]⟩
  if !config.knownTenant domainId then
    throw ⟨404, [("error", .str "tenant_not_registered"), ("domain_id", .str domainId)]⟩
  let clientId ← config.resolveClientId domainId
  return ({ state := state
            domainId := domainId
            codeVerifier := verifier
            redirectUri := config.redirectUri
            clientId := clientId
            expiresAt := clock + config.stateTtlSeconds },
    { clientId := clientId
      redirectUri := config.redirectUri
      scope := " ".intercalate config.scopes
      state := state
      codeChallenge := challengeOf verifier
      prompt := prompt.filter (· ∈ ["login", "none", "consent", "select_account"]) })

end LoginConfig

/-- The form of a callback. -/
def OAuthStateEntry.form {T : Type} (entry : OAuthStateEntry T) (code : String) : ExchangeForm :=
  ⟨code, entry.codeVerifier, entry.clientId, entry.redirectUri⟩

/-- `/callback`: the store after it, and the entry and the token that the cookies are set from. -/
def oauthCallback (tokenClient : Option (ExchangeForm → Except Value TokenResponse))
    (store : InMemoryOAuthStateStore Rat) (code state : String) (now later : Rat) :
    InMemoryOAuthStateStore Rat × Except HttpError (OAuthStateEntry Rat × TokenResponse) :=
  let popped := InMemoryOAuthStateStore.pop store state now later
  (popped.2,
    match popped.1, tokenClient with
    | none, _ => .error ⟨400, [("error", .str "invalid_or_expired_state")]⟩
    | some _, none => .error ⟨500, [("error", .str "token_client_not_configured")]⟩
    | some entry, some exchange =>
      match exchange (entry.form code) with
      | .error payload =>
        .error ⟨400, [("error", .str "token_exchange_failed"), ("upstream", payload)]⟩
      | .ok token => .ok (entry, token))

/-- What happens at the service and at the provider. Whoever has a link to the provider may log in
with it, and whoever has a code and a state may call back with them. -/
inductive LoginAct where
  | authorize (browser domainId : String) (prompt : Option String) (state verifier : String)
    (clock now : Rat)
  | issue (code : String) (grant : CodeGrant)
  | callback (browser code state : String) (now later : Rat)

/-- A request to log in that was answered. -/
structure Authorization where
  browser : String
  entry : OAuthStateEntry Rat
  params : AuthorizeParams

/-- A callback that set the cookies of a browser. -/
structure Login where
  browser : String
  code : String
  entry : OAuthStateEntry Rat
  token : TokenResponse
  time : Rat

structure LoginSystem where
  store : InMemoryOAuthStateStore Rat := .empty
  provider : List ProviderEvent := []
  authorizations : List Authorization := []
  logins : List Login := []
  cookies : Dict String TokenResponse := .empty

namespace LoginSystem

variable (config : LoginConfig) (challengeOf : String → String) (endpoint : TokenEndpoint)

def step (s : LoginSystem) : LoginAct → LoginSystem
  | .authorize browser domainId prompt state verifier clock now =>
    match config.buildAuthorizeUrl challengeOf domainId prompt state verifier clock with
    | .error _ => s
    | .ok (entry, params) =>
      { s with
        store := InMemoryOAuthStateStore.put s.store entry now
        authorizations := s.authorizations ++ [⟨browser, entry, params⟩] }
  | .issue code grant => { s with provider := s.provider ++ [.issued code grant] }
  | .callback browser code state now later =>
    match oauthCallback (some (endpoint s.provider)) s.store code state now later with
    | (store, .error _) => { s with store := store }
    | (store, .ok (entry, token)) =>
      { s with
        store := store
        provider := s.provider ++ [.redeemed (entry.form code)]
        logins := s.logins ++ [⟨browser, code, entry, token, later⟩]
        cookies := s.cookies.set browser token }

def run (acts : List LoginAct) : LoginSystem := acts.foldl (step config challengeOf endpoint) {}

end LoginSystem

/-- The random values of a request to log in. -/
def LoginAct.secrets? : LoginAct → Option (String × String)
  | authorize _ _ _ state verifier _ _ => some (state, verifier)
  | issue .. | callback .. => none

/-- No state is drawn twice, and no two of the verifiers drawn have one challenge. -/
def FreshSecrets (challengeOf : String → String) (acts : List LoginAct) : Prop :=
  (acts.filterMap LoginAct.secrets?).Pairwise fun p q =>
    p.1 ≠ q.1 ∧ challengeOf p.2 ≠ challengeOf q.2

/-- The code of a login was issued for what its entry was sent to the provider with. -/
def Redeems (challengeOf : String → String) (s : LoginSystem) (login : Login) : Prop :=
  ∃ grant, .issued login.code grant ∈ s.provider ∧ grant.clientId = login.entry.clientId ∧
    grant.redirectUri = login.entry.redirectUri ∧
    grant.codeChallenge = challengeOf login.entry.codeVerifier

/-- What holds after any acts. -/
structure LoginInvariant (challengeOf : String → String) (acts : List LoginAct)
    (s : LoginSystem) : Prop where
  kept : ∀ state entry, s.store.get? state = some entry → entry.state = state ∧
    (∃ a ∈ s.authorizations, a.entry = entry) ∧ ∀ login ∈ s.logins, login.entry.state ≠ state
  sent : ∀ a ∈ s.authorizations, a.params.clientId = a.entry.clientId ∧
    a.params.redirectUri = a.entry.redirectUri ∧
    a.params.codeChallenge = challengeOf a.entry.codeVerifier
  drawn : ∀ a ∈ s.authorizations,
    (a.entry.state, a.entry.codeVerifier) ∈ acts.filterMap LoginAct.secrets?
  apart : (s.authorizations.map fun a => a.params.codeChallenge).Nodup
  entered : ∀ login ∈ s.logins, login.time < login.entry.expiresAt ∧
    (∃ a ∈ s.authorizations, a.entry = login.entry) ∧ Redeems challengeOf s login ∧
    .redeemed (login.entry.form login.code) ∈ s.provider
  once : s.logins.Pairwise fun l l' => l.entry.state ≠ l'.entry.state ∧ l.code ≠ l'.code
  cookies : ∀ browser token, s.cookies.get? browser = some token →
    ∃ login ∈ s.logins, login.browser = browser ∧ login.token = token

section Run

variable {config : LoginConfig} {challengeOf : String → String} {endpoint : TokenEndpoint}
  {acts : List LoginAct} {s : LoginSystem}

open LoginSystem

theorem Redeems.mono {s' : LoginSystem} {login : Login} (h : Redeems challengeOf s login)
    (hprovider : ∀ event ∈ s.provider, event ∈ s'.provider) : Redeems challengeOf s' login := by
  obtain ⟨grant, hissued, hgrant⟩ := h
  exact ⟨grant, hprovider _ hissued, hgrant⟩

theorem filterMap_secrets (acts : List LoginAct) (act : LoginAct) :
    (acts ++ [act]).filterMap LoginAct.secrets? =
      acts.filterMap LoginAct.secrets? ++ act.secrets?.toList := by
  rw [List.filterMap_append]
  cases hact : act.secrets? <;> simp [hact]

theorem LoginInvariant.drawn_append (h : LoginInvariant challengeOf acts s) (act : LoginAct) :
    ∀ a ∈ s.authorizations,
      (a.entry.state, a.entry.codeVerifier) ∈ (acts ++ [act]).filterMap LoginAct.secrets? := by
  intro a ha
  rw [filterMap_secrets]
  exact List.mem_append_left _ (h.drawn a ha)

/-- What a request to log in draws has not been drawn before. -/
theorem LoginInvariant.new (h : LoginInvariant challengeOf acts s) {act : LoginAct}
    {state verifier : String} (hact : act.secrets? = some (state, verifier))
    (hfresh : FreshSecrets challengeOf (acts ++ [act])) :
    ∀ a ∈ s.authorizations,
      a.entry.state ≠ state ∧ a.params.codeChallenge ≠ challengeOf verifier := by
  intro a ha
  rw [FreshSecrets, filterMap_secrets, hact, List.pairwise_append] at hfresh
  rw [(h.sent a ha).2.2]
  exact hfresh.2.2 _ (h.drawn a ha) _ (List.mem_singleton_self _)

/-- The entry is kept as it was sent. -/
theorem buildAuthorizeUrl_sent {domainId state verifier : String} {prompt : Option String}
    {clock : Rat} {entry : OAuthStateEntry Rat} {params : AuthorizeParams}
    (h : config.buildAuthorizeUrl challengeOf domainId prompt state verifier clock =
      .ok (entry, params)) :
    entry.state = state ∧ entry.codeVerifier = verifier ∧ params.clientId = entry.clientId ∧
      params.redirectUri = entry.redirectUri ∧
      params.codeChallenge = challengeOf entry.codeVerifier := by
  rw [LoginConfig.buildAuthorizeUrl] at h
  split at h
  · cases h
  · split at h
    · cases h
    · cases hclient : config.resolveClientId domainId with
      | error e =>
        rw [hclient] at h
        cases h
      | ok clientId =>
        rw [hclient] at h
        cases h
        exact ⟨rfl, rfl, rfl, rfl, rfl⟩

theorem LoginInvariant.authorize (h : LoginInvariant challengeOf acts s)
    {browser domainId : String} {prompt : Option String} {state verifier : String}
    {clock now : Rat} (hfresh : FreshSecrets challengeOf
      (acts ++ [.authorize browser domainId prompt state verifier clock now])) :
    LoginInvariant challengeOf
      (acts ++ [.authorize browser domainId prompt state verifier clock now])
      (step config challengeOf endpoint s
        (.authorize browser domainId prompt state verifier clock now)) := by
  rw [step]
  cases hbuild : config.buildAuthorizeUrl challengeOf domainId prompt state verifier clock with
  | error e => exact ⟨h.kept, h.sent, h.drawn_append _, h.apart, h.entered, h.once, h.cookies⟩
  | ok answer =>
    obtain ⟨entry, params⟩ := answer
    obtain ⟨rfl, rfl, hsent⟩ := buildAuthorizeUrl_sent hbuild
    have hnew := h.new rfl hfresh
    constructor
    case kept =>
      intro state kept hkept
      rw [get?_put] at hkept
      split at hkept
      · rename_i hstate
        obtain rfl := Option.some.inj hkept
        refine ⟨hstate.symm, ⟨_, List.mem_append_right _ (List.mem_singleton_self _), rfl⟩, ?_⟩
        intro login hlogin
        obtain ⟨-, ⟨a, ha, heq⟩, -⟩ := h.entered login hlogin
        rw [hstate, ← heq]
        exact (hnew a ha).1
      · have hbefore := (Option.filter_eq_some_iff.mp hkept).1
        obtain ⟨hstate, ⟨a, ha, heq⟩, hlogins⟩ := h.kept state kept hbefore
        exact ⟨hstate, ⟨a, List.mem_append_left _ ha, heq⟩, hlogins⟩
    case sent =>
      intro a ha
      obtain ha | ha := List.mem_append.mp ha
      · exact h.sent a ha
      · rw [List.mem_singleton.mp ha]
        exact hsent
    case drawn =>
      intro a ha
      obtain ha | ha := List.mem_append.mp ha
      · exact h.drawn_append _ a ha
      · rw [List.mem_singleton.mp ha, filterMap_secrets]
        exact List.mem_append_right _ (List.mem_singleton_self _)
    case apart =>
      rw [List.map_append, List.map_singleton, List.nodup_append_comm, List.singleton_append,
        List.nodup_cons]
      refine ⟨fun hused => ?_, h.apart⟩
      obtain ⟨a, ha, heq⟩ := List.mem_map.mp hused
      exact (hnew a ha).2 (heq.trans hsent.2.2)
    case entered =>
      intro login hlogin
      obtain ⟨htime, ⟨a, ha, heq⟩, hrest⟩ := h.entered login hlogin
      exact ⟨htime, ⟨a, List.mem_append_left _ ha, heq⟩, hrest⟩
    case once => exact h.once
    case cookies => exact h.cookies

/-- What a callback leaves in the store was there before, and not under the state of the
callback. -/
theorem get?_pop_some {store : InMemoryOAuthStateStore Rat} {state state' : String}
    {now later : Rat} {entry : OAuthStateEntry Rat}
    (h : (InMemoryOAuthStateStore.pop store state now later).2.get? state' = some entry) :
    state' ≠ state ∧ store.get? state' = some entry := by
  rw [get?_pop] at h
  split at h
  · cases h
  · rename_i hne
    exact ⟨hne, (Option.filter_eq_some_iff.mp h).1⟩

theorem LoginInvariant.callback_refused (h : LoginInvariant challengeOf acts s)
    (browser code state : String) (now later : Rat) :
    LoginInvariant challengeOf (acts ++ [.callback browser code state now later])
      { s with store := (InMemoryOAuthStateStore.pop s.store state now later).2 } where
  kept := by
    intro state entry hentry
    exact h.kept state entry (get?_pop_some hentry).2
  sent := h.sent
  drawn := h.drawn_append _
  apart := h.apart
  entered := h.entered
  once := h.once
  cookies := h.cookies

theorem LoginInvariant.callback_entered (hpkce : HonoursPkce challengeOf endpoint)
    (h : LoginInvariant challengeOf acts s) {browser code state : String} {now later : Rat}
    {entry : OAuthStateEntry Rat} {token : TokenResponse}
    (hentry : (InMemoryOAuthStateStore.pop s.store state now later).1 = some entry)
    (htoken : endpoint s.provider (entry.form code) = .ok token) :
    LoginInvariant challengeOf (acts ++ [.callback browser code state now later])
      { store := (InMemoryOAuthStateStore.pop s.store state now later).2
        provider := s.provider ++ [.redeemed (entry.form code)]
        authorizations := s.authorizations
        logins := s.logins ++ [⟨browser, code, entry, token, later⟩]
        cookies := s.cookies.set browser token } := by
  obtain ⟨hstore, -, hlater⟩ := pop_eq_some_iff.mp hentry
  obtain ⟨rfl, hauthorized, hunused⟩ := h.kept state entry hstore
  constructor
  case kept =>
    intro state' kept hkept
    obtain ⟨hne, hbefore⟩ := get?_pop_some hkept
    obtain ⟨hstate, hsent, hlogins⟩ := h.kept state' kept hbefore
    refine ⟨hstate, hsent, fun login hlogin => ?_⟩
    obtain hlogin | hlogin := List.mem_append.mp hlogin
    · exact hlogins login hlogin
    · rw [List.mem_singleton.mp hlogin]
      exact fun heq => hne heq.symm
  case sent => exact h.sent
  case drawn => exact h.drawn_append _
  case apart => exact h.apart
  case entered =>
    intro login hlogin
    obtain hlogin | hlogin := List.mem_append.mp hlogin
    · obtain ⟨htime, hsent, hredeems, hredeemed⟩ := h.entered login hlogin
      exact ⟨htime, hsent, hredeems.mono fun _ => List.mem_append_left _,
        List.mem_append_left _ hredeemed⟩
    · obtain rfl := List.mem_singleton.mp hlogin
      obtain ⟨grant, hissued, hgrant⟩ := hpkce.bound _ _ _ htoken
      exact ⟨hlater, hauthorized, ⟨grant, List.mem_append_left _ hissued, hgrant⟩,
        List.mem_append_right _ (List.mem_singleton_self _)⟩
  case once =>
    refine List.pairwise_append.mpr ⟨h.once, List.pairwise_singleton _ _, ?_⟩
    intro login hlogin login' hlogin'
    obtain rfl := List.mem_singleton.mp hlogin'
    exact ⟨hunused login hlogin,
      hpkce.single _ _ _ htoken _ (h.entered login hlogin).2.2.2⟩
  case cookies =>
    intro browser' token' hcookie
    rw [Dict.get?_set] at hcookie
    split at hcookie
    · rename_i hbrowser
      obtain rfl := Option.some.inj hcookie
      exact ⟨_, List.mem_append_right _ (List.mem_singleton_self _), hbrowser.symm, rfl⟩
    · obtain ⟨login, hlogin, hrest⟩ := h.cookies browser' token' hcookie
      exact ⟨login, List.mem_append_left _ hlogin, hrest⟩

theorem LoginInvariant.callback (hpkce : HonoursPkce challengeOf endpoint)
    (h : LoginInvariant challengeOf acts s) (browser code state : String) (now later : Rat) :
    LoginInvariant challengeOf (acts ++ [.callback browser code state now later])
      (step config challengeOf endpoint s (.callback browser code state now later)) := by
  cases hentry : (InMemoryOAuthStateStore.pop s.store state now later).1 with
  | none =>
    simp only [LoginSystem.step, oauthCallback, hentry]
    exact h.callback_refused browser code state now later
  | some entry =>
    cases htoken : endpoint s.provider (entry.form code) with
    | error payload =>
      simp only [LoginSystem.step, oauthCallback, hentry, htoken]
      exact h.callback_refused browser code state now later
    | ok token =>
      simp only [LoginSystem.step, oauthCallback, hentry, htoken]
      exact h.callback_entered hpkce hentry htoken

theorem LoginInvariant.issue (h : LoginInvariant challengeOf acts s) (code : String)
    (grant : CodeGrant) :
    LoginInvariant challengeOf (acts ++ [.issue code grant])
      (step config challengeOf endpoint s (.issue code grant)) where
  kept := h.kept
  sent := h.sent
  drawn := h.drawn_append _
  apart := h.apart
  entered := by
    intro login hlogin
    obtain ⟨htime, hauthorized, hredeems, hredeemed⟩ := h.entered login hlogin
    exact ⟨htime, hauthorized, hredeems.mono fun _ => List.mem_append_left _,
      List.mem_append_left _ hredeemed⟩
  once := h.once
  cookies := h.cookies

theorem LoginInvariant.step (hpkce : HonoursPkce challengeOf endpoint)
    (h : LoginInvariant challengeOf acts s) (act : LoginAct)
    (hfresh : FreshSecrets challengeOf (acts ++ [act])) :
    LoginInvariant challengeOf (acts ++ [act]) (step config challengeOf endpoint s act) := by
  cases act with
  | authorize => exact h.authorize hfresh
  | issue code grant => exact h.issue code grant
  | callback browser code state now later => exact h.callback hpkce browser code state now later

theorem FreshSecrets.front {act : LoginAct} (h : FreshSecrets challengeOf (acts ++ [act])) :
    FreshSecrets challengeOf acts := by
  rw [FreshSecrets, filterMap_secrets] at h
  exact (List.pairwise_append.mp h).1

theorem loginInvariant (hpkce : HonoursPkce challengeOf endpoint) (hfresh : FreshSecrets challengeOf acts) :
    LoginInvariant challengeOf acts (run config challengeOf endpoint acts) := by
  induction acts using List.reverseRecOn with
  | nil => exact ⟨nofun, nofun, nofun, .nil, nofun, .nil, nofun⟩
  | append_singleton acts act ih =>
    rw [run, List.foldl_append]
    exact (ih hfresh.front).step hpkce act hfresh

/-- In every interleaving, a login is completed in time and once, from an entry that some request
to log in left, and with a code that the provider issued for what that request was sent away with.
No second request was sent away with that challenge, and a browser has cookies only from a callback
of its own. -/
theorem login_bound (hpkce : HonoursPkce challengeOf endpoint) (acts : List LoginAct)
    (hfresh : FreshSecrets challengeOf acts) :
    (∀ login ∈ (run config challengeOf endpoint acts).logins,
      login.time < login.entry.expiresAt ∧
      ∃ a ∈ (run config challengeOf endpoint acts).authorizations, a.entry = login.entry ∧
        (∃ grant, .issued login.code grant ∈ (run config challengeOf endpoint acts).provider ∧
          grant.clientId = a.params.clientId ∧ grant.redirectUri = a.params.redirectUri ∧
          grant.codeChallenge = a.params.codeChallenge) ∧
        ∀ b ∈ (run config challengeOf endpoint acts).authorizations,
          b.params.codeChallenge = a.params.codeChallenge → b = a) ∧
    ((run config challengeOf endpoint acts).logins.Pairwise fun l l' =>
      l.entry.state ≠ l'.entry.state ∧ l.code ≠ l'.code) ∧
    ∀ browser token, (run config challengeOf endpoint acts).cookies.get? browser = some token →
      ∃ login ∈ (run config challengeOf endpoint acts).logins,
        login.browser = browser ∧ login.token = token := by
  have h : LoginInvariant challengeOf acts (run config challengeOf endpoint acts) :=
    loginInvariant hpkce hfresh
  refine ⟨?_, h.once, h.cookies⟩
  intro login hlogin
  obtain ⟨htime, ⟨a, ha, hentry⟩, ⟨grant, hissued, hclient, hredirect, hcode⟩, -⟩ :=
    h.entered login hlogin
  obtain ⟨hclientId, hredirectUri, hcodeChallenge⟩ := h.sent a ha
  rw [← hentry] at hclient hredirect hcode
  refine ⟨htime, a, ha, hentry, ⟨grant, hissued, ?_, ?_, ?_⟩, ?_⟩
  · rw [hclient, hclientId]
  · rw [hredirect, hredirectUri]
  · rw [hcode, hcodeChallenge]
  · intro b hb hsame
    exact List.inj_on_of_nodup_map h.apart hb ha hsame

end Run

section TwoBrowsers

/-- The provider of the example. Its challenges are plain. -/
def plainEndpoint : TokenEndpoint := fun history form =>
  let bound : ProviderEvent → Bool
    | .issued code grant => code = form.code ∧ grant.clientId = form.clientId ∧
        grant.redirectUri = form.redirectUri ∧ grant.codeChallenge = form.codeVerifier
    | .redeemed _ => false
  let spent : ProviderEvent → Bool
    | .issued _ _ => false
    | .redeemed earlier => earlier.code = form.code
  if history.any bound ∧ ¬ history.any spent then
    .ok { accessToken := "token of " ++ form.code, refreshToken := none, expiresIn := 300 }
  else .error (.dict [("error", .str "invalid_grant")])

theorem plainEndpoint_honoursPkce : HonoursPkce id plainEndpoint := by
  constructor
  case bound =>
    intro history form token h
    rw [plainEndpoint] at h
    split at h
    · rename_i hanswer
      obtain ⟨event, hevent, hbound⟩ := List.any_eq_true.mp hanswer.1
      cases event with
      | issued code grant =>
        obtain ⟨rfl, hgrant⟩ := of_decide_eq_true hbound
        exact ⟨grant, hevent, hgrant⟩
      | redeemed earlier => cases hbound
    · cases h
  case single =>
    intro history form token h earlier hearlier hcode
    rw [plainEndpoint] at h
    split at h
    · rename_i hanswer
      exact hanswer.2 (List.any_eq_true.mpr ⟨_, hearlier, decide_eq_true hcode⟩)
    · cases h

def hrLogin : LoginConfig where
  rpSlug := "domainrag-ops"
  platformAdminRole := "PLATFORM_ADMIN"
  requireVerifiedEmail := true
  clientTenantMap := Dict.empty.set "hr-app" ["hr"]
  serviceAccounts := .empty
  authorizeEndpoint := some "https://sso/authorize"
  scopes := ["openid"]
  stateTtlSeconds := 600
  appBaseUrl := "https://rag/"
  redirectPath := "/auth/callback"
  str := fun _ => "hr-app"

/-- Anna's code is tried with Otto's state before she calls back herself. -/
def stolenCode : List LoginAct :=
  [.authorize "anna" "hr" none "s1" "v1" 0 0, .authorize "otto" "hr" none "s2" "v2" 1 1,
    .issue "c1" ⟨"anna", "hr-app", "https://rag/auth/callback", "v1"⟩,
    .callback "otto" "c1" "s2" 5 5, .callback "anna" "c1" "s1" 6 6]

theorem login_bound_stolenCode :
    ((LoginSystem.run hrLogin id plainEndpoint stolenCode).logins.map fun login =>
      (login.browser, login.code)) = [("anna", "c1")] ∧
    ∀ browser token, (LoginSystem.run hrLogin id plainEndpoint stolenCode).cookies.get? browser =
      some token → ∃ login ∈ (LoginSystem.run hrLogin id plainEndpoint stolenCode).logins,
        login.browser = browser ∧ login.token = token :=
  ⟨by decide +kernel, (login_bound plainEndpoint_honoursPkce stolenCode
    (by unfold FreshSecrets; decide +kernel)).2.2⟩

end TwoBrowsers

end DomainRag.Auth
