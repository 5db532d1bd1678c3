import DomainRag.Evaluation.Metrics
import DomainRag.Lib.Program

/-! # The signing keys

The client keeps the keys of the last response that it could read, with the time of its fetch, and
fetches again when they are stale or a key is missing. A call that asks for a refresh is answered
from keys that are not stale.
-/

namespace DomainRag.Auth.Jwks

open Program

inductive FetchFailure where
  | http (text : String)
  | raised (e : Exc)

/-- All but the last are errors of the class `JWKSFetchError`. -/
inductive JwksError where
  | fetchFailed (text : String)
  | noKeys
  | unknownKid (kid : String)
  | raised (e : Exc)

def FetchFailure.toError : FetchFailure → JwksError
  | http text => .fetchFailed text
  | raised e => .raised e

/-- The keys by their ids, which are asked for by texts only. -/
abbrev KeyMap := Dict (Option String) Value

/-- A response that was taken over, by its number among all of them, with its keys and the time of
the fetch. -/
structure Fetch where
  number : Nat
  keys : KeyMap
  time : Rat

/-- The clock and the server of the keys, by the numbers of their calls. -/
structure JwksHost where
  clock : Nat → Rat
  respond : Nat → Except FetchFailure Value

/-- The client keeps the keys and the time of their fetch. The rest tells what it has done. -/
structure JwksState where
  keys : KeyMap := .empty
  fetchedAt : Rat := 0
  reads : Nat := 0
  requests : Nat := 0
  taken : List Fetch := []

abbrev JwksTask := Program JwksError JwksState

def addKey (newMap : KeyMap) (key : Value) : Except Exc KeyMap := do
  let kid ← key.getD "kid" .null
  if kid.truthy then return newMap.set (← kid.strKey?) key else return newMap

def keyMap (data : Value) : Except Exc KeyMap := do
  let keys ← ((← data.getD "keys" .null).orElse (.list [])).iter
  keys.foldlM addKey .empty

variable (host : JwksHost) (cacheTtl : Rat)

def time : JwksTask Rat := fun s =>
  .ok (host.clock s.reads) { s with reads := s.reads + 1 }

def fetch : JwksTask Value := fun s =>
  match host.respond s.requests with
  | .ok data => .ok data { s with requests := s.requests + 1 }
  | .error e => .error e.toError { s with requests := s.requests + 1 }

def isStale : JwksTask Bool := do
  let now ← time host
  let s ← get
  return cacheTtl < now - s.fetchedAt

def refetch : JwksTask Unit := do
  let s ← get
  let data ← fetch host
  let newMap ← Program.ofExcept ((keyMap data).mapError .raised)
  if newMap.entries.isEmpty then throw .noKeys
  let now ← time host
  modify fun t => { t with keys := newMap, fetchedAt := now
                           taken := t.taken ++ [⟨s.requests, newMap, now⟩] }

def refreshLocked (force : Bool) : JwksTask Unit := do
  if force then refetch host else
    let stale ← isStale host cacheTtl
    let s ← get
    if !stale && !s.keys.entries.isEmpty then return () else refetch host

/-- A key that the client has and that is not stale. -/
def cached (kid : String) : JwksTask (Option Value) := do
  let s ← get
  match s.keys.get? (some kid) with
  | none => return none
  | some key => if ← isStale host cacheTtl then return none else return some key

/-- The key after a refresh, and after one more, if it is missing. -/
def refreshedKey (kid : String) : JwksTask Value := do
  refreshLocked host cacheTtl false
  let s ← get
  match s.keys.get? (some kid) with
  | some key => return key
  | none =>
    refreshLocked host cacheTtl true
    let s ← get
    match s.keys.get? (some kid) with
    | some key => return key
    | none => throw (.unknownKid kid)

/-- The client looks into its cache before it waits for the lock and again when it has it. -/
def getKey (kid : String) (forceRefresh : Bool) : JwksTask Value := do
  if forceRefresh then refreshedKey host cacheTtl kid else
    match ← cached host cacheTtl kid with
    | some key => return key
    | none =>
      match ← cached host cacheTtl kid with
      | some key => return key
      | none => refreshedKey host cacheTtl kid

section Specification

variable {host cacheTtl}

/-- The client has the keys of the last response that it took over, if there is one. -/
structure Cached (host : JwksHost) (s : JwksState) : Prop where
  empty : s.taken = [] → s.keys = .empty
  last : ∀ f, s.taken.getLast? = some f → s.keys = f.keys ∧ s.fetchedAt = f.time
  answered : ∀ f ∈ s.taken, f.number < s.requests ∧
    ∃ data, host.respond f.number = .ok data ∧ keyMap data = .ok f.keys
  clocked : ∀ f ∈ s.taken, ∃ i < s.reads, f.time = host.clock i

def now (host : JwksHost) (s : JwksState) : Rat := host.clock (s.reads - 1)

/-- What a call may do: it returns a key that was fetched at most `cacheTtl` ago, and during the
call, if that was asked for; it raises for an unknown id only after it consulted a response; and
its keys are always those of the last response that it took over. -/
structure Fresh (host : JwksHost) (cacheTtl : Rat) (kid : String) (forceRefresh : Bool)
    (s s' : JwksState) (outcome : Except JwksError Value) : Prop where
  returned : ∀ key, outcome = .ok key → ∃ f ∈ s'.taken, f.keys.get? (some kid) = some key ∧
    now host s' - f.time ≤ cacheTtl ∧ (forceRefresh = true → s.requests ≤ f.number)
  unknown : ∀ kid', outcome = .error (.unknownKid kid') → ∃ f ∈ s'.taken,
    s.requests ≤ f.number ∧ f.keys.get? (some kid') = none
  kept : (∀ f ∈ s'.taken, f.number < s.requests) → s'.keys = s.keys ∧ s'.fetchedAt = s.fetchedAt
  grows : s.taken ⊆ s'.taken
  cached : Cached host s'

/-- The refresh that the call asks for is left out: the client has the key, and it is not stale. -/
def Masked (host : JwksHost) (cacheTtl : Rat) (s : JwksState) (kid : String)
    (forceRefresh : Bool) : Prop :=
  forceRefresh = true ∧ (s.keys.get? (some kid)).isSome ∧
    host.clock s.reads - s.fetchedAt ≤ cacheTtl

end Specification

section Steps

variable {host cacheTtl} {s s' : JwksState}

theorem ensures_fetch {Q : Value → JwksState → Prop} {R : JwksError → JwksState → Prop} :
    Ensures (fetch host) s Q R ↔
      (∀ data, host.respond s.requests = .ok data → Q data { s with requests := s.requests + 1 }) ∧
      ∀ e, host.respond s.requests = .error e →
        R e.toError { s with requests := s.requests + 1 } := by
  rw [Ensures, fetch]
  cases host.respond s.requests with
  | ok data => simp
  | error e => simp

theorem ensures_isStale {Q : Bool → JwksState → Prop} {R : JwksError → JwksState → Prop} :
    Ensures (isStale host cacheTtl) s Q R ↔
      Q (cacheTtl < host.clock s.reads - s.fetchedAt) { s with reads := s.reads + 1 } :=
  Iff.rfl

structure Unchanged (s s' : JwksState) : Prop where
  keys : s'.keys = s.keys
  fetchedAt : s'.fetchedAt = s.fetchedAt
  taken : s'.taken = s.taken
  requests : s.requests ≤ s'.requests
  reads : s.reads ≤ s'.reads

/-- The client has the keys of a response of just now. -/
structure Refetched (host : JwksHost) (s s' : JwksState) : Prop where
  fresh : ∃ f ∈ s'.taken, s.requests ≤ f.number ∧ s'.keys = f.keys ∧ now host s' = f.time
  grows : s.taken ⊆ s'.taken
  requests : s.requests ≤ s'.requests

theorem Unchanged.trans {t : JwksState} (h : Unchanged s t) (h' : Unchanged t s') :
    Unchanged s s' where
  keys := h'.keys.trans h.keys
  fetchedAt := h'.fetchedAt.trans h.fetchedAt
  taken := h'.taken.trans h.taken
  requests := h.requests.trans h'.requests
  reads := h.reads.trans h'.reads

theorem Unchanged.refetched {t : JwksState} (h : Unchanged s t) (h' : Refetched host t s') :
    Refetched host s s' where
  fresh := by
    obtain ⟨f, hf, hnumber, hkeys, htime⟩ := h'.fresh
    exact ⟨f, hf, h.requests.trans hnumber, hkeys, htime⟩
  grows := h.taken ▸ h'.grows
  requests := h.requests.trans h'.requests

theorem Cached.unchanged (hs : Cached host s) (h : Unchanged s s') : Cached host s' where
  empty := by
    rw [h.taken, h.keys]
    exact hs.empty
  last := by
    rw [h.taken, h.keys, h.fetchedAt]
    exact hs.last
  answered := by
    rw [h.taken]
    intro f hf
    exact ⟨(hs.answered f hf).1.trans_le h.requests, (hs.answered f hf).2⟩
  clocked := by
    rw [h.taken]
    intro f hf
    obtain ⟨i, hi, htime⟩ := hs.clocked f hf
    exact ⟨i, hi.trans_le h.reads, htime⟩

theorem Cached.exists_fetch (hs : Cached host s) {kid : String} {key : Value}
    (hkey : s.keys.get? (some kid) = some key) :
    ∃ f ∈ s.taken, f.keys.get? (some kid) = some key ∧ f.time = s.fetchedAt := by
  cases hlast : s.taken.getLast? with
  | none =>
    rw [hs.empty (List.getLast?_eq_none_iff.mp hlast), Dict.get?_empty] at hkey
    cases hkey
  | some f =>
    obtain ⟨hkeys, htime⟩ := hs.last f hlast
    exact ⟨f, List.mem_of_getLast? hlast, hkeys ▸ hkey, htime.symm⟩

theorem Cached.take {data : Value} {newMap : KeyMap} (hs : Cached host s)
    (hdata : host.respond s.requests = .ok data) (hmap : keyMap data = .ok newMap) :
    Cached host
      { keys := newMap
        fetchedAt := host.clock s.reads
        reads := s.reads + 1
        requests := s.requests + 1
        taken := s.taken ++ [⟨s.requests, newMap, host.clock s.reads⟩] } where
  empty := by simp
  last := by simp
  answered := by
    simp only [List.mem_append, List.mem_singleton]
    rintro f (hf | rfl)
    · obtain ⟨hlt, hanswer⟩ := hs.answered f hf
      exact ⟨by omega, hanswer⟩
    · exact ⟨Nat.lt_succ_self _, data, hdata, hmap⟩
  clocked := by
    simp only [List.mem_append, List.mem_singleton]
    rintro f (hf | rfl)
    · obtain ⟨i, hi, htime⟩ := hs.clocked f hf
      exact ⟨i, by omega, htime⟩
    · exact ⟨s.reads, Nat.lt_succ_self _, rfl⟩

/-- A fetch that fails leaves the keys and their time. -/
theorem ensures_refetch (hs : Cached host s) :
    Ensures (refetch host) s (fun _ s' => Cached host s' ∧ Refetched host s s')
      fun e s' => Unchanged s s' ∧ ∀ kid, e ≠ .unknownKid kid := by
  have hfailed : Unchanged s { s with requests := s.requests + 1 } :=
    ⟨rfl, rfl, rfl, Nat.le_succ _, Nat.le_refl _⟩
  rw [refetch, ensures_bind, ensures_get, ensures_bind, ensures_fetch]
  constructor
  · intro data hdata
    rw [ensures_bind, ensures_ofExcept]
    constructor
    · intro keys hmap
      have hkeys := Except.mapError_eq_ok_iff.mp hmap
      rw [ensures_ite]
      constructor
      · intro _
        exact ⟨hfailed, nofun⟩
      · intro _
        refine ⟨hs.take hdata hkeys, ?_, List.subset_append_left _ _, Nat.le_succ _⟩
        exact ⟨⟨s.requests, keys, host.clock s.reads⟩, by simp, Nat.le_refl _, rfl, rfl⟩
    · intro e he
      obtain ⟨e', -, rfl⟩ := Except.mapError_eq_error_iff.mp he
      exact ⟨hfailed, nofun⟩
  · intro e _
    refine ⟨hfailed, ?_⟩
    cases e <;> exact nofun

/-- A refresh that is not forced does nothing, if the keys are not stale. -/
theorem ensures_refreshLocked (hs : Cached host s) :
    Ensures (refreshLocked host cacheTtl false) s
      (fun _ s' => Cached host s' ∧ (Unchanged s s' ∧ now host s' = host.clock s.reads ∧
        host.clock s.reads - s.fetchedAt ≤ cacheTtl ∨ Refetched host s s'))
      fun e s' => Unchanged s s' ∧ ∀ kid, e ≠ .unknownKid kid := by
  have hread : Unchanged s { s with reads := s.reads + 1 } :=
    ⟨rfl, rfl, rfl, Nat.le_refl _, Nat.le_succ _⟩
  rw [refreshLocked, if_neg Bool.false_ne_true, ensures_bind, ensures_isStale, ensures_bind,
    ensures_get, ensures_ite]
  constructor
  · intro hkept
    rw [Bool.and_eq_true, Bool.not_eq_true', decide_eq_false_iff_not, not_lt] at hkept
    exact ⟨hs.unchanged hread, .inl ⟨hread, rfl, hkept.1⟩⟩
  · intro _
    refine (ensures_refetch (hs.unchanged hread)).mono ?_ ?_
    · intro _ s' h
      exact ⟨h.1, .inr (hread.refetched h.2)⟩
    · intro e s' h
      exact ⟨hread.trans h.1, h.2⟩

theorem Unchanged.fresh (hs : Cached host s) (h : Unchanged s s') {kid : String}
    {forceRefresh : Bool} {e : JwksError} (he : ∀ kid', e ≠ .unknownKid kid') :
    Fresh host cacheTtl kid forceRefresh s s' (.error e) where
  returned := nofun
  unknown := by
    intro kid' heq
    exact absurd (Except.error.inj heq) (he kid')
  kept := fun _ => ⟨h.keys, h.fetchedAt⟩
  grows := h.taken ▸ List.Subset.refl _
  cached := hs.unchanged h

theorem Refetched.not_before (h : Refetched host s s') : ¬ ∀ f ∈ s'.taken, f.number < s.requests := by
  obtain ⟨f, hf, hnumber, -⟩ := h.fresh
  intro hall
  exact absurd (hall f hf) (Nat.not_lt.mpr hnumber)

theorem Refetched.fresh_ok (h : Refetched host s s') (hs' : Cached host s') (httl : 0 ≤ cacheTtl)
    {kid : String} {key : Value} (hkey : s'.keys.get? (some kid) = some key)
    {forceRefresh : Bool} : Fresh host cacheTtl kid forceRefresh s s' (.ok key) where
  returned := by
    rintro _ ⟨⟩
    obtain ⟨f, hf, hnumber, hkeys, htime⟩ := h.fresh
    refine ⟨f, hf, hkeys ▸ hkey, ?_, fun _ => hnumber⟩
    rw [htime, sub_self]
    exact httl
  unknown := nofun
  kept := fun hall => absurd hall h.not_before
  grows := h.grows
  cached := hs'

theorem Refetched.fresh_unknown (h : Refetched host s s') (hs' : Cached host s') {kid : String}
    (hkey : s'.keys.get? (some kid) = none) {forceRefresh : Bool} :
    Fresh host cacheTtl kid forceRefresh s s' (.error (.unknownKid kid)) where
  returned := nofun
  unknown := by
    rintro _ ⟨⟩
    obtain ⟨f, hf, hnumber, hkeys, -⟩ := h.fresh
    exact ⟨f, hf, hnumber, hkeys ▸ hkey⟩
  kept := fun hall => absurd hall h.not_before
  grows := h.grows
  cached := hs'

theorem Unchanged.fresh_ok (hs : Cached host s) (h : Unchanged s s') {kid : String} {key : Value}
    (hkey : s.keys.get? (some kid) = some key) (hage : now host s' - s.fetchedAt ≤ cacheTtl) :
    Fresh host cacheTtl kid false s s' (.ok key) where
  returned := by
    rintro _ ⟨⟩
    obtain ⟨f, hf, hget, htime⟩ := hs.exists_fetch hkey
    exact ⟨f, h.taken ▸ hf, hget, htime ▸ hage, nofun⟩
  unknown := nofun
  kept := fun _ => ⟨h.keys, h.fetchedAt⟩
  grows := h.taken ▸ List.Subset.refl _
  cached := hs.unchanged h

end Steps

section Calls

variable {host cacheTtl} {s s' : JwksState} {kid : String} {forceRefresh : Bool}

theorem Fresh.of_unchanged {t : JwksState} {outcome : Except JwksError Value}
    (h : Unchanged s t) (h' : Fresh host cacheTtl kid forceRefresh t s' outcome) :
    Fresh host cacheTtl kid forceRefresh s s' outcome where
  returned := by
    intro key hkey
    obtain ⟨f, hf, hget, hage, hforced⟩ := h'.returned key hkey
    exact ⟨f, hf, hget, hage, fun hforce => h.requests.trans (hforced hforce)⟩
  unknown := by
    intro kid' hkid'
    obtain ⟨f, hf, hnumber, hget⟩ := h'.unknown kid' hkid'
    exact ⟨f, hf, h.requests.trans hnumber, hget⟩
  kept := by
    intro hall
    obtain ⟨hkeys, htime⟩ := h'.kept fun f hf => (hall f hf).trans_le h.requests
    exact ⟨hkeys.trans h.keys, htime.trans h.fetchedAt⟩
  grows := h.taken ▸ h'.grows
  cached := h'.cached

theorem Fresh.of_refetched {t : JwksState} {outcome : Except JwksError Value}
    (h : Refetched host s t) (h' : Fresh host cacheTtl kid forceRefresh t s' outcome) :
    Fresh host cacheTtl kid forceRefresh s s' outcome where
  returned := by
    intro key hkey
    obtain ⟨f, hf, hget, hage, hforced⟩ := h'.returned key hkey
    exact ⟨f, hf, hget, hage, fun hforce => h.requests.trans (hforced hforce)⟩
  unknown := by
    intro kid' hkid'
    obtain ⟨f, hf, hnumber, hget⟩ := h'.unknown kid' hkid'
    exact ⟨f, hf, h.requests.trans hnumber, hget⟩
  kept := by
    intro hall
    exact absurd (fun f hf => hall f (h'.grows hf)) h.not_before
  grows := List.Subset.trans h.grows h'.grows
  cached := h'.cached

/-- The outcome of the forced refresh that follows a missing key. -/
theorem ensures_secondRefresh (hs : Cached host s) (httl : 0 ≤ cacheTtl) (kid : String)
    (forceRefresh : Bool) :
    Ensures (do
        refreshLocked host cacheTtl true
        let s ← get
        match s.keys.get? (some kid) with
        | some key => return key
        | none => throw (.unknownKid kid)) s
      (fun key s' => Fresh host cacheTtl kid forceRefresh s s' (.ok key))
      fun e s' => Fresh host cacheTtl kid forceRefresh s s' (.error e) := by
  rw [ensures_bind]
  refine (ensures_refetch hs).mono ?_ ?_
  · rintro _ s' ⟨hs', hfetched⟩
    rw [ensures_bind, ensures_get]
    cases hkey : s'.keys.get? (some kid) with
    | some key => exact hfetched.fresh_ok hs' httl hkey
    | none => exact hfetched.fresh_unknown hs' hkey
  · rintro e s' ⟨h, he⟩
    exact h.fresh hs he

/-- After a refresh a call returns what it should, unless it was to be forced and was not. -/
theorem ensures_refreshedKey (hs : Cached host s) (httl : 0 ≤ cacheTtl)
    (hmasked : ¬ Masked host cacheTtl s kid forceRefresh) :
    Ensures (refreshedKey host cacheTtl kid) s
      (fun key s' => Fresh host cacheTtl kid forceRefresh s s' (.ok key))
      fun e s' => Fresh host cacheTtl kid forceRefresh s s' (.error e) := by
  rw [refreshedKey, ensures_bind]
  refine (ensures_refreshLocked hs).mono ?_ ?_
  · rintro _ t ⟨ht, hrefresh⟩
    rw [ensures_bind, ensures_get]
    cases hkey : t.keys.get? (some kid) with
    | some key =>
      rcases hrefresh with ⟨h, hnow, hage⟩ | h
      · rw [h.keys] at hkey
        have hunforced : forceRefresh = false := by
          rw [← Bool.not_eq_true]
          intro hforce
          exact hmasked ⟨hforce, by rw [hkey]; rfl, hage⟩
        rw [hunforced]
        exact h.fresh_ok hs hkey (hnow ▸ hage)
      · exact h.fresh_ok ht httl hkey
    | none =>
      refine (ensures_secondRefresh ht httl kid forceRefresh).mono ?_ ?_
      · intro key s' h'
        rcases hrefresh with ⟨h, -, -⟩ | h
        · exact h'.of_unchanged h
        · exact h'.of_refetched h
      · intro e s' h'
        rcases hrefresh with ⟨h, -, -⟩ | h
        · exact h'.of_unchanged h
        · exact h'.of_refetched h
  · rintro e s' ⟨h, he⟩
    exact h.fresh hs he

/-- The cache answers with a key that is not stale, or it leaves everything as it is. -/
theorem ensures_cached (hs : Cached host s) :
    Ensures (cached host cacheTtl kid) s
      (fun key? s' => Unchanged s s' ∧
        ∀ key, key? = some key → Fresh host cacheTtl kid false s s' (.ok key))
      fun _ _ => False := by
  rw [cached, ensures_bind, ensures_get]
  cases hkey : s.keys.get? (some kid) with
  | none => exact ⟨⟨rfl, rfl, rfl, Nat.le_refl _, Nat.le_refl _⟩, nofun⟩
  | some key =>
    have hread : Unchanged s { s with reads := s.reads + 1 } :=
      ⟨rfl, rfl, rfl, Nat.le_refl _, Nat.le_succ _⟩
    rw [ensures_bind, ensures_isStale, ensures_ite]
    constructor
    · intro _
      exact ⟨hread, nofun⟩
    · intro hstale
      rw [decide_eq_true_eq, not_lt] at hstale
      refine ⟨hread, ?_⟩
      rintro _ ⟨⟩
      exact hread.fresh_ok hs hkey hstale

theorem not_masked_of_unforced : ¬ Masked host cacheTtl s kid false := by
  rintro ⟨hforce, -⟩
  cases hforce

theorem ensures_getKey (hs : Cached host s) (httl : 0 ≤ cacheTtl)
    (hmasked : ¬ Masked host cacheTtl s kid forceRefresh) :
    Ensures (getKey host cacheTtl kid forceRefresh) s
      (fun key s' => Fresh host cacheTtl kid forceRefresh s s' (.ok key))
      fun e s' => Fresh host cacheTtl kid forceRefresh s s' (.error e) := by
  cases forceRefresh with
  | true =>
    rw [getKey, if_pos rfl]
    exact ensures_refreshedKey hs httl hmasked
  | false =>
    rw [getKey, if_neg Bool.false_ne_true, ensures_bind]
    refine (ensures_cached hs).mono ?_ fun _ _ => False.elim
    rintro (_ | key) t ⟨h, hfresh⟩
    · rw [ensures_bind]
      refine (ensures_cached (hs.unchanged h)).mono ?_ fun _ _ => False.elim
      rintro (_ | key) u ⟨h', hfresh'⟩
      · refine (ensures_refreshedKey (hs.unchanged (h.trans h')) httl not_masked_of_unforced).mono
          ?_ ?_
        · exact fun _ _ h'' => h''.of_unchanged (h.trans h')
        · exact fun _ _ h'' => h''.of_unchanged (h.trans h')
      · exact (hfresh' key rfl).of_unchanged h
    · exact hfresh key rfl

end Calls

section Runs

structure Call where
  kid : String
  forceRefresh : Bool := false

def Call.after (host : JwksHost) (cacheTtl : Rat) (s : JwksState) (call : Call) : JwksState :=
  (getKey host cacheTtl call.kid call.forceRefresh).final s

/-- What the call returns or raises is as it should be, and so is the state that it leaves. -/
def Call.Fresh (host : JwksHost) (cacheTtl : Rat) (s : JwksState) (call : Call) : Prop :=
  Ensures (getKey host cacheTtl call.kid call.forceRefresh) s
    (fun key s' => Jwks.Fresh host cacheTtl call.kid call.forceRefresh s s' (.ok key))
    fun e s' => Jwks.Fresh host cacheTtl call.kid call.forceRefresh s s' (.error e)

/-- Keys may be kept for some time, and the call does not ask for a refresh while the client has
its key and the key is not stale. -/
def Call.Unmasked (host : JwksHost) (cacheTtl : Rat) (s : JwksState) (call : Call) : Prop :=
  0 ≤ cacheTtl ∧ ¬ Masked host cacheTtl s call.kid call.forceRefresh

variable {host : JwksHost} {cacheTtl : Rat} {s : JwksState} {call : Call}

theorem cached_start : Cached host {} where
  empty := fun _ => rfl
  last := nofun
  answered := nofun
  clocked := nofun

theorem Call.Fresh.cached (h : call.Fresh host cacheTtl s) :
    Cached host (call.after host cacheTtl s) :=
  (h.mono (fun _ _ h => h.cached) fun _ _ h => h.cached).final

theorem Call.fresh_of_unmasked (hs : Cached host s) (h : call.Unmasked host cacheTtl s) :
    call.Fresh host cacheTtl s :=
  ensures_getKey hs h.1 h.2

/-- A masked call returns a key that was fetched before it. -/
theorem Call.not_fresh_of_masked (hs : Cached host s)
    (h : Masked host cacheTtl s call.kid call.forceRefresh) : ¬ call.Fresh host cacheTtl s := by
  obtain ⟨hforce, hkey, hage⟩ := h
  obtain ⟨key, hkey⟩ := Option.isSome_iff_exists.mp hkey
  have hkeys : s.keys.entries.isEmpty = false := by
    rw [← Bool.not_eq_true, List.isEmpty_iff]
    exact List.ne_nil_of_mem (Dict.get?_eq_some_iff.mp hkey)
  intro hfresh
  rw [Call.Fresh, hforce, getKey, if_pos rfl, refreshedKey, ensures_bind, refreshLocked,
    if_neg Bool.false_ne_true, ensures_bind, ensures_isStale, ensures_bind, ensures_get,
    ensures_ite] at hfresh
  have hreturned := hfresh.1 (by simp [hkeys, hage])
  rw [ensures_pure, ensures_bind, ensures_get, hkey, ensures_pure] at hreturned
  obtain ⟨f, hf, -, -, hnumber⟩ := hreturned.returned key rfl
  exact absurd (hs.answered f hf).1 (Nat.not_lt.mpr (hnumber rfl))

theorem Call.fresh_iff_not_masked (hs : Cached host s) (httl : 0 ≤ cacheTtl) :
    call.Fresh host cacheTtl s ↔ ¬ Masked host cacheTtl s call.kid call.forceRefresh := by
  constructor
  · intro hfresh hmasked
    exact Call.not_fresh_of_masked hs hmasked hfresh
  · intro hmasked
    exact Call.fresh_of_unmasked hs ⟨httl, hmasked⟩

/-- Along every run whose calls are not masked the signing keys are fresh. -/
theorem getKeys_fresh (host : JwksHost) (cacheTtl : Rat) (calls : List Call)
    (h : Along (Call.after host cacheTtl) (fun s call => call.Unmasked host cacheTtl s) calls {}) :
    Along (Call.after host cacheTtl) (fun s call => call.Fresh host cacheTtl s) calls {} := by
  refine h.of_invariant (I := Cached host) cached_start ?_
  intro call _ s hs hunmasked
  have hfresh := Call.fresh_of_unmasked hs hunmasked
  exact ⟨hfresh.cached, hfresh⟩

/-- A server with one key, and a clock that stands still. -/
def oneKey : JwksHost where
  clock _ := 100
  respond _ := .ok (.dict [("keys", .list [.dict [("kid", .str "k1"), ("n", .str "m1")]])])

theorem getKeys_fresh_twice :
    Along (Call.after oneKey 10) (fun s call => call.Fresh oneKey 10 s)
      [⟨"k1", false⟩, ⟨"k1", false⟩] {} := by
  apply getKeys_fresh
  apply Along.of_forall
  intro call hcall s
  have hforce : call.forceRefresh = false := by
    rcases List.mem_cons.mp hcall with rfl | hcall
    · rfl
    · rw [List.mem_singleton.mp hcall]
  refine ⟨by norm_num, ?_⟩
  rw [hforce]
  exact not_masked_of_unforced

theorem forced_refresh_masked :
    ¬ Along (Call.after oneKey 10) (fun s call => call.Fresh oneKey 10 s)
      [⟨"k1", false⟩, ⟨"k1", true⟩] {} := by
  intro h
  have hfirst := h.1.cached
  refine Call.not_fresh_of_masked hfirst ⟨rfl, ?_, ?_⟩ h.2.1
  · decide +kernel
  · decide +kernel

end Runs

end DomainRag.Auth.Jwks
