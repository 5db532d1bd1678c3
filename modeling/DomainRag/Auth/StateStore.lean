import Mathlib.Data.List.Count
import Mathlib.Data.List.Induction
import Mathlib.Order.Lattice
import Mathlib.Order.Nat
import DomainRag.Lib.Dict

/-! # The states of a login

Between the redirect to the identity provider and its callback the service keeps one entry for each
login, under a random state. An entry is taken out by the callback, and every operation first
throws out what has expired.
-/

namespace DomainRag.Auth

structure OAuthStateEntry (T : Type) where
  state : String
  domainId : String
  codeVerifier : String
  redirectUri : String
  clientId : String
  expiresAt : T
  deriving DecidableEq

abbrev InMemoryOAuthStateStore (T : Type) := Dict String (OAuthStateEntry T)

/-- An operation with its readings of the clock: one for the collection of what has expired, and
a second one when an entry is taken out. -/
inductive StateOp (T : Type) where
  | put (entry : OAuthStateEntry T) (now : T)
  | pop (state : String) (now later : T)

variable {T : Type}

namespace StateOp

def state : StateOp T → String
  | put entry _ => entry.state
  | pop state _ _ => state

def entry? : StateOp T → Option (OAuthStateEntry T)
  | put entry _ => some entry
  | pop _ _ _ => none

def readings : StateOp T → List T
  | put _ now => [now]
  | pop _ now later => [now, later]

end StateOp

/-- The last operation with the state put the entry. -/
def Pending (ops : List (StateOp T)) (state : String) (entry : OAuthStateEntry T) : Prop :=
  ∃ front now rest, ops = front ++ .put entry now :: rest ∧ entry.state = state ∧
    ∀ op ∈ rest, op.state ≠ state

section Pending

variable {op : StateOp T} {ops : List (StateOp T)} {entry : OAuthStateEntry T} {state : String}

theorem not_pending_nil : ¬ Pending [] state entry := by
  rintro ⟨front, now, rest, hops, -⟩
  exact List.append_ne_nil_of_right_ne_nil front (List.cons_ne_nil _ rest) hops.symm

theorem pending_append_iff : Pending (ops ++ [op]) state entry ↔
    (∃ now, op = .put entry now ∧ entry.state = state) ∨
      op.state ≠ state ∧ Pending ops state entry := by
  constructor
  · rintro ⟨front, now, rest, hops, hstate, hrest⟩
    induction rest using List.reverseRecOn with
    | nil =>
      obtain ⟨-, hop⟩ := List.append_inj' hops rfl
      exact .inl ⟨now, List.cons.inj hop |>.1, hstate⟩
    | append_singleton rest last _ =>
      rw [← List.cons_append, ← List.append_assoc front] at hops
      obtain ⟨hfront, hlast⟩ := List.append_inj' hops rfl
      cases hlast
      right
      refine ⟨hrest op (by simp), front, now, rest, hfront, hstate, fun o ho => hrest o ?_⟩
      exact List.mem_append_left [op] ho
  · rintro (⟨now, rfl, hstate⟩ | ⟨hop, front, now, rest, rfl, hstate, hrest⟩)
    · exact ⟨ops, now, [], rfl, hstate, List.forall_mem_nil _⟩
    · refine ⟨front, now, rest ++ [op], by simp, hstate, fun o ho => ?_⟩
      obtain ho | ho := List.mem_append.mp ho
      · exact hrest o ho
      · exact List.mem_singleton.mp ho ▸ hop

end Pending

variable [LinearOrder T]

namespace InMemoryOAuthStateStore

variable (store : InMemoryOAuthStateStore T)

def gc (now : T) : InMemoryOAuthStateStore T :=
  let expired := (store.entries.filter fun e => e.2.expiresAt ≤ now).map Prod.fst
  expired.foldl Dict.erase store

def put (entry : OAuthStateEntry T) (now : T) : InMemoryOAuthStateStore T :=
  (gc store now).set entry.state entry

def pop (state : String) (now later : T) :
    Option (OAuthStateEntry T) × InMemoryOAuthStateStore T :=
  let collected := gc store now
  match collected.get? state with
  | none => (none, collected)
  | some entry =>
    (if entry.expiresAt ≤ later then none else some entry, collected.erase state)

def step : StateOp T → InMemoryOAuthStateStore T
  | .put entry now => put store entry now
  | .pop state now later => (pop store state now later).2

def run (ops : List (StateOp T)) : InMemoryOAuthStateStore T := ops.foldl step store

/-- The entries that the calls of a run return. -/
def returned : InMemoryOAuthStateStore T → List (StateOp T) → List (OAuthStateEntry T)
  | _, [] => []
  | store, .put entry now :: ops => returned (put store entry now) ops
  | store, .pop state now later :: ops =>
    (pop store state now later).1.toList ++ returned (pop store state now later).2 ops

end InMemoryOAuthStateStore

/-- The clock does not go back. -/
def Chronological (ops : List (StateOp T)) : Prop :=
  (ops.flatMap StateOp.readings).Pairwise (· ≤ ·)

section History

variable {store : InMemoryOAuthStateStore T} {op : StateOp T} {ops : List (StateOp T)}
  {entry : OAuthStateEntry T} {state : String} {now later : T}

open InMemoryOAuthStateStore

theorem get?_gc (store : InMemoryOAuthStateStore T) (now : T) (state : String) :
    (gc store now).get? state = (store.get? state).filter fun entry => now < entry.expiresAt := by
  rw [gc, Dict.get?_foldl_erase]
  cases hentry : store.get? state with
  | none => rw [ite_self, Option.filter_none]
  | some entry =>
    have hmem : (state, entry) ∈ store.entries := Dict.get?_eq_some_iff.mp hentry
    have hexpired : state ∈ (store.entries.filter fun e => e.2.expiresAt ≤ now).map Prod.fst ↔
        entry.expiresAt ≤ now := by
      constructor
      · intro h
        obtain ⟨⟨state', entry'⟩, hfilter, rfl⟩ := List.mem_map.mp h
        obtain ⟨hmem', hnow⟩ := List.mem_filter.mp hfilter
        obtain rfl := Option.some.inj ((Dict.get?_eq_some_iff.mpr hmem').symm.trans hentry)
        exact of_decide_eq_true hnow
      · intro h
        exact List.mem_map.mpr ⟨(state, entry), List.mem_filter.mpr ⟨hmem, decide_eq_true h⟩, rfl⟩
    simp only [hexpired, Option.filter_some, decide_eq_true_eq]
    split
    · rename_i h
      rw [if_neg (not_lt.mpr h)]
    · rename_i h
      rw [if_pos (not_le.mp h)]

theorem get?_put (store : InMemoryOAuthStateStore T) (entry : OAuthStateEntry T) (now : T)
    (state : String) : (put store entry now).get? state =
      if state = entry.state then some entry
      else (store.get? state).filter fun entry => now < entry.expiresAt := by
  rw [put, Dict.get?_set, get?_gc]

theorem get?_pop (store : InMemoryOAuthStateStore T) (state : String) (now later : T)
    (state' : String) : (pop store state now later).2.get? state' =
      if state' = state then none
      else (store.get? state').filter fun entry => now < entry.expiresAt := by
  rw [pop]
  cases hentry : (gc store now).get? state with
  | none =>
    by_cases h : state' = state
    · rw [if_pos h, h]
      exact hentry
    · rw [if_neg h]
      exact get?_gc store now state'
  | some entry =>
    simp only
    rw [Dict.get?_erase, get?_gc]

theorem pop_eq_some_iff : (pop store state now later).1 = some entry ↔
    store.get? state = some entry ∧ now < entry.expiresAt ∧ later < entry.expiresAt := by
  have hgc : ∀ e, (gc store now).get? state = some e ↔
      store.get? state = some e ∧ now < e.expiresAt := by
    intro e
    rw [get?_gc, Option.filter_eq_some_iff, decide_eq_true_eq]
  rw [pop]
  cases hentry : (gc store now).get? state with
  | none =>
    refine iff_of_false (Option.some_ne_none _).symm fun h => ?_
    rw [(hgc entry).mpr ⟨h.1, h.2.1⟩] at hentry
    cases hentry
  | some e =>
    obtain ⟨hstore, hnow⟩ := (hgc e).mp hentry
    rw [hstore]
    simp only [Option.some.injEq]
    constructor
    · intro h
      split at h
      · cases h
      · rename_i hlater
        obtain rfl := Option.some.inj h
        exact ⟨rfl, hnow, not_le.mp hlater⟩
    · rintro ⟨rfl, -, hlater⟩
      exact if_neg (not_le.mpr hlater)

/-- Of what is still to expire, the store holds what was put last and not taken out since. -/
theorem get?_run_iff {time : T} (hops : ∀ op ∈ ops, ∀ t ∈ op.readings, t ≤ time)
    (htime : time < entry.expiresAt) :
    (run .empty ops).get? state = some entry ↔ Pending ops state entry := by
  induction ops using List.reverseRecOn with
  | nil => exact iff_of_false nofun not_pending_nil
  | append_singleton ops op ih =>
    have ih := ih fun o ho => hops o (List.mem_append_left [op] ho)
    have hnow := hops op (by simp)
    rw [pending_append_iff, run, List.foldl_append, List.foldl_cons, List.foldl_nil]
    change (step (run .empty ops) op).get? state = some entry ↔ _
    have hlive : ∀ now, now ≤ time → (((run .empty ops).get? state).filter
        (fun e => now < e.expiresAt) = some entry ↔ Pending ops state entry) := by
      intro now hle
      rw [Option.filter_eq_some_iff, decide_eq_true_eq, ih]
      exact and_iff_left (lt_of_le_of_lt hle htime)
    cases op with
    | put entry' now =>
      rw [step, get?_put]
      by_cases h : state = entry'.state
      · rw [if_pos h]
        constructor
        · intro heq
          cases heq
          exact .inl ⟨now, rfl, h.symm⟩
        · rintro (⟨now', hput, -⟩ | ⟨hne, -⟩)
          · cases hput
            rfl
          · exact absurd h.symm hne
      · rw [if_neg h, hlive now (hnow now (by simp [StateOp.readings]))]
        constructor
        · exact fun hp => .inr ⟨fun heq => h heq.symm, hp⟩
        · rintro (⟨now', hput, hstate⟩ | ⟨-, hp⟩)
          · cases hput
            exact absurd hstate.symm h
          · exact hp
    | pop state' now later =>
      rw [step, get?_pop]
      by_cases h : state = state'
      · rw [if_pos h]
        refine iff_of_false nofun ?_
        rintro (⟨now', hput, -⟩ | ⟨hne, -⟩)
        · cases hput
        · exact hne h.symm
      · rw [if_neg h, hlive now (hnow now (by simp [StateOp.readings]))]
        constructor
        · exact fun hp => .inr ⟨fun heq => h heq.symm, hp⟩
        · rintro (⟨now', hput, -⟩ | ⟨-, hp⟩)
          · cases hput
          · exact hp

/-- The store keeps each entry under its own state. -/
def Keyed (store : InMemoryOAuthStateStore T) : Prop :=
  ∀ state entry, store.get? state = some entry → entry.state = state

theorem Keyed.step (h : Keyed store) (op : StateOp T) : Keyed (step store op) := by
  have hlive : ∀ state now entry, (store.get? state).filter (fun e => now < e.expiresAt) =
      some entry → entry.state = state :=
    fun state now entry heq => h state entry (Option.filter_eq_some_iff.mp heq).1
  intro state entry heq
  cases op with
  | put entry' now =>
    rw [InMemoryOAuthStateStore.step, get?_put] at heq
    split at heq
    · rename_i hstate
      cases heq
      exact hstate.symm
    · exact hlive state now entry heq
  | pop state' now later =>
    rw [InMemoryOAuthStateStore.step, get?_pop] at heq
    split at heq
    · cases heq
    · exact hlive state now entry heq

/-- How often the store holds an entry. -/
def held (store : InMemoryOAuthStateStore T) (entry : OAuthStateEntry T) : Nat :=
  if store.get? entry.state = some entry then 1 else 0

theorem held_put_le (store : InMemoryOAuthStateStore T) (entry' : OAuthStateEntry T) (now : T)
    (entry : OAuthStateEntry T) : held (put store entry' now) entry ≤
      held store entry + if entry' = entry then 1 else 0 := by
  rw [held, held, get?_put]
  by_cases hstate : entry.state = entry'.state
  · rw [if_pos hstate]
    by_cases heq : entry' = entry
    · rw [if_pos heq]
      split <;> omega
    · rw [if_neg (fun h => heq (Option.some.inj h))]
      exact Nat.zero_le _
  · rw [if_neg hstate]
    split
    · rename_i hlive
      rw [if_pos (Option.filter_eq_some_iff.mp hlive).1]
      omega
    · exact Nat.zero_le _

theorem count_pop_add_held_le (h : Keyed store) (state : String) (now later : T)
    (entry : OAuthStateEntry T) : (pop store state now later).1.toList.count entry +
      held (pop store state now later).2 entry ≤ held store entry := by
  rw [held, held, get?_pop]
  by_cases heq : (pop store state now later).1 = some entry
  · have hstore := (pop_eq_some_iff.mp heq).1
    obtain rfl := h state entry hstore
    rw [if_pos rfl, if_pos hstore, heq]
    simp
  · have hcount : (pop store state now later).1.toList.count entry = 0 := by
      rw [List.count_eq_zero, Option.mem_toList]
      exact heq
    rw [hcount, Nat.zero_add]
    by_cases hstate : entry.state = state
    · rw [if_pos hstate, if_neg nofun]
      exact Nat.zero_le _
    · rw [if_neg hstate]
      split
      · rename_i hlive
        exact Nat.le_of_eq (if_pos (Option.filter_eq_some_iff.mp hlive).1).symm
      · exact Nat.zero_le _

/-- A run returns an entry at most as often as it was put, and once more if it was there. -/
theorem count_returned_le (h : Keyed store) (entry : OAuthStateEntry T) :
    (returned store ops).count entry ≤ held store entry +
      (ops.filterMap StateOp.entry?).count entry := by
  induction ops generalizing store with
  | nil => exact Nat.zero_le _
  | cons op ops ih =>
    have ih := ih (h.step op)
    cases op with
    | put entry' now =>
      have hput := held_put_le store entry' now entry
      rw [returned]
      simp only [List.filterMap_cons, StateOp.entry?, List.count_cons, beq_iff_eq]
      simp only [InMemoryOAuthStateStore.step] at ih
      omega
    | pop state now later =>
      have hpop := count_pop_add_held_le h state now later entry
      rw [returned, List.count_append]
      simp only [List.filterMap_cons, StateOp.entry?]
      simp only [InMemoryOAuthStateStore.step] at ih
      omega

/-- An entry is returned at most as often as it is put, never once it has expired, and exactly if
it was put last with its state, has not been taken out since and has not expired. -/
theorem states_are_single_use (ops : List (StateOp T)) (h : Chronological ops) :
    (∀ entry, (returned .empty ops).count entry ≤ (ops.filterMap StateOp.entry?).count entry) ∧
    ∀ front state now later rest, ops = front ++ .pop state now later :: rest → ∀ entry,
      (pop (run .empty front) state now later).1 = some entry ↔
        Pending front state entry ∧ later < entry.expiresAt := by
  constructor
  · intro entry
    have hempty : Keyed (.empty : InMemoryOAuthStateStore T) := fun _ _ heq => nomatch heq
    have hnone : held (.empty : InMemoryOAuthStateStore T) entry = 0 := rfl
    have hle := @count_returned_le T _ .empty ops hempty entry
    rwa [hnone, Nat.zero_add] at hle
  · rintro front state now later rest rfl entry
    rw [Chronological, List.flatMap_append, List.flatMap_cons, List.pairwise_append] at h
    obtain ⟨-, hpop, hfront⟩ := h
    have hlater : now ≤ later := (List.pairwise_cons.mp hpop).1 later (by simp)
    have hearlier : ∀ op ∈ front, ∀ t ∈ op.readings, t ≤ later := fun op hop t ht =>
      hfront t (List.mem_flatMap.mpr ⟨op, hop, ht⟩) later (by simp [StateOp.readings])
    rw [pop_eq_some_iff]
    constructor
    · rintro ⟨hstore, -, hexpires⟩
      exact ⟨(get?_run_iff hearlier hexpires).mp hstore, hexpires⟩
    · rintro ⟨hpending, hexpires⟩
      exact ⟨(get?_run_iff hearlier hexpires).mpr hpending, lt_of_le_of_lt hlater hexpires, hexpires⟩

end History

section Login

def login (expiresAt : Nat) : OAuthStateEntry Nat :=
  ⟨"s1", "hr", "verifier", "https://hr/auth/callback", "hr-app", expiresAt⟩

/-- The first callback gets the entry and the second one nothing. -/
theorem states_are_single_use_login :
    InMemoryOAuthStateStore.returned .empty
      [.put (login 600) 0, .pop "s1" 5 5, .pop "s1" 6 6] = [login 600] ∧
    (InMemoryOAuthStateStore.returned .empty
      [.put (login 600) 0, .pop "s1" 5 5, .pop "s1" 6 6]).count (login 600) ≤ 1 :=
  ⟨by decide +kernel, (states_are_single_use [.put (login 600) 0, .pop "s1" 5 5, .pop "s1" 6 6]
    (by simp [Chronological, StateOp.readings])).1 (login 600)⟩

end Login

end DomainRag.Auth
