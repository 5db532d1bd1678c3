import Mathlib.Data.List.Nodup
import Mathlib.Order.Nat

/-! # Node graphs

A machine executes one node after the other on a shared state. A node may raise and may call
outside services; the state that it leaves decides which node comes next. Every edge lowers a
rank, so that a run always ends.
-/

namespace DomainRag

structure Machine (N S E C : Type) where
  exec : N → S → List C × Except E S
  next : N → S → Option N
  rank : N → Nat
  descends : ∀ n s n', next n s = some n' → rank n' < rank n

namespace Machine

variable {N S E C : Type}

inductive Ending (N S E : Type) where
  | finished (s : S)
  | raised (n : N) (s : S) (e : E)
  | cut (n : N) (s : S)

def Ending.state : Ending N S E → S
  | finished s => s
  | raised _ s _ => s
  | cut _ s => s

def Ending.isRaised : Ending N S E → Bool
  | raised _ _ _ => true
  | _ => false

/-- What a run did: the nodes that it executed, the calls that they made and how it ended. -/
structure Run (N S E C : Type) where
  visited : List N
  calls : List C
  ending : Ending N S E

def Run.after (n : N) (calls : List C) (rest : Run N S E C) : Run N S E C :=
  ⟨n :: rest.visited, calls ++ rest.calls, rest.ending⟩

def Run.past (ns : List N) (rest : Run N S E C) : Run N S E C :=
  ⟨ns ++ rest.visited, rest.calls, rest.ending⟩

theorem Run.past_past (ns ks : List N) (rest : Run N S E C) :
    (rest.past ks).past ns = rest.past (ns ++ ks) := by
  simp only [past, List.append_assoc]

variable (m : Machine N S E C)

def runFor : Nat → N → S → Run N S E C
  | 0, n, s => ⟨[], [], .cut n s⟩
  | fuel + 1, n, s =>
    match (m.exec n s).2 with
    | .error e => ⟨[n], (m.exec n s).1, .raised n s e⟩
    | .ok s' =>
      match m.next n s' with
      | none => ⟨[n], (m.exec n s).1, .finished s'⟩
      | some n' => .after n (m.exec n s).1 (runFor fuel n' s')

def run (n : N) (s : S) : Run N S E C := m.runFor (m.rank n + 1) n s

/-- The machine, about to execute one node, comes to execute another one. -/
inductive Reach (n₀ : N) (s₀ : S) : N → S → Prop
  | start : Reach n₀ s₀ n₀ s₀
  | step {n n' : N} {s s' : S} : Reach n₀ s₀ n s → (m.exec n s).2 = .ok s' →
      m.next n s' = some n' → Reach n₀ s₀ n' s'

variable {m}

theorem runFor_congr {f g : Nat} {n : N} (s : S) (hf : m.rank n < f) (hg : m.rank n < g) :
    m.runFor f n s = m.runFor g n s := by
  induction f generalizing g n s with
  | zero => exact absurd hf (Nat.not_lt_zero _)
  | succ f ih =>
    cases g with
    | zero => exact absurd hg (Nat.not_lt_zero _)
    | succ g =>
      rw [runFor, runFor]
      cases (m.exec n s).2 with
      | error e => rfl
      | ok s' =>
        cases hnext : m.next n s' with
        | none => simp only [hnext]
        | some n' =>
          have hrank := m.descends n s' n' hnext
          simp only [hnext]
          rw [ih (g := g) s' (by omega) (by omega)]

section Equations

variable {n n' : N} {s s' : S} {e : E}

theorem run_of_error (hexec : (m.exec n s).2 = .error e) :
    m.run n s = ⟨[n], (m.exec n s).1, .raised n s e⟩ := by
  rw [run, runFor, hexec]

theorem run_of_stop (hexec : (m.exec n s).2 = .ok s') (hnext : m.next n s' = none) :
    m.run n s = ⟨[n], (m.exec n s).1, .finished s'⟩ := by
  simp only [run, runFor, hexec, hnext]

theorem run_of_next (hexec : (m.exec n s).2 = .ok s') (hnext : m.next n s' = some n') :
    m.run n s = .after n (m.exec n s).1 (m.run n' s') := by
  have hrank := m.descends n s' n' hnext
  simp only [run, runFor, hexec, hnext]
  rw [runFor_congr (g := m.rank n' + 1) s' (by omega) (by omega)]
  rfl

theorem run_of_quiet (hexec : m.exec n s = ([], .ok s')) (hnext : m.next n s' = some n') :
    m.run n s = (m.run n' s').past [n] := by
  have hok : (m.exec n s).2 = .ok s' := by rw [hexec]
  rw [run_of_next hok hnext, hexec]
  rfl

end Equations

/-- Induction along a run, from its last node back to its first. -/
theorem runInduction {P : N → S → Prop}
    (error : ∀ n s e, (m.exec n s).2 = .error e → P n s)
    (stop : ∀ n s s', (m.exec n s).2 = .ok s' → m.next n s' = none → P n s)
    (next : ∀ n s s' n', (m.exec n s).2 = .ok s' → m.next n s' = some n' → P n' s' → P n s)
    (n : N) (s : S) : P n s := by
  induction hrank : m.rank n using Nat.strongRecOn generalizing n s with
  | ind r ih =>
    cases hexec : (m.exec n s).2 with
    | error e => exact error n s e hexec
    | ok s' =>
      cases hnext : m.next n s' with
      | none => exact stop n s s' hexec hnext
      | some n' =>
        have hlt := m.descends n s' n' hnext
        exact next n s s' n' hexec hnext (ih (m.rank n') (hrank ▸ hlt) n' s' rfl)

/-- An invariant that every step keeps holds wherever the machine comes. -/
theorem Reach.invariant {P : N → S → Prop} {n₀ : N} {s₀ : S} (hstart : P n₀ s₀)
    (hstep : ∀ n s s' n', P n s → (m.exec n s).2 = .ok s' → m.next n s' = some n' → P n' s')
    {n : N} {s : S} (h : m.Reach n₀ s₀ n s) : P n s := by
  induction h with
  | start => exact hstart
  | step _ hexec hnext ih => exact hstep _ _ _ _ ih hexec hnext

theorem Reach.prepend {n₀ n₁ n : N} {s₀ s₁ s : S} (hexec : (m.exec n₀ s₀).2 = .ok s₁)
    (hnext : m.next n₀ s₁ = some n₁) (h : m.Reach n₁ s₁ n s) : m.Reach n₀ s₀ n s := by
  induction h with
  | start => exact .step .start hexec hnext
  | step _ hexec' hnext' ih => exact .step ih hexec' hnext'

theorem Reach.first {n₀ n : N} {s₀ s : S} (h : m.Reach n₀ s₀ n s) : (n = n₀ ∧ s = s₀) ∨
    ∃ n₁ s₁, (m.exec n₀ s₀).2 = .ok s₁ ∧ m.next n₀ s₁ = some n₁ ∧ m.Reach n₁ s₁ n s := by
  induction h with
  | start => exact .inl ⟨rfl, rfl⟩
  | step _ hexec hnext ih =>
    obtain ⟨rfl, rfl⟩ | ⟨n₁, s₁, hexec₁, hnext₁, hreach⟩ := ih
    · exact .inr ⟨_, _, hexec, hnext, .start⟩
    · exact .inr ⟨n₁, s₁, hexec₁, hnext₁, .step hreach hexec hnext⟩

theorem Reach.rank_le {n₀ n : N} {s₀ s : S} (h : m.Reach n₀ s₀ n s) : m.rank n ≤ m.rank n₀ :=
  h.invariant (P := fun n _ => m.rank n ≤ m.rank n₀) le_rfl
    fun _ _ _ _ hle _ hnext => (m.descends _ _ _ hnext).le.trans hle

/-- From one place of a run the machine comes to every later one. -/
theorem Reach.onward {n₀ n k : N} {s₀ s u : S} (h : m.Reach n₀ s₀ n s) (hk : m.Reach n₀ s₀ k u)
    (hrank : m.rank k ≤ m.rank n) : m.Reach n s k u := by
  induction h with
  | start => exact hk
  | @step n n' s s' _ hexec hnext ih =>
    have hlt := m.descends n s' n' hnext
    obtain ⟨rfl, -⟩ | ⟨n₁, s₁, hok, hsome, hreach⟩ := (ih (hrank.trans hlt.le)).first
    · exact absurd hrank (not_le.mpr hlt)
    · obtain rfl := Except.ok.inj (hexec.symm.trans hok)
      obtain rfl := Option.some.inj (hnext.symm.trans hsome)
      exact hreach

theorem Reach.trans {n₀ n k : N} {s₀ s u : S} (h : m.Reach n₀ s₀ n s) (hk : m.Reach n s k u) :
    m.Reach n₀ s₀ k u := by
  induction hk with
  | start => exact h
  | step _ hexec hnext ih => exact .step ih hexec hnext

theorem reach_next_iff {n n' k : N} {s s' u : S} (hexec : (m.exec n s).2 = .ok s')
    (hnext : m.next n s' = some n') (hk : k ≠ n) : m.Reach n s k u ↔ m.Reach n' s' k u := by
  constructor
  · intro h
    obtain ⟨rfl, -⟩ | ⟨n₁, s₁, hok, hsome, hreach⟩ := h.first
    · exact absurd rfl hk
    · obtain rfl := Except.ok.inj (hexec.symm.trans hok)
      obtain rfl := Option.some.inj (hnext.symm.trans hsome)
      exact hreach
  · exact fun h => h.prepend hexec hnext

/-- The machine comes no further than a node that raises. -/
theorem Reach.returned {n k : N} {s u : S} (h : m.Reach n s k u) (hk : k ≠ n) :
    ∃ s', (m.exec n s).2 = .ok s' := by
  obtain ⟨rfl, -⟩ | ⟨n₁, s₁, hok, -, -⟩ := h.first
  · exact absurd rfl hk
  · exact ⟨s₁, hok⟩

theorem Reach.ending_eq {n₀ n : N} {s₀ s : S} (h : m.Reach n₀ s₀ n s) :
    (m.run n₀ s₀).ending = (m.run n s).ending := by
  induction h with
  | start => rfl
  | step _ hexec hnext ih =>
    rw [ih, run_of_next hexec hnext]
    rfl

/-- A run comes to a node in one state only. -/
theorem Reach.unique {n₀ n : N} {s₀ s t : S} (hs : m.Reach n₀ s₀ n s) (ht : m.Reach n₀ s₀ n t) :
    s = t := by
  induction n₀, s₀ using runInduction (m := m) with
  | error n₀ s₀ e hexec =>
    obtain ⟨rfl, rfl⟩ | ⟨n₁, s₁, hok, -, -⟩ := hs.first
    · obtain ⟨-, rfl⟩ | ⟨n₁, s₁, hok, -, -⟩ := ht.first
      · rfl
      · exact absurd (hexec.symm.trans hok) nofun
    · exact absurd (hexec.symm.trans hok) nofun
  | stop n₀ s₀ s' hexec hnext =>
    have hstay : ∀ {k u}, m.Reach n₀ s₀ k u → u = s₀ := by
      intro k u hu
      obtain ⟨-, rfl⟩ | ⟨n₁, s₁, hok, hsome, -⟩ := hu.first
      · rfl
      · rw [← Except.ok.inj (hexec.symm.trans hok), hnext] at hsome
        cases hsome
    rw [hstay hs, hstay ht]
  | next n₀ s₀ s' n' hexec hnext ih =>
    have hlt := m.descends n₀ s' n' hnext
    have hrest : ∀ {u}, m.Reach n₀ s₀ n u → (n = n₀ ∧ u = s₀) ∨ m.Reach n' s' n u := by
      intro u hu
      obtain h | ⟨n₁, s₁, hok, hsome, hreach⟩ := hu.first
      · exact .inl h
      · obtain rfl := Except.ok.inj (hexec.symm.trans hok)
        obtain rfl := Option.some.inj (hnext.symm.trans hsome)
        exact .inr hreach
    obtain ⟨rfl, rfl⟩ | hs' := hrest hs
    · obtain ⟨-, rfl⟩ | ht' := hrest ht
      · rfl
      · exact absurd ht'.rank_le (not_le.mpr hlt)
    · obtain ⟨rfl, rfl⟩ | ht' := hrest ht
      · exact absurd hs'.rank_le (not_le.mpr hlt)
      · exact ih hs' ht'

theorem mem_calls_iff {n₀ : N} {s₀ : S} {c : C} :
    c ∈ (m.run n₀ s₀).calls ↔ ∃ n s, m.Reach n₀ s₀ n s ∧ c ∈ (m.exec n s).1 := by
  induction n₀, s₀ using runInduction (m := m) with
  | error n s e hexec =>
    rw [run_of_error hexec]
    constructor
    · exact fun h => ⟨n, s, .start, h⟩
    · rintro ⟨n', s', hreach, h⟩
      obtain ⟨rfl, rfl⟩ | ⟨n₁, s₁, hok, -, -⟩ := hreach.first
      · exact h
      · exact absurd (hexec.symm.trans hok) nofun
  | stop n s s' hexec hnext =>
    rw [run_of_stop hexec hnext]
    constructor
    · exact fun h => ⟨n, s, .start, h⟩
    · rintro ⟨n', s'', hreach, h⟩
      obtain ⟨rfl, rfl⟩ | ⟨n₁, s₁, hok, hsome, -⟩ := hreach.first
      · exact h
      · rw [← Except.ok.inj (hexec.symm.trans hok), hnext] at hsome
        cases hsome
  | next n s s' n' hexec hnext ih =>
    rw [run_of_next hexec hnext, Run.after, List.mem_append, ih]
    constructor
    · rintro (h | ⟨k, t, hreach, h⟩)
      · exact ⟨n, s, .start, h⟩
      · exact ⟨k, t, hreach.prepend hexec hnext, h⟩
    · rintro ⟨k, t, hreach, h⟩
      obtain ⟨rfl, rfl⟩ | ⟨n₁, s₁, hok, hsome, hrest⟩ := hreach.first
      · exact .inl h
      · obtain rfl := Except.ok.inj (hexec.symm.trans hok)
        obtain rfl := Option.some.inj (hnext.symm.trans hsome)
        exact .inr ⟨k, t, hrest, h⟩

theorem visited_reached {n₀ : N} {s₀ : S} {n : N} (h : n ∈ (m.run n₀ s₀).visited) :
    ∃ s, m.Reach n₀ s₀ n s := by
  induction n₀, s₀ using runInduction (m := m) with
  | error n₀ s₀ e hexec =>
    rw [run_of_error hexec] at h
    exact ⟨s₀, List.mem_singleton.mp h ▸ .start⟩
  | stop n₀ s₀ s' hexec hnext =>
    rw [run_of_stop hexec hnext] at h
    exact ⟨s₀, List.mem_singleton.mp h ▸ .start⟩
  | next n₀ s₀ s' n' hexec hnext ih =>
    rw [run_of_next hexec hnext] at h
    obtain rfl | h := List.mem_cons.mp h
    · exact ⟨s₀, .start⟩
    · obtain ⟨s, hreach⟩ := ih h
      exact ⟨s, hreach.prepend hexec hnext⟩

/-- The ranks of the visited nodes go down, so that no node is visited twice. -/
theorem visited_nodup (n₀ : N) (s₀ : S) : (m.run n₀ s₀).visited.Nodup ∧
    ∀ n ∈ (m.run n₀ s₀).visited, m.rank n ≤ m.rank n₀ := by
  induction n₀, s₀ using runInduction (m := m) with
  | error n s e hexec =>
    rw [run_of_error hexec]
    exact ⟨List.nodup_singleton n, fun k hk => List.mem_singleton.mp hk ▸ le_rfl⟩
  | stop n s s' hexec hnext =>
    rw [run_of_stop hexec hnext]
    exact ⟨List.nodup_singleton n, fun k hk => List.mem_singleton.mp hk ▸ le_rfl⟩
  | next n s s' n' hexec hnext ih =>
    have hlt := m.descends n s' n' hnext
    rw [run_of_next hexec hnext]
    refine ⟨List.nodup_cons.mpr ⟨fun h => ?_, ih.1⟩, fun k hk => ?_⟩
    · exact absurd (ih.2 n h) (not_le.mpr hlt)
    · obtain rfl | hk := List.mem_cons.mp hk
      · exact le_rfl
      · exact (ih.2 k hk).trans hlt.le

/-- How a run can end: at a node without a successor, or at one that raises. -/
inductive EndsAt (m : Machine N S E C) (n₀ : N) (s₀ : S) : Run N S E C → Prop
  | finished {n : N} {s s' : S} (front : List N) (calls : List C) : m.Reach n₀ s₀ n s →
      (m.exec n s).2 = .ok s' → m.next n s' = none →
      EndsAt m n₀ s₀ ⟨front ++ [n], calls, .finished s'⟩
  | raised {n : N} {s : S} {e : E} (front : List N) (calls : List C) : m.Reach n₀ s₀ n s →
      (m.exec n s).2 = .error e → EndsAt m n₀ s₀ ⟨front ++ [n], calls, .raised n s e⟩

theorem run_endsAt (n₀ : N) (s₀ : S) : EndsAt m n₀ s₀ (m.run n₀ s₀) := by
  induction n₀, s₀ using runInduction (m := m) with
  | error n s e hexec =>
    rw [run_of_error hexec]
    exact .raised [] _ .start hexec
  | stop n s s' hexec hnext =>
    rw [run_of_stop hexec hnext]
    exact .finished [] _ .start hexec hnext
  | next n s s' n' hexec hnext ih =>
    rw [run_of_next hexec hnext]
    generalize m.run n' s' = rest at ih
    cases ih with
    | finished front calls hreach hexec' hnext' =>
      exact .finished (n :: front) _ (hreach.prepend hexec hnext) hexec' hnext'
    | raised front calls hreach hexec' =>
      exact .raised (n :: front) _ (hreach.prepend hexec hnext) hexec'

end Machine

end DomainRag
