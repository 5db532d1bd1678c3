import Mathlib.Data.List.Infix
import DomainRag.Lib.Dict
import DomainRag.Lib.Threads

/-! # Caches that are read through

A call that misses reads its value from a source, in two readings, and stores it with the time. A
writer changes the source first and then drops what the cache has. A call that read before the
writer may store after it; without such a call, what is returned later was read later.
-/

namespace DomainRag

/-- How a value is read, and what a write does to the source and drops from the cache: nothing, all
of it, or the value of one key. -/
structure ReadThrough (S A K V W E T : Type) where
  start : S → K → Except E W
  finish : S → K → W → Except E V
  write : S → A → S
  drops : A → Option (Option K)
  fresh : T → T → Bool

structure CacheStore (S K V T : Type) where
  source : S
  cache : Dict K (V × T)

inductive CacheCall (A K : Type) where
  | load (key : K)
  | write (change : A)

inductive CacheStage (A K V W E : Type) where
  | looking (key : K)
  | starting (key : K)
  | finishing (key : K) (begun : W)
  | storing (key : K) (value : V)
  | returned (key : K) (value : V)
  | raised (key : K) (e : E)
  | writing (change : A)
  | dropping (which : Option K)
  | done

variable {S A K V W E T : Type} [DecidableEq K]

namespace ReadThrough

section System

variable (r : ReadThrough S A K V W E T)

def step (now : T) (g : CacheStore S K V T) :
    CacheStage A K V W E → CacheStore S K V T × CacheStage A K V W E
  | .looking key =>
    match g.cache.get? key with
    | some (value, time) => (g, if r.fresh time now then .returned key value else .starting key)
    | none => (g, .starting key)
  | .starting key =>
    match r.start g.source key with
    | .ok begun => (g, .finishing key begun)
    | .error e => (g, .raised key e)
  | .finishing key begun =>
    match r.finish g.source key begun with
    | .ok value => (g, .storing key value)
    | .error e => (g, .raised key e)
  | .storing key value => ({ g with cache := g.cache.set key (value, now) }, .returned key value)
  | .writing change =>
    ({ g with source := r.write g.source change }, (r.drops change).elim .done .dropping)
  | .dropping which => ({ g with cache := which.elim .empty g.cache.erase }, .done)
  | .returned key value => (g, .returned key value)
  | .raised key e => (g, .raised key e)
  | .done => (g, .done)

def calls : Threads (CacheStore S K V T) (CacheStage A K V W E) (CacheCall A K) T where
  enter
    | .load key => .looking key
    | .write change => .writing change
  step := r.step

variable (source : S)

def run (moves : List (Move (CacheCall A K) T)) :
    Pool (CacheStore S K V T) (CacheStage A K V W E) := r.calls.run ⟨⟨source, .empty⟩, []⟩ moves

/-- The value was read between two points of the run: begun from the source as it was at one
moment, and finished from what it was at a later one. -/
def Made (since upto : List (Move (CacheCall A K) T)) (key : K) (value : V) : Prop :=
  ∃ first second begun, since <+: first ∧ first <+: second ∧ second <+: upto ∧
    r.start (r.run source first).shared.source key = .ok begun ∧
    r.finish (r.run source second).shared.source key begun = .ok value

/-- The value was read after the first point of the run, and then stored at the time. -/
def Stored (since upto : List (Move (CacheCall A K) T)) (key : K) (value : V) (time : T) : Prop :=
  ∃ before i, before ++ [.advance i time] <+: upto ∧ r.Made source since before key value

/-- Nothing of the key is in the cache, and no call has begun to read it. -/
structure Settled (key : K) (p : Pool (CacheStore S K V T) (CacheStage A K V W E)) : Prop where
  cache : p.shared.cache.get? key = none
  finishing : ∀ begun, .finishing key begun ∉ p.threads
  storing : ∀ value, .storing key value ∉ p.threads

end System

section Runs

variable {r : ReadThrough S A K V W E T} {source : S}
  {since moves moves' : List (Move (CacheCall A K) T)} {key : K} {value : V} {time now : T}

theorem Made.mono (h : r.Made source since moves key value) (hmoves : moves <+: moves') :
    r.Made source since moves' key value := by
  obtain ⟨first, second, begun, hfirst, hsecond, hupto, hmade⟩ := h
  exact ⟨first, second, begun, hfirst, hsecond, hupto.trans hmoves, hmade⟩

theorem Stored.mono (h : r.Stored source since moves key value time) (hmoves : moves <+: moves') :
    r.Stored source since moves' key value time := by
  obtain ⟨before, i, hbefore, hmade⟩ := h
  exact ⟨before, i, hbefore.trans hmoves, hmade⟩

/-- A call has begun to read after the point, or its value was read after it. -/
def Late (r : ReadThrough S A K V W E T) (source : S) (since moves : List (Move (CacheCall A K) T))
    (key : K) : CacheStage A K V W E → Prop
  | .finishing k begun => k = key → ∃ first, since <+: first ∧ first <+: moves ∧
      r.start (r.run source first).shared.source key = .ok begun
  | .storing k value => k = key → r.Made source since moves key value
  | _ => True

/-- What holds from a settled point on. -/
structure Kept (r : ReadThrough S A K V W E T) (source : S)
    (since moves : List (Move (CacheCall A K) T)) (key : K)
    (p : Pool (CacheStore S K V T) (CacheStage A K V W E)) : Prop where
  cached : ∀ value time, p.shared.cache.get? key = some (value, time) →
    r.Stored source since moves key value time
  late : ∀ l ∈ p.threads, Late r source since moves key l

theorem Late.mono {l : CacheStage A K V W E} (h : Late r source since moves key l)
    (hmoves : moves <+: moves') : Late r source since moves' key l := by
  cases l with
  | finishing k begun =>
    intro hk
    obtain ⟨first, hsince, hfirst, hstart⟩ := h hk
    exact ⟨first, hsince, hfirst.trans hmoves, hstart⟩
  | storing k value => exact fun hk => (h hk).mono hmoves
  | looking k => trivial
  | starting k => trivial
  | returned k value => trivial
  | raised k e => trivial
  | writing change => trivial
  | dropping which => trivial
  | done => trivial

theorem Kept.mono {p : Pool (CacheStore S K V T) (CacheStage A K V W E)}
    (h : Kept r source since moves key p) (hmoves : moves <+: moves') :
    Kept r source since moves' key p :=
  ⟨fun value time hcache => (h.cached value time hcache).mono hmoves,
    fun l hl => (h.late l hl).mono hmoves⟩

/-- A step stores a value that was read before it, and leaves the other calls as they are. -/
theorem Kept.advance (hsince : since <+: moves)
    (h : Kept r source since moves key (r.run source moves)) {i : Nat} {l : CacheStage A K V W E} (hl : (r.run source moves).threads[i]? = some l) :
    (∀ value time, (r.step now (r.run source moves).shared l).1.cache.get? key = some (value, time) →
      r.Stored source since (moves ++ [.advance i now]) key value time) ∧
    Late r source since (moves ++ [.advance i now]) key
      (r.step now (r.run source moves).shared l).2 := by
  have hmoves : moves <+: moves ++ [.advance i now] := List.prefix_append _ _
  have hcached : ∀ value time, (r.run source moves).shared.cache.get? key = some (value, time) →
      r.Stored source since (moves ++ [.advance i now]) key value time :=
    fun value time hcache => (h.cached value time hcache).mono hmoves
  have hlate := h.late l (List.mem_of_getElem? hl)
  cases l with
  | looking k =>
    rw [step]
    split
    · refine ⟨hcached, ?_⟩
      dsimp only
      split <;> trivial
    · exact ⟨hcached, trivial⟩
  | starting k =>
    rw [step]
    split
    · rename_i begun hstart
      refine ⟨hcached, ?_⟩
      rintro rfl
      exact ⟨moves, hsince, hmoves, hstart⟩
    · exact ⟨hcached, trivial⟩
  | finishing k begun =>
    rw [step]
    split
    · rename_i value hfinish
      refine ⟨hcached, ?_⟩
      rintro rfl
      obtain ⟨first, hfirst, hstarts, hstart⟩ := hlate rfl
      exact ⟨first, moves, begun, hfirst, hstarts, hmoves, hstart, hfinish⟩
    · exact ⟨hcached, trivial⟩
  | storing k value =>
    refine ⟨fun value' time hget => ?_, trivial⟩
    rw [step] at hget
    simp only [Dict.get?_set] at hget
    split at hget
    · rename_i hk
      cases hget
      exact ⟨moves, i, List.prefix_rfl, hlate hk.symm⟩
    · exact hcached value' time hget
  | writing change =>
    refine ⟨hcached, ?_⟩
    rw [step]
    cases r.drops change <;> trivial
  | dropping which =>
    refine ⟨fun value time hget => ?_, trivial⟩
    cases which with
    | none => cases hget
    | some k =>
      rw [step] at hget
      simp only [Option.elim_some, Dict.get?_erase] at hget
      split at hget
      · cases hget
      · exact hcached value time hget
  | returned k value => exact ⟨hcached, trivial⟩
  | raised k e => exact ⟨hcached, trivial⟩
  | done => exact ⟨hcached, trivial⟩

theorem kept_run (hsettled : Settled key (r.run source since))
    (rest : List (Move (CacheCall A K) T)) :
    Kept r source since (since ++ rest) key (r.run source (since ++ rest)) := by
  induction rest using List.reverseRecOn with
  | nil =>
    rw [List.append_nil]
    refine ⟨fun value time hget => ?_, fun l hl => ?_⟩
    · rw [hsettled.cache] at hget
      cases hget
    · cases l with
      | finishing k begun =>
        rintro rfl
        exact absurd hl (hsettled.finishing begun)
      | storing k value =>
        rintro rfl
        exact absurd hl (hsettled.storing value)
      | _ => trivial
  | append_singleton rest move ih =>
    rw [← List.append_assoc]
    have hmono := ih.mono (List.prefix_append (since ++ rest) [move])
    have hrun : r.run source (since ++ rest ++ [move]) =
        r.calls.move (r.run source (since ++ rest)) move := Threads.run_append _ [move]
    rw [hrun]
    obtain ⟨call, rfl, hmove⟩ | ⟨i, now, rfl, -, hmove⟩ | ⟨i, now, l, rfl, hl, hmove⟩ :=
      r.calls.move_cases (r.run source (since ++ rest)) move
    · rw [hmove]
      refine ⟨hmono.cached, fun l hl => ?_⟩
      obtain hl | hl := List.mem_append.mp hl
      · exact hmono.late l hl
      · rw [List.mem_singleton.mp hl]
        cases call <;> trivial
    · rw [hmove]
      exact hmono
    · obtain ⟨hcached, hlate⟩ := ih.advance (List.prefix_append since rest) hl
      rw [hmove]
      refine ⟨hcached, fun l' hl' => ?_⟩
      obtain hl' | rfl := List.mem_or_eq_of_mem_set hl'
      · exact hmono.late l' hl'
      · exact hlate

/-- What a call returns from a settled point on was read after it, by the call itself or by one that
stored it when it was still fresh. -/
theorem served (hsettled : Settled key (r.run source since)) (hsince : since <+: moves) {i : Nat}
    (hbefore : (r.run source moves).threads[i]? ≠ some (.returned key value))
    (hafter : (r.run source (moves ++ [.advance i now])).threads[i]? = some (.returned key value)) :
    r.Made source since moves key value ∨
      ∃ time, r.Stored source since moves key value time ∧ r.fresh time now := by
  obtain ⟨rest, rfl⟩ := hsince
  have hkept := kept_run hsettled rest
  have hrun : r.run source (since ++ rest ++ [.advance i now]) =
      r.calls.move (r.run source (since ++ rest)) (.advance i now) := Threads.run_append _ [_]
  rw [hrun] at hafter
  cases hl : (r.run source (since ++ rest)).threads[i]? with
  | none =>
    rw [Threads.move, hl] at hafter
    exact absurd hafter hbefore
  | some l =>
    rw [Threads.getElem?_move_advance now hl] at hafter
    have hstep : (r.step now (r.run source (since ++ rest)).shared l).2 = .returned key value :=
      Option.some.inj hafter
    have hlate := hkept.late l (List.mem_of_getElem? hl)
    cases l with
    | looking k =>
      rw [step] at hstep
      split at hstep
      · rename_i time hget
        dsimp only at hstep
        split at hstep
        · rename_i hfresh
          cases hstep
          exact .inr ⟨time, hkept.cached _ time hget, hfresh⟩
        · cases hstep
      · cases hstep
    | storing k stored =>
      cases hstep
      exact .inl (hlate rfl)
    | starting k =>
      rw [step] at hstep
      split at hstep <;> cases hstep
    | finishing k begun =>
      rw [step] at hstep
      split at hstep <;> cases hstep
    | writing change =>
      rw [step] at hstep
      cases hdrops : r.drops change <;> rw [hdrops] at hstep <;> cases hstep
    | returned k old =>
      cases hstep
      exact absurd hl hbefore
    | dropping which => cases hstep
    | raised k e => cases hstep
    | done => cases hstep

theorem settled_start (key : K) : Settled key (r.run source []) := ⟨rfl, nofun, nofun⟩

/-- A key is settled once it is dropped, when no call has begun to read it. -/
theorem settled_dropped {i : Nat} {which : Option K}
    (hl : (r.run source moves).threads[i]? = some (.dropping which))
    (hwhich : ∀ k, which = some k → k = key)
    (hfinishing : ∀ begun, .finishing key begun ∉ (r.run source moves).threads)
    (hstoring : ∀ value, .storing key value ∉ (r.run source moves).threads) :
    Settled key (r.run source (moves ++ [.advance i now])) := by
  have hrun : r.run source (moves ++ [.advance i now]) =
      r.calls.move (r.run source moves) (.advance i now) := Threads.run_append _ [_]
  rw [hrun, Threads.move_advance now hl]
  constructor
  · cases which with
    | none => rfl
    | some k =>
      obtain rfl := hwhich k rfl
      exact (Dict.get?_erase _ _ _).trans (if_pos rfl)
  · intro begun hmem
    obtain hmem | hmem := List.mem_or_eq_of_mem_set hmem
    · exact hfinishing begun hmem
    · cases hmem
  · intro value hmem
    obtain hmem | hmem := List.mem_or_eq_of_mem_set hmem
    · exact hstoring value hmem
    · cases hmem

end Runs

end ReadThrough

end DomainRag
