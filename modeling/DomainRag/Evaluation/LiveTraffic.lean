import DomainRag.Lib.DeepMerge
import DomainRag.Lib.Except
import DomainRag.Lib.Threads

/-! # Evaluations beside live traffic

An evaluation case puts its own loader into the dependencies that it shares with the chat requests,
runs the graph, and puts back what it found there. Requests and cases read the loader when they come
to the node that loads the configuration. Whoever reads it while a case is running gets the loader
of that case, and a job that starts meanwhile builds on it and puts it back in the end.
-/

namespace DomainRag.Evaluation

inductive Loader where
  | original
  | patched (base : Loader) (override : Value)

def patchedLoader (baseLoader : String → Except Exc Value) (mergedOverride : Value)
    (tid : String) : Except Exc Value := do
  let cfg ← baseLoader tid
  return Value.deepMerge (some (cfg.orElse (.dict []))) mergedOverride

def Loader.load (configLoader : String → Except Exc Value) : Loader → String → Except Exc Value
  | .original => configLoader
  | .patched base override => patchedLoader (base.load configLoader) override

/-- Where a chat request or an evaluation job stands. A running job has the loader on which its
runner builds, the one it found and will put back, the override of its case and those of the cases
to come. -/
inductive Traffic where
  | asking
  | answered
  | queued (overrides : List Value)
  | running (base found : Loader) (override : Value) (rest : List Value)
  | finished

inductive TrafficCall where
  | chat
  | evaluation (overrides : List Value)

/-- What a running case comes to next. -/
inductive CaseEvent where
  | loads
  | waits
  | returns
  | raises

/-- A runner enters its next case, or ends after the last. -/
def nextCase (base loader : Loader) : List Value → Loader × Traffic
  | [] => (loader, .finished)
  | override :: rest => (.patched base override, .running base loader override rest)

def trafficStep (event : CaseEvent) (loader : Loader) : Traffic → Loader × Traffic
  | .asking => (loader, .answered)
  | .queued overrides => nextCase loader loader overrides
  | .running base found override rest =>
    match event with
    | .loads | .waits => (loader, .running base found override rest)
    | .returns => nextCase base found rest
    | .raises => (found, .finished)
  | stage => (loader, stage)

def traffic : Threads Loader Traffic TrafficCall CaseEvent where
  enter
    | .chat => .asking
    | .evaluation overrides => .queued overrides
  step := trafficStep

def Traffic.isRunning : Traffic → Bool
  | .running _ _ _ _ => true
  | _ => false

/-- A request loads through the original loader, and a case through its own override over it. -/
def LoadsOwn (p : Pool Loader Traffic) : Move TrafficCall CaseEvent → Prop
  | .advance i event =>
    match p.threads[i]?, event with
    | some .asking, _ => p.shared = .original
    | some (.running _ _ override _), .loads => ∀ configLoader,
      p.shared.load configLoader = patchedLoader configLoader override
    | _, _ => True
  | .start _ => True

structure Undisturbed (ms : List (Move TrafficCall CaseEvent)) : Prop where
  loads : Along traffic.move LoadsOwn ms ⟨.original, []⟩
  restored : ∀ pre, pre <+: ms → (∀ l ∈ (traffic.run ⟨.original, []⟩ pre).threads,
    l.isRunning = false) → (traffic.run ⟨.original, []⟩ pre).shared = .original

/-- No request loads its configuration and no job enters its first case while a job is running. -/
def OneAtATime (p : Pool Loader Traffic) : Move TrafficCall CaseEvent → Prop
  | .advance i _ =>
    match p.threads[i]? with
    | some .asking | some (.queued (_ :: _)) => ∀ l ∈ p.threads, l.isRunning = false
    | _ => True
  | .start _ => True

section Runs

/-- Either no job is running and the loader is the original one, or one job is and the loader is
that of its case. -/
def Sole (p : Pool Loader Traffic) : Prop :=
  (p.shared = .original ∧ ∀ l ∈ p.threads, l.isRunning = false) ∨
    ∃ (i : Nat) (override : Value) (rest : List Value),
      p.threads[i]? = some (Traffic.running .original .original override rest) ∧
        p.shared = .patched .original override ∧
          ∀ (j : Nat) (l : Traffic), j ≠ i → p.threads[j]? = some l → l.isRunning = false

variable {p : Pool Loader Traffic}

theorem quiet_of_set {threads : List Traffic} {i j : Nat} {l l' : Traffic}
    (hl' : l'.isRunning = false) (h : j ≠ i → threads[j]? = some l → l.isRunning = false)
    (hj : (threads.set i l')[j]? = some l) : l.isRunning = false := by
  rw [List.getElem?_set] at hj
  split at hj
  · split at hj
    · cases hj
      exact hl'
    · cases hj
  · rename_i hne
    exact h (Ne.symm hne) hj

theorem quiet_set {threads : List Traffic} {i : Nat} {l' : Traffic} (hl' : l'.isRunning = false)
    (h : ∀ (j : Nat) (l : Traffic), j ≠ i → threads[j]? = some l → l.isRunning = false) :
    ∀ l ∈ threads.set i l', l.isRunning = false := by
  intro l hl
  obtain ⟨j, hj⟩ := List.mem_iff_getElem?.mp hl
  exact quiet_of_set hl' (h j l) hj

/-- After the last or the next case of the only running job, or its first. -/
theorem sole_nextCase {i : Nat} {l : Traffic} (hi : p.threads[i]? = some l)
    (hothers : ∀ (j : Nat) (l : Traffic), j ≠ i → p.threads[j]? = some l → l.isRunning = false)
    (rest : List Value) :
    Sole ⟨(nextCase .original .original rest).1,
      p.threads.set i (nextCase .original .original rest).2⟩ := by
  cases rest with
  | nil => exact .inl ⟨rfl, quiet_set rfl hothers⟩
  | cons override rest =>
    right
    refine ⟨i, override, rest, ?_, rfl, ?_⟩
    · exact List.getElem?_set_self (List.getElem?_eq_some_iff.mp hi).1
    · intro j l hj hl
      rw [List.getElem?_set_ne (Ne.symm hj)] at hl
      exact hothers j l hj hl

theorem Sole.shared_of_quiet (h : Sole p) (hquiet : ∀ l ∈ p.threads, l.isRunning = false) :
    p.shared = .original := by
  obtain ⟨hshared, -⟩ | ⟨k, override, rest, hk, -, -⟩ := h
  · exact hshared
  · cases hquiet _ (List.mem_of_getElem? hk)

theorem others_of_quiet {i : Nat} (h : ∀ l ∈ p.threads, l.isRunning = false) :
    ∀ (j : Nat) (l : Traffic), j ≠ i → p.threads[j]? = some l → l.isRunning = false :=
  fun _ l _ hl => h l (List.mem_of_getElem? hl)

theorem sole_of_same {i : Nat} {l l' : Traffic} (hi : p.threads[i]? = some l)
    (hl : l.isRunning = false) (hl' : l'.isRunning = false) (h : Sole p) :
    Sole ⟨p.shared, p.threads.set i l'⟩ := by
  obtain ⟨hshared, hquiet⟩ | ⟨k, override, rest, hk, hshared, hothers⟩ := h
  · exact .inl ⟨hshared, quiet_set hl' (others_of_quiet hquiet)⟩
  · have hne : i ≠ k := by
      rintro rfl
      rw [hi] at hk
      cases hk
      cases hl
    refine .inr ⟨k, override, rest, ?_, hshared, ?_⟩
    · rwa [List.getElem?_set_ne hne]
    · intro j l₀ hj
      exact quiet_of_set hl' fun _ => hothers j l₀ hj

/-- The call at a running place is the one of the invariant. -/
theorem Sole.running {i : Nat} {base found : Loader} {override : Value} {rest : List Value}
    (h : Sole p) (hi : p.threads[i]? = some (.running base found override rest)) :
    base = .original ∧ found = .original ∧ p.shared = .patched .original override ∧
      ∀ (j : Nat) (l : Traffic), j ≠ i → p.threads[j]? = some l → l.isRunning = false := by
  obtain ⟨-, hquiet⟩ | ⟨k, override', rest', hk, hshared, hothers⟩ := h
  · cases hquiet _ (List.mem_of_getElem? hi)
  · have hik : i = k := by
      by_contra hne
      cases hothers i _ hne hi
    subst hik
    rw [hi] at hk
    cases hk
    exact ⟨rfl, rfl, hshared, hothers⟩

theorem Sole.start {stage : Traffic} (hstage : stage.isRunning = false) (h : Sole p) :
    Sole ⟨p.shared, p.threads ++ [stage]⟩ := by
  obtain ⟨hshared, hquiet⟩ | ⟨k, override, rest, hk, hshared, hothers⟩ := h
  · refine .inl ⟨hshared, ?_⟩
    intro l hl
    obtain hl | hl := List.mem_append.mp hl
    · exact hquiet l hl
    · rw [List.mem_singleton.mp hl]
      exact hstage
  · have hlt : k < p.threads.length := (List.getElem?_eq_some_iff.mp hk).1
    refine .inr ⟨k, override, rest, ?_, hshared, ?_⟩
    · rwa [List.getElem?_append_left hlt]
    · intro j l hj hl
      obtain hl' | hl' := List.mem_append.mp (List.mem_of_getElem? hl)
      · by_cases hlen : j < p.threads.length
        · rw [List.getElem?_append_left hlen] at hl
          exact hothers j l hj hl
        · rw [List.getElem?_append_right (Nat.le_of_not_lt hlen)] at hl
          rw [List.mem_singleton.mp (List.mem_of_getElem? hl)]
          exact hstage
      · rw [List.mem_singleton.mp hl']
        exact hstage

theorem Sole.move {m : Move TrafficCall CaseEvent} (h : Sole p) (hm : OneAtATime p m) :
    Sole (traffic.move p m) := by
  obtain ⟨call, rfl, hmove⟩ | ⟨i, event, rfl, -, hmove⟩ | ⟨i, event, l, rfl, hi, hmove⟩ :=
    traffic.move_cases p m
  · rw [hmove]
    cases call <;> exact h.start rfl
  · rwa [hmove]
  · rw [hmove]
    simp only [OneAtATime, hi] at hm
    cases l with
    | asking => exact sole_of_same hi rfl rfl h
    | answered => exact sole_of_same hi rfl rfl h
    | finished => exact sole_of_same hi rfl rfl h
    | queued overrides =>
      cases overrides with
      | nil => exact sole_of_same hi rfl rfl h
      | cons override rest =>
        change Sole ⟨(nextCase p.shared p.shared (override :: rest)).1,
          p.threads.set i (nextCase p.shared p.shared (override :: rest)).2⟩
        rw [h.shared_of_quiet hm]
        exact sole_nextCase hi (others_of_quiet hm) (override :: rest)
    | running base found override rest =>
      obtain ⟨rfl, rfl, hshared, hothers⟩ := h.running hi
      cases event with
      | loads | waits =>
        obtain ⟨hlt, heq⟩ := List.getElem?_eq_some_iff.mp hi
        have hset : p.threads.set i (.running .original .original override rest) = p.threads := by
          rw [← heq, List.set_getElem_self]
        change Sole ⟨p.shared, p.threads.set i (.running .original .original override rest)⟩
        rwa [hset]
      | returns => exact sole_nextCase hi hothers rest
      | raises => exact .inl ⟨rfl, quiet_set rfl hothers⟩

theorem loadsOwn_of_sole {m : Move TrafficCall CaseEvent} (h : Sole p) (hm : OneAtATime p m) :
    LoadsOwn p m := by
  cases m with
  | start call => trivial
  | advance i event =>
    simp only [LoadsOwn, OneAtATime] at hm ⊢
    cases hi : p.threads[i]? with
    | none => trivial
    | some l =>
      rw [hi] at hm
      cases l with
      | asking => exact h.shared_of_quiet hm
      | running base found override rest =>
        cases event with
        | loads =>
          intro configLoader
          rw [(h.running hi).2.2.1]
          rfl
        | waits | returns | raises => trivial
      | answered | queued | finished => trivial

/-- In every run in which no request loads and no job starts while a job is running, the loader that
is read is the right one, and the original one is back whenever no job is running. -/
theorem undisturbed_of_oneAtATime (ms : List (Move TrafficCall CaseEvent))
    (h : Along traffic.move OneAtATime ms ⟨.original, []⟩) : Undisturbed ms where
  loads := h.of_invariant (I := Sole) (.inl ⟨rfl, fun _ hl => absurd hl List.not_mem_nil⟩)
    fun _ _ _ hp hm => ⟨hp.move hm, loadsOwn_of_sole hp hm⟩
  restored := by
    rintro pre ⟨post, rfl⟩ hquiet
    have hsole : Sole (traffic.run ⟨.original, []⟩ pre) := h.of_append.final
      (.inl ⟨rfl, fun _ hl => absurd hl List.not_mem_nil⟩) fun _ _ _ hp hm => hp.move hm
    exact hsole.shared_of_quiet hquiet

end Runs

/-- A job runs a case to its end, then a request is answered. -/
theorem evaluation_then_chat :
    Undisturbed [.start (.evaluation [.dict [("a", .int 1)]]), .advance 0 .waits, .advance 0 .loads,
      .advance 0 .returns, .start .chat, .advance 1 .waits] := by
  refine undisturbed_of_oneAtATime _ ⟨trivial, ?_, trivial, trivial, trivial, ?_, trivial⟩
  · exact List.forall_mem_singleton.mpr rfl
  · exact List.forall_mem_cons.mpr ⟨rfl, List.forall_mem_singleton.mpr rfl⟩

/-- A request comes to its loader while the case of a job is running. -/
def chatDuringCase : List (Move TrafficCall CaseEvent) :=
  [.start (.evaluation [.dict [("a", .int 1)]]), .advance 0 .waits, .start .chat, .advance 1 .waits]

/-- A second job starts while the first is running, and ends after it. -/
def overlappingJobs : List (Move TrafficCall CaseEvent) :=
  [.start (.evaluation [.dict [("a", .int 1)]]), .start (.evaluation [.dict [("b", .int 2)]]),
    .advance 0 .waits, .advance 1 .waits, .advance 0 .returns, .advance 1 .loads,
    .advance 1 .returns]

theorem case_loader_reaches_others :
    ¬ Undisturbed chatDuringCase ∧ ¬ Undisturbed overlappingJobs := by
  constructor
  · intro h
    cases h.loads.2.2.2.1
  · intro h
    cases h.restored overlappingJobs (List.prefix_refl _) (by decide)

end DomainRag.Evaluation
