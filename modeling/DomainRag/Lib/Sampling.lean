import Mathlib.Algebra.Ring.Int.Defs
import Mathlib.Data.List.Perm.Subperm
import DomainRag.Lib.Dict

/-! # Samples from groups

A list is split into groups by a key, and a generator draws from each group as many elements as are
asked for, or the whole group. The draws of distinct keys are apart from each other.
-/

namespace DomainRag.Sampling

variable {A K : Type}

/-- A random generator. What it draws may depend on how often it was asked before. -/
structure Sampler (A : Type) where
  sample : Nat → List A → Nat → List A
  subperm : ∀ i pool k, k ≤ pool.length → (sample i pool k).Subperm pool
  length_sample : ∀ i pool k, k ≤ pool.length → (sample i pool k).length = k

section Groups

variable [DecidableEq K] (key : A → K)

def group (xs : List A) (k : K) : List A := xs.filter fun x => key x = k

def insertGroup (d : Dict K (List A)) (x : A) : Dict K (List A) :=
  d.set (key x) ((d.get? (key x)).getD [] ++ [x])

def groups (xs : List A) : Dict K (List A) := xs.foldl (insertGroup key) .empty

theorem getD_foldl_insertGroup (xs : List A) (d : Dict K (List A)) (k : K) :
    ((xs.foldl (insertGroup key) d).get? k).getD [] = (d.get? k).getD [] ++ group key xs k := by
  induction xs generalizing d with
  | nil => simp [group]
  | cons x xs ih =>
    rw [List.foldl_cons, ih, insertGroup, Dict.get?_set, group, group, List.filter_cons]
    by_cases h : key x = k
    · simp [h]
    · simp [h, Ne.symm h]

theorem getD_groups (xs : List A) (k : K) : ((groups key xs).get? k).getD [] = group key xs k := by
  rw [groups, getD_foldl_insertGroup]
  rfl

end Groups

section Draws

variable [DecidableEq K] (sampler : Sampler A) (key : A → K) (pool : List A)

/-- How much is drawn from the group of a key. -/
def share (e : K × Int) : Int := min ((group key pool e.1).length : Int) e.2

/-- The draws for the requests, from the `i`th question to the generator on. -/
def draws : List (K × Int) → Nat → List A
  | [], _ => []
  | e :: rest, i =>
    if 0 < share key pool e then
      sampler.sample i (group key pool e.1) (share key pool e).toNat ++ draws rest (i + 1)
    else draws rest i

variable {sampler key pool}

theorem toNat_share_le (e : K × Int) :
    (share key pool e).toNat ≤ (group key pool e.1).length := by
  simp only [share]
  omega

theorem key_of_mem_sample {i : Nat} {e : K × Int} {x : A}
    (h : x ∈ sampler.sample i (group key pool e.1) (share key pool e).toNat) :
    x ∈ pool ∧ key x = e.1 := by
  have hgroup := (sampler.subperm i _ _ (toNat_share_le e)).subset h
  rw [group, List.mem_filter] at hgroup
  exact ⟨hgroup.1, by simpa using hgroup.2⟩

theorem mem_draws {requests : List (K × Int)} {i : Nat} {x : A}
    (h : x ∈ draws sampler key pool requests i) : x ∈ pool ∧ key x ∈ requests.map Prod.fst := by
  induction requests generalizing i with
  | nil => cases h
  | cons e rest ih =>
    rw [draws] at h
    split at h
    · rcases List.mem_append.mp h with h | h
      · obtain ⟨hpool, hkey⟩ := key_of_mem_sample h
        exact ⟨hpool, by simp [hkey]⟩
      · exact ⟨(ih h).1, List.mem_cons_of_mem _ (ih h).2⟩
    · exact ⟨(ih h).1, List.mem_cons_of_mem _ (ih h).2⟩

theorem nodup_sample (hpool : pool.Nodup) (i : Nat) (e : K × Int) :
    (sampler.sample i (group key pool e.1) (share key pool e).toNat).Nodup := by
  obtain ⟨l, hperm, hsub⟩ := sampler.subperm i (group key pool e.1) _ (toNat_share_le e)
  exact hperm.nodup_iff.mp (hsub.nodup (hpool.filter _))

theorem nodup_draws {requests : List (K × Int)} (hpool : pool.Nodup)
    (hkeys : (requests.map Prod.fst).Nodup) (i : Nat) :
    (draws sampler key pool requests i).Nodup := by
  induction requests generalizing i with
  | nil => exact List.nodup_nil
  | cons e rest ih =>
    rw [List.map_cons, List.nodup_cons] at hkeys
    rw [draws]
    split
    · rw [List.nodup_append]
      refine ⟨nodup_sample hpool i e, ih hkeys.2 (i + 1), ?_⟩
      rintro x hx _ hy rfl
      have hkey := (key_of_mem_sample hx).2
      exact hkeys.1 (hkey ▸ (mem_draws hy).2)
    · exact ih hkeys.2 i

theorem group_draws_of_notMem {requests : List (K × Int)} {k : K}
    (hk : k ∉ requests.map Prod.fst) (i : Nat) :
    group key (draws sampler key pool requests i) k = [] := by
  rw [group, List.filter_eq_nil_iff]
  intro x hx
  have hkey := (mem_draws hx).2
  simp only [decide_eq_true_eq]
  rintro rfl
  exact hk hkey

theorem group_append (xs ys : List A) (k : K) :
    group key (xs ++ ys) k = group key xs k ++ group key ys k :=
  List.filter_append xs ys

theorem group_sample (i : Nat) (e : K × Int) (k : K) :
    group key (sampler.sample i (group key pool e.1) (share key pool e).toNat) k =
      if k = e.1 then sampler.sample i (group key pool e.1) (share key pool e).toNat else [] := by
  split
  · next hk =>
    rw [group, List.filter_eq_self]
    intro x hx
    simpa [hk] using (key_of_mem_sample hx).2
  · next hk =>
    rw [group, List.filter_eq_nil_iff]
    intro x hx
    simpa [(key_of_mem_sample hx).2] using Ne.symm hk

/-- As much is drawn from a group as was asked for, or all of it. -/
theorem length_group_draws {requests : List (K × Int)} (hkeys : (requests.map Prod.fst).Nodup)
    (i : Nat) {e : K × Int} (he : e ∈ requests) :
    ((group key (draws sampler key pool requests i) e.1).length : Int) =
      max 0 (share key pool e) := by
  induction requests generalizing i with
  | nil => cases he
  | cons e₀ rest ih =>
    rw [List.map_cons, List.nodup_cons] at hkeys
    rcases List.mem_cons.mp he with rfl | he
    · have hrest (j : Nat) : group key (draws sampler key pool rest j) e.1 = [] :=
        group_draws_of_notMem hkeys.1 j
      rw [draws]
      split
      · rw [group_append, group_sample, if_pos rfl, hrest, List.append_nil,
          sampler.length_sample i _ _ (toNat_share_le e)]
        omega
      · rw [hrest, List.length_nil]
        omega
    · have hne : e.1 ≠ e₀.1 := by
        rintro heq
        exact hkeys.1 (heq ▸ List.mem_map_of_mem he)
      rw [draws]
      split
      · rw [group_append, group_sample, if_neg hne, List.nil_append, ih hkeys.2 (i + 1) he]
      · exact ih hkeys.2 i he

theorem length_draws (requests : List (K × Int)) (i : Nat) :
    ((draws sampler key pool requests i).length : Int) =
      (requests.map fun e => max 0 (share key pool e)).sum := by
  induction requests generalizing i with
  | nil => rfl
  | cons e rest ih =>
    rw [draws, List.map_cons, List.sum_cons]
    split
    · rw [List.length_append, sampler.length_sample i _ _ (toNat_share_le e), ← ih (i + 1)]
      omega
    · rw [ih i]
      omega

end Draws

end DomainRag.Sampling
