import Mathlib.Data.List.Sort

/-! # Ranking by a key

The stable sort that puts the largest key first, and what it determines: the same entries, in the
order of their keys, where entries with equal keys stay in the order they came in.
-/

namespace DomainRag

variable {A K : Type} [LinearOrder K]

def rank (key : A → K) (xs : List A) : List A := xs.insertionSort fun a b => key b ≤ key a

structure Ranked (key : A → K) (xs ys : List A) : Prop where
  perm : ys.Perm xs
  sorted : ys.Pairwise fun a b => key b ≤ key a
  stable : ∀ k, ys.filter (fun a => key a = k) = xs.filter fun a => key a = k

theorem filter_rank (key : A → K) (xs : List A) (k : K) :
    (rank key xs).filter (fun a => key a = k) = xs.filter fun a => key a = k := by
  have : Std.Total fun a b : A => key b ≤ key a := ⟨fun a b => le_total (key b) (key a)⟩
  have : IsTrans A fun a b => key b ≤ key a := ⟨fun _ _ _ hab hbc => hbc.trans hab⟩
  have hsame : (xs.filter fun a => key a = k).Pairwise fun a b => key b ≤ key a := by
    refine List.pairwise_of_forall_mem_list ?_
    intro a ha b hb
    have hka : key a = k := of_decide_eq_true (List.mem_filter.mp ha).2
    have hkb : key b = k := of_decide_eq_true (List.mem_filter.mp hb).2
    rw [hka, hkb]
  have hsub := (List.sublist_insertionSort hsame List.filter_sublist).filter fun a => key a = k
  simp only [List.filter_filter, Bool.and_self] at hsub
  refine (hsub.eq_of_length ?_).symm
  exact ((List.perm_insertionSort _ xs).filter _).length_eq.symm

theorem ranked_rank (key : A → K) (xs : List A) : Ranked key xs (rank key xs) where
  perm := List.perm_insertionSort _ xs
  sorted := by
    have : Std.Total fun a b : A => key b ≤ key a := ⟨fun a b => le_total (key b) (key a)⟩
    have : IsTrans A fun a b => key b ≤ key a := ⟨fun _ _ _ hab hbc => hbc.trans hab⟩
    exact List.pairwise_insertionSort _ xs
  stable := filter_rank key xs

namespace Ranked

variable {key key' : A → K} {xs ys : List A}

/-- A list is ranked by a key that does not tell its entries apart. -/
theorem of_const {k : K} (h : ∀ a ∈ xs, key a = k) : Ranked key xs xs where
  perm := List.Perm.refl xs
  sorted := by
    refine List.pairwise_of_forall_mem_list ?_
    intro a ha b hb
    rw [h a ha, h b hb]
  stable _ := rfl

theorem congr (h : Ranked key xs ys) (hkey : ∀ a ∈ xs, key' a = key a) : Ranked key' xs ys where
  perm := h.perm
  sorted := by
    refine h.sorted.imp_of_mem ?_
    intro a b ha hb hab
    rw [hkey a (h.perm.mem_iff.mp ha), hkey b (h.perm.mem_iff.mp hb)]
    exact hab
  stable k := by
    have hys : ys.filter (fun a => key' a = k) = ys.filter fun a => key a = k := by
      refine List.filter_congr ?_
      intro a ha
      rw [hkey a (h.perm.mem_iff.mp ha)]
    have hxs : xs.filter (fun a => key' a = k) = xs.filter fun a => key a = k := by
      refine List.filter_congr ?_
      intro a ha
      rw [hkey a ha]
    rw [hys, hxs, h.stable k]

/-- Ranking commutes with a map that keeps the keys. -/
theorem map {B : Type} {f : A → B} {key' : B → K} (h : Ranked key xs ys)
    (hkey : ∀ a ∈ xs, key' (f a) = key a) : Ranked key' (xs.map f) (ys.map f) where
  perm := h.perm.map f
  sorted := by
    rw [List.pairwise_map]
    exact (h.congr hkey).sorted
  stable k := by
    simp only [List.filter_map, Function.comp_def]
    rw [(h.congr hkey).stable k]

theorem length_eq (h : Ranked key xs ys) : ys.length = xs.length := h.perm.length_eq

theorem mem_iff (h : Ranked key xs ys) {a : A} : a ∈ ys ↔ a ∈ xs := h.perm.mem_iff

end Ranked

end DomainRag
