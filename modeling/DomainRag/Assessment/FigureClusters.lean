import DomainRag.Assessment.FigureFusion
import Mathlib.Algebra.Order.Ring.Rat
import Mathlib.Order.Bounds.Basic

/-! # The clusters of boxes

Every box of positive size ends in one cluster, which is the smallest box around its members. No
cluster comes near another. Among all such covers of the boxes the clusters are the smallest, and so
the order of the boxes does not matter.
-/

namespace DomainRag.Assessment.FigureBoxes

open Fusion

section Encloses

variable {α : Type} [LinearOrder α]

/-- The box of the cluster is the smallest that contains its members. -/
structure Cluster.Encloses (c : Cluster α) : Prop where
  nonempty : c.members ≠ []
  bounding : IsLUB {r | r ∈ c.members} c.rect

theorem encloses_single (r : Rect α) : (Cluster.single r).Encloses where
  nonempty := List.cons_ne_nil r []
  bounding := by
    simp only [Cluster.single, List.mem_singleton, Set.ofPred_eq_eq_singleton]
    exact isLUB_singleton

theorem Cluster.Encloses.union {c c' : Cluster α} (h : c.Encloses) (h' : c'.Encloses) :
    (c.union c').Encloses where
  nonempty := List.append_ne_nil_of_left_ne_nil h.nonempty _
  bounding := by
    have hmembers :
        {r | r ∈ (c.union c').members} = {r | r ∈ c.members} ∪ {r | r ∈ c'.members} := by
      ext r
      exact List.mem_append
    rw [hmembers]
    exact h.bounding.union h'.bounding

end Encloses

section Clusters

variable {α : Type} [AddCommGroup α] [LinearOrder α]

/-- No box that is inflated intersects another. -/
def Apart (mergeGap : α) (boxes : List (Rect α)) : Prop :=
  boxes.Pairwise fun b b' => near mergeGap b b' = false ∧ near mergeGap b' b = false

theorem Apart.eq_of_near {mergeGap : α} {boxes : List (Rect α)} {b b' : Rect α}
    (h : Apart mergeGap boxes) (hb : b ∈ boxes) (hb' : b' ∈ boxes)
    (hnear : near mergeGap b b' = true) : b = b' := by
  have hsymm : Std.Symm fun b b' : Rect α =>
      near mergeGap b b' = false ∧ near mergeGap b' b = false := ⟨fun _ _ h => h.symm⟩
  by_contra hne
  have hfar := (h.forall hb hb' hne).1
  cases hfar.symm.trans hnear

/-- Every box of positive size is in one cluster, and the clusters enclose their members and are
apart. -/
structure Clustered (mergeGap : α) (rects : List (Rect α)) (clusters : List (Cluster α)) :
    Prop where
  members : (clusters.flatMap Cluster.members).Perm (rects.filter hasSize)
  encloses : ∀ c ∈ clusters, c.Encloses
  once : ∀ r ∈ rects, hasSize r = true → clusters.countP (fun c => r ≤ c.rect) = 1
  apart : Apart mergeGap (clusters.map Cluster.rect)

variable {mergeGap : α} {rects rects' boxes out out' : List (Rect α)} {fuel fuel' : Nat}

/-- The boxes with their members run as the boxes do. -/
theorem image_rect : Image Cluster.rect (Cluster.near mergeGap) Cluster.union (near mergeGap)
    Rect.union := ⟨fun _ _ => rfl, fun _ _ => rfl⟩

theorem merge_eq_map (mergeGap : α) (fuel : Nat) (rects : List (Rect α)) :
    merge mergeGap fuel rects =
      (mergeClusters mergeGap fuel rects).map (.map Cluster.rect) := by
  have hrects : ((rects.filter hasSize).map Cluster.single).map Cluster.rect =
      rects.filter hasSize := by
    rw [List.map_map]
    exact List.map_id _
  rw [merge, mergeClusters, ← image_rect.mergeAll, hrects]

theorem perm_members {cs cs' : List (Cluster α)}
    (h : Steps (Cluster.near mergeGap) Cluster.union (cs : Multiset (Cluster α)) cs') :
    (cs'.flatMap Cluster.members).Perm (cs.flatMap Cluster.members) := by
  rw [List.perm_iff_count]
  intro r
  have hsum := h.sum_map_eq (f := fun c => c.members.count r) fun c c' => List.count_append
  rw [Multiset.map_coe, Multiset.map_coe, Multiset.sum_coe, Multiset.sum_coe] at hsum
  rw [List.count_flatMap, List.count_flatMap]
  exact hsum

theorem Clustered.exists_le {clusters : List (Cluster α)} (h : Clustered mergeGap rects clusters)
    {r : Rect α} (hr : r ∈ rects) (hsize : hasSize r = true) :
    ∃ b ∈ clusters.map Cluster.rect, r ≤ b := by
  have hpos : 0 < clusters.countP fun c => r ≤ c.rect := by
    rw [h.once r hr hsize]
    exact Nat.one_pos
  obtain ⟨c, hc, hle⟩ := List.countP_pos_iff.mp hpos
  exact ⟨c.rect, List.mem_map_of_mem hc, of_decide_eq_true hle⟩

section Ordered

variable [IsOrderedAddMonoid α]

theorem hasSize_iff {r : Rect α} : hasSize r = true ↔ r.Proper := by
  rw [hasSize, Bool.and_eq_true, decide_eq_true_eq, decide_eq_true_eq]
  exact Rect.width_pos_and_height_pos_iff

theorem near_of_le (hgap : 0 ≤ mergeGap) {r b b' : Rect α} (hr : r.Proper) (hb : r ≤ b)
    (hb' : r ≤ b') : near mergeGap b b' = true :=
  hr.intersects (hb.trans (Rect.le_inflate hgap b)) hb'

theorem near_mono {b b' d d' : Rect α} (hb : b ≤ d) (hb' : b' ≤ d')
    (h : near mergeGap b b' = true) : near mergeGap d d' = true :=
  Rect.intersects_mono (Rect.inflate_mono mergeGap hb) hb' h

theorem apart_of_pairwise (hgap : 0 ≤ mergeGap) (hproper : ∀ b ∈ boxes, b.Proper)
    (h : boxes.Pairwise fun b b' => near mergeGap b b' = false) : Apart mergeGap boxes := by
  apply h.imp_of_mem
  intro b b' hb hb' hfar
  refine ⟨hfar, ?_⟩
  rw [← Bool.not_eq_true]
  intro hnear
  rw [near, Rect.intersects_inflate_symm hgap (hproper b' hb') (hproper b hb) hnear] at hfar
  cases hfar

theorem countP_eq_one (hgap : 0 ≤ mergeGap) (happart : Apart mergeGap boxes) {r : Rect α}
    (hr : r.Proper) (hex : ∃ b ∈ boxes, r ≤ b) : boxes.countP (fun b => r ≤ b) = 1 := by
  induction boxes with
  | nil =>
    obtain ⟨b, hb, -⟩ := hex
    cases hb
  | cons b boxes ih =>
    obtain ⟨hfirst, hrest⟩ := List.pairwise_cons.mp happart
    rw [List.countP_cons]
    by_cases hle : r ≤ b
    · have hnone : boxes.countP (fun b => r ≤ b) = 0 := by
        rw [List.countP_eq_zero]
        intro b' hb' hle'
        have hnear := near_of_le hgap hr hle (of_decide_eq_true hle')
        rw [(hfirst b' hb').1] at hnear
        cases hnear
      rw [hnone, if_pos (decide_eq_true hle)]
    · have hex' : ∃ b ∈ boxes, r ≤ b := by
        obtain ⟨b', hb', hle'⟩ := hex
        rcases List.mem_cons.mp hb' with rfl | hb'
        · exact absurd hle' hle
        · exact ⟨b', hb', hle'⟩
      rw [ih hrest hex', if_neg (by simpa using hle)]

theorem proper_of_members {clusters : List (Cluster α)}
    (hmembers : (clusters.flatMap Cluster.members).Perm (rects.filter hasSize))
    (hencloses : ∀ c ∈ clusters, c.Encloses) : ∀ b ∈ clusters.map Cluster.rect, b.Proper := by
  intro b hb
  obtain ⟨c, hc, rfl⟩ := List.mem_map.mp hb
  obtain ⟨r, hr⟩ := List.exists_mem_of_ne_nil _ (hencloses c hc).nonempty
  have hsize := List.of_mem_filter (hmembers.subset (List.mem_flatMap.mpr ⟨c, hc, hr⟩))
  exact (hasSize_iff.mp hsize).mono ((hencloses c hc).bounding.1 hr)

theorem clustered_of_steps (hgap : 0 ≤ mergeGap) {clusters : List (Cluster α)}
    (hsteps : Steps (Cluster.near mergeGap) Cluster.union
      ((rects.filter hasSize).map Cluster.single : List (Cluster α)) clusters)
    (hpairwise : clusters.Pairwise fun c c' => c.near mergeGap c' = false) :
    Clustered mergeGap rects clusters := by
  have hmembers : (clusters.flatMap Cluster.members).Perm (rects.filter hasSize) := by
    have hsingles : ((rects.filter hasSize).map Cluster.single).flatMap Cluster.members =
        rects.filter hasSize := by
      rw [List.flatMap_map]
      exact List.flatMap_singleton' _
    rw [← hsingles]
    exact perm_members hsteps
  have hencloses : ∀ c ∈ clusters, c.Encloses := by
    refine hsteps.forall (fun c c' _ h h' => h.union h') ?_
    intro c hc
    obtain ⟨r, -, rfl⟩ := List.mem_map.mp hc
    exact encloses_single r
  have hapart : Apart mergeGap (clusters.map Cluster.rect) :=
    apart_of_pairwise hgap (proper_of_members hmembers hencloses)
      (List.pairwise_map.mpr hpairwise)
  refine ⟨hmembers, hencloses, ?_, hapart⟩
  intro r hr hsize
  obtain ⟨c, hc, hrc⟩ := List.mem_flatMap.mp
    (hmembers.mem_iff.mpr (List.mem_filter.mpr ⟨hr, hsize⟩))
  have hcount := countP_eq_one hgap hapart (hasSize_iff.mp hsize)
    ⟨c.rect, List.mem_map_of_mem hc, (hencloses c hc).bounding.1 hrc⟩
  rwa [List.countP_map] at hcount

theorem exists_clustered (hgap : 0 ≤ mergeGap) (h : merge mergeGap fuel rects = some out) :
    ∃ clusters, mergeClusters mergeGap fuel rects = some clusters ∧
      clusters.map Cluster.rect = out ∧ Clustered mergeGap rects clusters := by
  rw [merge_eq_map, Option.map_eq_some_iff] at h
  obtain ⟨clusters, hrun, hout⟩ := h
  obtain ⟨hsteps, hpairwise⟩ := steps_of_mergeAll hrun
  exact ⟨clusters, hrun, hout, clustered_of_steps hgap hsteps hpairwise⟩

/-- Boxes that are apart and contain all that are merged contain the merged boxes. -/
theorem merge_least {cover : List (Rect α)} (happart : Apart mergeGap cover)
    (hcover : ∀ r ∈ rects, hasSize r = true → ∃ d ∈ cover, r ≤ d)
    (h : merge mergeGap fuel rects = some out) : ∀ b ∈ out, ∃ d ∈ cover, b ≤ d := by
  refine (steps_of_mergeAll h).1.forall ?_ ?_
  · rintro b b' hnear ⟨d, hd, hle⟩ ⟨d', hd', hle'⟩
    obtain rfl : d = d' := happart.eq_of_near hd hd' (near_mono hle hle' hnear)
    exact ⟨d, hd, sup_le hle hle'⟩
  · intro r hr
    exact hcover r (List.mem_of_mem_filter hr) (List.of_mem_filter hr)

theorem merge_subset (hgap : 0 ≤ mergeGap) (hperm : rects.Perm rects')
    (h : merge mergeGap fuel rects = some out) (h' : merge mergeGap fuel' rects' = some out') :
    out ⊆ out' := by
  obtain ⟨cs, -, rfl, hcs⟩ := exists_clustered hgap h
  obtain ⟨cs', -, rfl, hcs'⟩ := exists_clustered hgap h'
  intro b hb
  obtain ⟨d, hd, hbd⟩ := merge_least hcs'.apart
    (fun r hr hsize => hcs'.exists_le (hperm.subset hr) hsize) h b hb
  obtain ⟨b', hb', hdb⟩ := merge_least hcs.apart
    (fun r hr hsize => hcs.exists_le (hperm.symm.subset hr) hsize) h' d hd
  have hproper := proper_of_members hcs.members hcs.encloses b hb
  have hsame : b = b' :=
    hcs.apart.eq_of_near hb hb' (near_of_le hgap hproper le_rfl (hbd.trans hdb))
  have heq : b = d := le_antisymm hbd (hsame ▸ hdb)
  exact heq ▸ hd

theorem nodup_of_merge (hgap : 0 ≤ mergeGap) (h : merge mergeGap fuel rects = some out) :
    out.Nodup := by
  obtain ⟨cs, -, rfl, hcs⟩ := exists_clustered hgap h
  apply hcs.apart.imp_of_mem
  rintro b _ hb - hfar rfl
  have hproper := proper_of_members hcs.members hcs.encloses b hb
  rw [near_of_le hgap hproper le_rfl le_rfl] at hfar
  cases hfar.1

/-- The order of the boxes does not matter. -/
theorem merge_perm (hgap : 0 ≤ mergeGap) (hperm : rects.Perm rects')
    (h : merge mergeGap fuel rects = some out) (h' : merge mergeGap fuel' rects' = some out') :
    out.Perm out' := by
  rw [List.perm_ext_iff_of_nodup (nodup_of_merge hgap h) (nodup_of_merge hgap h')]
  intro b
  exact ⟨fun hb => merge_subset hgap hperm h h' hb, fun hb => merge_subset hgap hperm.symm h' h hb⟩

/-- With more turns for each loop than there are boxes and one, the merge ends with the clusters of
the boxes. -/
theorem merge_clustered (mergeGap : α) (hgap : 0 ≤ mergeGap) (rects : List (Rect α)) :
    ∃ clusters, Clustered mergeGap rects clusters ∧ ∀ fuel, rects.length + 1 < fuel →
      mergeClusters mergeGap fuel rects = some clusters ∧
        merge mergeGap fuel rects = some (clusters.map Cluster.rect) := by
  have hlength : ((rects.filter hasSize).map Cluster.single).length ≤ rects.length := by
    rw [List.length_map]
    exact List.length_filter_le _ _
  obtain ⟨clusters, hrun, hsteps, hpairwise⟩ := mergeAll_spec (Cluster.near mergeGap) Cluster.union
    ((rects.filter hasSize).map Cluster.single) (Nat.add_lt_add_right (Nat.lt_succ_of_le hlength) 1)
  refine ⟨clusters, clustered_of_steps hgap hsteps hpairwise, ?_⟩
  intro fuel hfuel
  have hclusters : mergeClusters mergeGap fuel rects = some clusters :=
    mergeAll_mono hfuel hrun
  rw [merge_eq_map, hclusters]
  exact ⟨rfl, rfl⟩

end Ordered

end Clusters

/-- The third box is put aside before it is near, to the union of the first two. -/
theorem merge_clustered_three : ∃ clusters : List (Cluster ℚ),
    Clustered 12 [⟨0, 0, 10, 10⟩, ⟨20, 0, 30, 40⟩, ⟨0, 45, 7, 60⟩, ⟨90, 0, 99, 9⟩] clusters ∧
      clusters.map Cluster.rect = [⟨90, 0, 99, 9⟩, ⟨0, 0, 30, 60⟩] := by
  obtain ⟨clusters, hclustered, hruns⟩ := merge_clustered (12 : ℚ) (by decide +kernel)
    [⟨0, 0, 10, 10⟩, ⟨20, 0, 30, 40⟩, ⟨0, 45, 7, 60⟩, ⟨90, 0, 99, 9⟩]
  refine ⟨clusters, hclustered, ?_⟩
  have hrun : merge (12 : ℚ) 6 [⟨0, 0, 10, 10⟩, ⟨20, 0, 30, 40⟩, ⟨0, 45, 7, 60⟩, ⟨90, 0, 99, 9⟩] =
      some [⟨90, 0, 99, 9⟩, ⟨0, 0, 30, 60⟩] := by decide +kernel
  exact Option.some.inj ((hruns 6 (by decide)).2.symm.trans hrun)

end DomainRag.Assessment.FigureBoxes
