import DomainRag.Assessment.FigureBoxes

/-! # The loops as a fusion of boxes

A run of the loops fuses near boxes of a bag, one pair after the other. It ends, with enough turns
for each loop, when no two boxes are near. It runs in the same way on the images of the boxes.
-/

namespace DomainRag.Assessment.FigureBoxes

open Fusion

section Bags

variable {A : Type}

def Current.bag (v : Current A) : Multiset A := v.cur ::ₘ v.boxes

def Round.bag (r : Round A) : Multiset A := r.out + r.boxes

variable (near : A → A → Bool) (union : A → A → A)

/-- The loop over the boxes keeps all of them, or it merges. -/
theorem foldl_visit_cases (v : Current A) (bs : List A) :
    (bs.foldl (visit near union) v = { v with boxes := v.boxes ++ bs } ∧
      ∀ b ∈ bs, near v.cur b = false) ∨
    ((bs.foldl (visit near union) v).merged = true ∧
      (bs.foldl (visit near union) v).changed = true ∧
      (bs.foldl (visit near union) v).boxes.length < v.boxes.length + bs.length) := by
  induction bs generalizing v with
  | nil => exact .inl ⟨by rw [List.append_nil]; rfl, List.forall_mem_nil _⟩
  | cons b bs ih =>
    rw [List.foldl_cons, List.length_cons]
    cases hnear : near v.cur b with
    | true =>
      refine .inr ?_
      simp only [visit, hnear, if_true]
      rcases ih { v with cur := union v.cur b, merged := true, changed := true } with
        ⟨heq, -⟩ | ⟨hmerged, hchanged, hlength⟩
      · rw [heq]
        simp
      · exact ⟨hmerged, hchanged, by simp only at hlength; omega⟩
    | false =>
      simp only [visit, hnear, Bool.false_eq_true, if_false]
      rcases ih { v with boxes := v.boxes ++ [b] } with
        ⟨heq, hall⟩ | ⟨hmerged, hchanged, hlength⟩
      · refine .inl ⟨?_, List.forall_mem_cons.mpr ⟨hnear, hall⟩⟩
        rw [heq, List.append_assoc, List.singleton_append]
      · refine .inr ⟨hmerged, hchanged, ?_⟩
        simp only [List.length_append, List.length_singleton] at hlength
        omega

theorem steps_foldl_visit (v : Current A) (bs : List A) :
    Steps near union (v.cur ::ₘ ↑(v.boxes ++ bs)) (bs.foldl (visit near union) v).bag := by
  induction bs generalizing v with
  | nil =>
    rw [List.append_nil]
    exact .refl _
  | cons b bs ih =>
    rw [List.foldl_cons]
    cases hnear : near v.cur b with
    | true =>
      have hbag : (v.cur ::ₘ ↑(v.boxes ++ b :: bs) : Multiset A) =
          v.cur ::ₘ b ::ₘ ↑(v.boxes ++ bs) := by
        rw [Multiset.cons_coe, Multiset.cons_coe, Multiset.cons_coe, Multiset.coe_eq_coe]
        exact List.perm_middle.cons v.cur
      rw [hbag]
      apply Steps.head (.fuse v.cur b _ hnear)
      simp only [visit, hnear, if_true]
      exact ih { v with cur := union v.cur b, merged := true, changed := true }
    | false =>
      have hboxes : v.boxes ++ b :: bs = v.boxes ++ [b] ++ bs := by
        rw [List.append_assoc, List.singleton_append]
      rw [hboxes]
      simp only [visit, hnear, Bool.false_eq_true, if_false]
      exact ih { v with boxes := v.boxes ++ [b] }

/-- What becomes of the current box and the others. Either nothing is merged, or there are fewer. -/
structure Absorbs (v v' : Current A) : Prop where
  steps : Steps near union v.bag v'.bag
  progress : (v'.changed = v.changed ∧ v'.cur = v.cur ∧ v'.boxes = v.boxes) ∨
    (v'.changed = true ∧ v'.boxes.length < v.boxes.length)

variable {near union} {fuel : Nat}

theorem Absorbs.refl (v : Current A) : Absorbs near union v v := ⟨.refl _, .inl ⟨rfl, rfl, rfl⟩⟩

theorem Absorbs.trans {v v' v'' : Current A} (h : Absorbs near union v v')
    (h' : Absorbs near union v' v'') : Absorbs near union v v'' := by
  refine ⟨h.steps.trans h'.steps, ?_⟩
  rcases h.progress with ⟨hchanged, hcur, hboxes⟩ | ⟨hchanged, hlength⟩
  · rw [← hchanged, ← hcur, ← hboxes]
    exact h'.progress
  · rcases h'.progress with ⟨hchanged', -, hboxes'⟩ | ⟨hchanged', hlength'⟩
    · rw [hchanged', hboxes']
      exact .inr ⟨hchanged, hlength⟩
    · exact .inr ⟨hchanged', hlength'.trans hlength⟩

theorem Absorbs.length_le {v v' : Current A} (h : Absorbs near union v v') :
    v'.boxes.length ≤ v.boxes.length := by
  rcases h.progress with ⟨-, -, hboxes⟩ | ⟨-, hlength⟩
  · exact (congrArg List.length hboxes).le
  · exact hlength.le

variable (near union) in
/-- A pass that merges nothing finds no box near, and one that merges leaves fewer boxes. -/
theorem pass_spec (v : Current A) : Absorbs near union v (pass near union v) ∧
    ((pass near union v).merged = false →
      ∀ b ∈ (pass near union v).boxes, near (pass near union v).cur b = false) ∧
    ((pass near union v).merged = true →
      (pass near union v).boxes.length < v.boxes.length) := by
  have hsteps : Steps near union v.bag (pass near union v).bag :=
    steps_foldl_visit near union { v with boxes := [], merged := false } v.boxes
  rcases foldl_visit_cases near union { v with boxes := [], merged := false } v.boxes with
    ⟨heq, hall⟩ | ⟨hmerged, hchanged, hlength⟩
  · have hpass : pass near union v = { v with merged := false } := heq
    rw [hpass] at hsteps ⊢
    exact ⟨⟨hsteps, .inl ⟨rfl, rfl, rfl⟩⟩, fun _ => hall, nofun⟩
  · rw [List.length_nil, Nat.zero_add] at hlength
    refine ⟨⟨hsteps, .inr ⟨hchanged, hlength⟩⟩, ?_, fun _ => hlength⟩
    intro hnot
    cases hnot.symm.trans hmerged

variable (near union) in
/-- `while merged` ends when no box is near to the current one. -/
theorem whileMerged_spec (v : Current A) (hfuel : v.boxes.length + 1 < fuel)
    (hmerged : v.merged = true) :
    ∃ v', whileMerged near union fuel v = some v' ∧ Absorbs near union v v' ∧
      ∀ b ∈ v'.boxes, near v'.cur b = false := by
  let I (v' : Current A) : Prop := Absorbs near union v v' ∧
    (v'.merged = false → ∀ b ∈ v'.boxes, near v'.cur b = false)
  have hrule : ∃ v', whileMerged near union fuel v = some v' ∧ I v' ∧ v'.merged = false := by
    apply While.loop_rule_again I fun v' => v'.boxes.length
    · rintro v' ⟨habsorbs, -⟩ -
      obtain ⟨hpass, hapart, hfewer⟩ := pass_spec near union v'
      exact ⟨_, rfl, ⟨habsorbs.trans hpass, hapart⟩, hpass.length_le, hfewer⟩
    · refine ⟨.refl v, ?_⟩
      intro hnot
      cases hnot.symm.trans hmerged
    · exact hfuel
  obtain ⟨v', hrun, ⟨habsorbs, hapart⟩, hdone⟩ := hrule
  exact ⟨v', hrun, habsorbs, hapart hdone⟩

variable (near union) in
/-- What `while boxes` makes of the boxes of a round. As long as it merges nothing, no box that was
put aside is near to one after it or to one that is left. -/
structure Sweeps (boxes : List A) (r : Round A) : Prop where
  steps : Steps near union boxes r.bag
  apart : r.changed = false → (r.out.Pairwise fun a b => near a b = false) ∧
    ∀ a ∈ r.out, ∀ b ∈ r.boxes, near a b = false
  fewer : r.changed = true → r.out.length + r.boxes.length < boxes.length

theorem Sweeps.length_le {boxes : List A} {r : Round A} (h : Sweeps near union boxes r) :
    r.out.length + r.boxes.length ≤ boxes.length := by
  have hcard := h.steps.card_le
  rwa [Round.bag, Multiset.card_add, Multiset.coe_card, Multiset.coe_card,
    Multiset.coe_card] at hcard

/-- The last box is put aside with all that it absorbs. -/
theorem Sweeps.pop {boxes front : List A} {cur : A} {r : Round A} (h : Sweeps near union boxes r)
    (hboxes : r.boxes = front ++ [cur]) {v : Current A}
    (hv : Absorbs near union ⟨cur, front, true, r.changed⟩ v)
    (hapart : ∀ b ∈ v.boxes, near v.cur b = false) :
    Sweeps near union boxes ⟨v.boxes, r.out ++ [v.cur], v.changed⟩ := by
  have hlength := hv.length_le
  refine ⟨h.steps.trans ?_, ?_, ?_⟩
  · have hbefore : r.bag = Current.bag ⟨cur, front, true, r.changed⟩ + ↑r.out := by
      rw [Round.bag, Current.bag, hboxes, Multiset.cons_coe, Multiset.coe_add, Multiset.coe_add,
        Multiset.coe_eq_coe]
      exact (List.perm_append_comm.trans ((List.perm_append_singleton cur front).append_right _))
    have hafter : Round.bag ⟨v.boxes, r.out ++ [v.cur], v.changed⟩ = v.bag + ↑r.out := by
      rw [Round.bag, Current.bag, Multiset.cons_coe, Multiset.coe_add, Multiset.coe_add,
        Multiset.coe_eq_coe, List.append_assoc, List.singleton_append]
      exact List.perm_append_comm
    rw [hbefore, hafter]
    exact hv.steps.add_right _
  · intro hchanged
    rcases hv.progress with ⟨hsame, hcur, hfront⟩ | ⟨hchanged', -⟩
    · obtain ⟨hpairwise, hleft⟩ := h.apart (hsame.symm.trans hchanged)
      rw [hboxes] at hleft
      simp only at hcur hfront
      constructor
      · rw [List.pairwise_append]
        refine ⟨hpairwise, List.pairwise_singleton _ _, ?_⟩
        intro a ha b hb
        rw [List.mem_singleton.mp hb, hcur]
        exact hleft a ha cur (by simp)
      · intro a ha b hb
        rcases List.mem_append.mp ha with ha | ha
        · rw [hfront] at hb
          exact hleft a ha b (List.mem_append_left _ hb)
        · rw [List.mem_singleton.mp ha]
          exact hapart b hb
    · cases hchanged.symm.trans hchanged'
  · intro hchanged
    have hle := h.length_le
    rw [hboxes] at hle
    simp only [List.length_append, List.length_singleton] at hle hlength ⊢
    rcases hv.progress with ⟨hsame, -, -⟩ | ⟨-, hlt⟩
    · have hlt := h.fewer (hsame.symm.trans hchanged)
      rw [hboxes] at hlt
      simp only [List.length_append, List.length_singleton] at hlt
      omega
    · simp only at hlt
      omega

theorem popCurrent_spec {boxes : List A} {r : Round A} (h : Sweeps near union boxes r)
    (hfuel : boxes.length < fuel) (hne : r.boxes ≠ []) :
    ∃ r', popCurrent near union fuel r = some r' ∧ Sweeps near union boxes r' ∧
      r'.boxes.length < r.boxes.length := by
  obtain ⟨front, cur, hboxes⟩ := (List.eq_nil_or_concat' r.boxes).resolve_left hne
  have hlength : r.boxes.length = front.length + 1 := by rw [hboxes, List.length_append]; rfl
  have hle := h.length_le
  have hfront : front.length + 1 < fuel := by omega
  obtain ⟨v, hrun, hv, hapart⟩ := whileMerged_spec near union
    ⟨cur, front, true, r.changed⟩ hfront rfl
  refine ⟨⟨v.boxes, r.out ++ [v.cur], v.changed⟩, ?_, h.pop hboxes hv hapart, ?_⟩
  · rw [popCurrent, hboxes, List.getLast?_concat, List.dropLast_concat]
    simp only [hrun]
    rfl
  · have hshorter := hv.length_le
    simp only at hshorter ⊢
    omega

variable (near union) in
/-- `while boxes` ends with a list that, if nothing was merged, has no two boxes near. -/
theorem whileBoxes_spec {boxes : List A} (hfuel : boxes.length < fuel) :
    ∃ r, whileBoxes near union fuel ⟨boxes, [], false⟩ = some r ∧
      Sweeps near union boxes r ∧ r.boxes = [] := by
  have hstart : Sweeps near union boxes ⟨boxes, [], false⟩ :=
    ⟨.refl _, fun _ => ⟨.nil, nofun⟩, nofun⟩
  have hrule : ∃ r, whileBoxes near union fuel ⟨boxes, [], false⟩ = some r ∧
      Sweeps near union boxes r ∧ (!r.boxes.isEmpty) = false := by
    apply While.loop_rule (Sweeps near union boxes) fun r => r.boxes.length
    · intro r hr hnonempty
      apply popCurrent_spec hr hfuel
      simpa using hnonempty
    · exact hstart
    · exact hfuel
  obtain ⟨r, hrun, hr, hempty⟩ := hrule
  exact ⟨r, hrun, hr, by simpa using hempty⟩

variable (near union) in
theorem nextRound_spec (rs : Rounds A) (hfuel : rs.boxes.length < fuel) :
    ∃ rs', nextRound near union fuel rs = some rs' ∧ Steps near union rs.boxes rs'.boxes ∧
      (rs'.changed = false → rs'.boxes.Pairwise fun a b => near a b = false) ∧
      (rs'.changed = true → rs'.boxes.length < rs.boxes.length) := by
  obtain ⟨r, hrun, hr, hempty⟩ := whileBoxes_spec near union hfuel
  refine ⟨⟨r.out, r.changed⟩, ?_, ?_, fun hchanged => (hr.apart hchanged).1, ?_⟩
  · rw [nextRound, hrun]
    rfl
  · have hsteps := hr.steps
    rwa [Round.bag, hempty, Multiset.coe_nil, add_zero] at hsteps
  · intro hchanged
    have hfewer := hr.fewer hchanged
    rwa [hempty] at hfewer

variable (near union) in
/-- With more turns than there are boxes and one, the loops end. They fuse near boxes until none are
near. -/
theorem mergeAll_spec (boxes : List A) (hfuel : boxes.length + 1 < fuel) :
    ∃ out, mergeAll near union fuel boxes = some out ∧ Steps near union boxes out ∧
      out.Pairwise fun a b => near a b = false := by
  let I (rs : Rounds A) : Prop := Steps near union boxes rs.boxes ∧
    (rs.changed = false → rs.boxes.Pairwise fun a b => near a b = false)
  have hrule : ∃ rs, whileChanged near union fuel ⟨boxes, true⟩ = some rs ∧ I rs ∧
      rs.changed = false := by
    apply While.loop_rule_again I fun rs => rs.boxes.length
    · rintro rs ⟨hsteps, -⟩ -
      have hcard := hsteps.card_le
      rw [Multiset.coe_card, Multiset.coe_card] at hcard
      have hfuel' : rs.boxes.length < fuel := by omega
      obtain ⟨rs', hrun, hsteps', hapart, hfewer⟩ := nextRound_spec near union rs hfuel'
      have hcard' := hsteps'.card_le
      rw [Multiset.coe_card, Multiset.coe_card] at hcard'
      exact ⟨rs', hrun, ⟨hsteps.trans hsteps', hapart⟩, hcard', hfewer⟩
    · exact ⟨.refl _, nofun⟩
    · exact hfuel
  obtain ⟨rs, hrun, ⟨hsteps, hapart⟩, hdone⟩ := hrule
  refine ⟨rs.boxes, ?_, hsteps, hapart hdone⟩
  rw [mergeAll, hrun]
  rfl

end Bags

section Fuel

variable {A : Type} {near : A → A → Bool} {union : A → A → A} {fuel fuel' : Nat}

theorem popCurrent_mono (hle : fuel ≤ fuel') {r r' : Round A}
    (h : popCurrent near union fuel r = some r') : popCurrent near union fuel' r = some r' := by
  rw [popCurrent] at h ⊢
  cases hlast : r.boxes.getLast? with
  | none =>
    rw [hlast] at h
    exact h
  | some cur =>
    rw [hlast] at h
    obtain ⟨v, hv, h⟩ := Option.bind_eq_some_iff.mp h
    have hv' : whileMerged near union fuel' ⟨cur, r.boxes.dropLast, true, r.changed⟩ = some v :=
      While.loop_mono (fun _ _ h => h) hle hv
    simp only [hv']
    exact h

theorem nextRound_mono (hle : fuel ≤ fuel') {rs rs' : Rounds A}
    (h : nextRound near union fuel rs = some rs') : nextRound near union fuel' rs = some rs' := by
  obtain ⟨r, hr, h⟩ := Option.bind_eq_some_iff.mp h
  have hr' : whileBoxes near union fuel' ⟨rs.boxes, [], false⟩ = some r :=
    While.loop_mono (fun _ _ => popCurrent_mono hle) hle hr
  rw [nextRound, hr']
  exact h

theorem mergeAll_mono (hle : fuel ≤ fuel') {boxes out : List A}
    (h : mergeAll near union fuel boxes = some out) :
    mergeAll near union fuel' boxes = some out := by
  obtain ⟨rs, hrs, h⟩ := Option.bind_eq_some_iff.mp h
  have hrs' : whileChanged near union fuel' ⟨boxes, true⟩ = some rs :=
    While.loop_mono (fun _ _ => nextRound_mono hle) hle hrs
  rw [mergeAll, hrs']
  exact h

/-- A run that has a result is a run with enough turns. -/
theorem steps_of_mergeAll {boxes out : List A} (h : mergeAll near union fuel boxes = some out) :
    Steps near union boxes out ∧ out.Pairwise fun a b => near a b = false := by
  have henough : boxes.length + 1 < max fuel (boxes.length + 2) := by omega
  obtain ⟨out', hrun, hspec⟩ := mergeAll_spec near union boxes henough
  rw [mergeAll_mono (Nat.le_max_left fuel _) h] at hrun
  cases hrun
  exact hspec

end Fuel

section Map

variable {A B : Type} (f : A → B)

def Current.map (v : Current A) : Current B := ⟨f v.cur, v.boxes.map f, v.merged, v.changed⟩

def Round.map (r : Round A) : Round B := ⟨r.boxes.map f, r.out.map f, r.changed⟩

def Rounds.map (rs : Rounds A) : Rounds B := ⟨rs.boxes.map f, rs.changed⟩

/-- The images are near, and are united, as their elements are. -/
structure Image (near : A → A → Bool) (union : A → A → A) (near' : B → B → Bool)
    (union' : B → B → B) : Prop where
  near : ∀ a b, near' (f a) (f b) = near a b
  union : ∀ a b, union' (f a) (f b) = f (union a b)

variable {f} {near : A → A → Bool} {union : A → A → A} {near' : B → B → Bool}
  {union' : B → B → B}

theorem Image.visit (h : Image f near union near' union') (v : Current A) (b : A) :
    visit near' union' (v.map f) (f b) = (visit near union v b).map f := by
  simp only [FigureBoxes.visit, Current.map, h.near, h.union]
  split
  · rfl
  · rw [List.map_append, List.map_singleton]

theorem Image.pass (h : Image f near union near' union') (v : Current A) :
    pass near' union' (v.map f) = (pass near union v).map f := by
  have hfold : ∀ (bs : List A) (w : Current A), (bs.map f).foldl (FigureBoxes.visit near' union')
      (w.map f) = (bs.foldl (FigureBoxes.visit near union) w).map f := by
    intro bs
    induction bs with
    | nil => exact fun _ => rfl
    | cons b bs ih =>
      intro w
      rw [List.map_cons, List.foldl_cons, List.foldl_cons, h.visit, ih]
  exact hfold v.boxes { v with boxes := [], merged := false }

theorem Image.whileMerged (h : Image f near union near' union') (fuel : Nat) (v : Current A) :
    whileMerged near' union' fuel (v.map f) = (whileMerged near union fuel v).map (.map f) :=
  While.loop_map (fun _ => rfl) fun w => congrArg some (h.pass w)

theorem Image.popCurrent (h : Image f near union near' union') (fuel : Nat) (r : Round A) :
    popCurrent near' union' fuel (r.map f) = (popCurrent near union fuel r).map (.map f) := by
  simp only [FigureBoxes.popCurrent, Round.map, List.getLast?_map]
  cases r.boxes.getLast? with
  | none => rfl
  | some cur =>
    have hrun := h.whileMerged fuel ⟨cur, r.boxes.dropLast, true, r.changed⟩
    rw [Current.map, List.map_dropLast] at hrun
    simp only [Option.map_some, hrun]
    cases FigureBoxes.whileMerged near union fuel ⟨cur, r.boxes.dropLast, true, r.changed⟩ with
    | none => rfl
    | some v =>
      simp [Current.map, Round.map]

theorem Image.nextRound (h : Image f near union near' union') (fuel : Nat) (rs : Rounds A) :
    nextRound near' union' fuel (rs.map f) = (nextRound near union fuel rs).map (.map f) := by
  have hrun : whileBoxes near' union' fuel (Round.map f ⟨rs.boxes, [], false⟩) =
      (whileBoxes near union fuel ⟨rs.boxes, [], false⟩).map (.map f) := by
    apply While.loop_map
    · intro r
      simp [Round.map]
    · exact h.popCurrent fuel
  rw [Round.map, List.map_nil] at hrun
  simp only [FigureBoxes.nextRound, Rounds.map, hrun]
  cases whileBoxes near union fuel ⟨rs.boxes, [], false⟩ <;> rfl

theorem Image.mergeAll (h : Image f near union near' union') (fuel : Nat) (boxes : List A) :
    mergeAll near' union' fuel (boxes.map f) = (mergeAll near union fuel boxes).map (.map f) := by
  have hrun : whileChanged near' union' fuel (Rounds.map f ⟨boxes, true⟩) =
      (whileChanged near union fuel ⟨boxes, true⟩).map (.map f) :=
    While.loop_map (fun _ => rfl) (h.nextRound fuel)
  rw [Rounds.map] at hrun
  simp only [FigureBoxes.mergeAll, hrun]
  cases whileChanged near union fuel ⟨boxes, true⟩ <;> rfl

end Map

end DomainRag.Assessment.FigureBoxes
